import Vyrm.Cluster.Contract

/-!
# Snapshot vectors

`crates/vyrm-cluster/src/contract.rs`: the cursors of the shards of a scope, and the partial order
of them.
-/

namespace Vyrm.Cluster.Contract
open Lib Std

instance : Ord ShardId := ⟨compareOn ShardId.value⟩
instance : TransOrd ShardId := inferInstanceAs (TransCmp (compareOn ShardId.value))

instance : LawfulEqOrd ShardId where
  compare_self {shard} := show compareOn ShardId.value shard shard = .eq from ReflCmp.compare_self
  eq_of_compare {a b} same := by
    obtain ⟨a⟩ := a
    obtain ⟨b⟩ := b
    exact congrArg ShardId.mk (LawfulEqOrd.eq_of_compare same)

/-- `is_sha256` (`contract.rs:492-497`). -/
def isSha256 (value : String) : Bool :=
  let bytes := utf8 value
  bytes.length = 64 &&
    bytes.all fun byte => (48 ≤ byte.toNat && byte.toNat ≤ 57) || (97 ≤ byte.toNat && byte.toNat ≤ 102)

/-- `ShardReadStamp` (`contract.rs:233-239`). -/
structure ShardReadStamp where
  term : UInt64
  commitIndex : UInt64
  placementEpoch : UInt64
  stateDigest : String
  deriving DecidableEq

/-- `ShardReadStamp::validate` (`contract.rs:242-250`). -/
def ShardReadStamp.validate (stamp : ShardReadStamp) : Except ClusterError Unit :=
  if stamp.term = 0 ∨ stamp.placementEpoch = 0 ∨ ¬ isSha256 stamp.stateDigest then
    .error (.invalid "shard stamp requires non-zero term/epoch and lowercase SHA-256 state digest")
  else .ok ()

/-- `VectorRelation` (`contract.rs:253-260`). -/
inductive VectorRelation where
  | equal
  | dominates
  | dominated
  | concurrent
  deriving DecidableEq

/-- The relation the other way. -/
def VectorRelation.flip : VectorRelation → VectorRelation
  | equal => equal
  | dominates => dominated
  | dominated => dominates
  | concurrent => concurrent

@[simp] theorem VectorRelation.flip_flip (relation : VectorRelation) : relation.flip.flip = relation := by
  cases relation <;> rfl

/-- The relation of vectors one of which is less, or greater, at a shard (`contract.rs:318-323`). -/
def VectorRelation.ofSaw : Bool × Bool → VectorRelation
  | (false, false) => equal
  | (false, true) => dominates
  | (true, false) => dominated
  | (true, true) => concurrent

/-- `SnapshotVector` (`contract.rs:262-267`). -/
structure SnapshotVector where
  contractVersion : Nat
  scope : String
  shards : OrdMap ShardId ShardReadStamp

namespace SnapshotVector

/-- `SnapshotVector::validate` (`contract.rs:270-284`). -/
def validate (vector : SnapshotVector) : Except ClusterError Unit :=
  if vector.contractVersion ≠ clusterContractVersion ∨ vector.scope = "" ∨ 256 < (utf8 vector.scope).length ∨
      vector.shards.isEmpty then
    .error (.invalid "snapshot vector requires v1, a bounded scope, and at least one shard")
  else vector.shards.values.forM ShardReadStamp.validate

/-- A shard that two vectors have (`contract.rs:299-316`): whether the one was less, or greater, so far. -/
def compareStamps (saw : Bool × Bool) (left right : ShardReadStamp) : Except ClusterError (Bool × Bool) :=
  if left.placementEpoch ≠ right.placementEpoch then
    .error (.invalid "snapshot vectors cross a placement epoch")
  else if left.commitIndex < right.commitIndex then .ok (true, saw.2)
  else if right.commitIndex < left.commitIndex then .ok (saw.1, true)
  else if left.stateDigest ≠ right.stateDigest ∨ left.term ≠ right.term then
    .error (.denied "equal shard cursors disagree on term or state digest")
  else .ok saw

/-- The shards in turn. Every shard of the one is one of the other. -/
def compareShards (other : OrdMap ShardId ShardReadStamp) :
    Bool × Bool → List (ShardId × ShardReadStamp) → Except ClusterError (Bool × Bool)
  | saw, [] => .ok saw
  | saw, (shard, left) :: rest => do
    match other[shard]? with
    | none => compareShards other saw rest
    | some right =>
      let saw ← compareStamps saw left right
      compareShards other saw rest

/-- `relation` (`contract.rs:286-324`). -/
def relation (self other : SnapshotVector) : Except ClusterError VectorRelation := do
  self.validate
  other.validate
  if self.scope ≠ other.scope ∨ self.shards.keys ≠ other.shards.keys then
    .error (.invalid "snapshot vectors must cover the same scope and shard set")
  else do
    let saw ← compareShards other.shards (false, false) self.shards.toList
    return VectorRelation.ofSaw saw

variable {a b c : SnapshotVector}

/-! ## What a comparison sees -/

/-- Two stamps of a shard may be compared. -/
structure Comparable (left right : ShardReadStamp) : Prop where
  epoch : left.placementEpoch = right.placementEpoch
  same : left.commitIndex = right.commitIndex → left.stateDigest = right.stateDigest ∧ left.term = right.term

theorem Comparable.symm {left right : ShardReadStamp} (comparable : Comparable left right) : Comparable right left :=
  ⟨comparable.epoch.symm, fun same => ⟨(comparable.same same.symm).1.symm, (comparable.same same.symm).2.symm⟩⟩

/-- Stamps that may be compared and have one cursor are the same. -/
theorem Comparable.eq {left right : ShardReadStamp} (comparable : Comparable left right)
    (cursor : left.commitIndex = right.commitIndex) : left = right := by
  obtain ⟨digest, term⟩ := comparable.same cursor
  have epoch := comparable.epoch
  cases left
  cases right
  simp_all

theorem compareStamps_ok {saw saw' : Bool × Bool} {left right : ShardReadStamp} :
    compareStamps saw left right = .ok saw' ↔ Comparable left right ∧
      saw' = (saw.1 || decide (left.commitIndex < right.commitIndex),
        saw.2 || decide (right.commitIndex < left.commitIndex)) := by
  obtain ⟨less, greater⟩ := saw
  rw [compareStamps, except_reject_ok, not_not]
  by_cases epoch : left.placementEpoch = right.placementEpoch
  · rcases Std.lt_trichotomy left.commitIndex right.commitIndex with before | same | after
    · have different : left.commitIndex ≠ right.commitIndex := Std.ne_of_lt before
      have comparable : Comparable left right := ⟨epoch, fun same => absurd same different⟩
      simp [before, Std.not_gt_of_lt before, comparable, epoch, eq_comm]
    · have level : ¬ left.commitIndex < right.commitIndex ∧ ¬ right.commitIndex < left.commitIndex := by simp [same]
      rw [if_neg level.1, if_neg level.2, except_reject_ok]
      have comparable : Comparable left right ↔ ¬ (left.stateDigest ≠ right.stateDigest ∨ left.term ≠ right.term) := by
        rw [not_or, not_not, not_not]
        exact ⟨fun comparable => comparable.same same, fun agree => ⟨epoch, fun _ => agree⟩⟩
      simp [comparable, epoch, same, eq_comm]
    · have different : left.commitIndex ≠ right.commitIndex := (Std.ne_of_lt after).symm
      have comparable : Comparable left right := ⟨epoch, fun same => absurd same different⟩
      simp [after, Std.not_gt_of_lt after, comparable, epoch, eq_comm]
  · exact iff_of_false (fun ok => epoch ok.1) fun ok => epoch ok.1.epoch

/-- The stamps of the shards that two vectors have. -/
def pairs (a b : OrdMap ShardId ShardReadStamp) : List (ShardReadStamp × ShardReadStamp) :=
  a.toList.filterMap fun (shard, left) => b[shard]?.map (left, ·)

theorem mem_pairs {a b : OrdMap ShardId ShardReadStamp} {left right : ShardReadStamp} :
    (left, right) ∈ pairs a b ↔ ∃ shard : ShardId, a[shard]? = some left ∧ b[shard]? = some right := by
  simp only [pairs, List.mem_filterMap, Prod.exists, Option.map_eq_some_iff, Prod.mk.injEq,
    ExtTreeMap.mem_toList_iff_getElem?_eq_some]
  constructor
  · rintro ⟨shard, left', found, right', found', rfl, rfl⟩
    exact ⟨shard, found, found'⟩
  · intro ⟨shard, found, found'⟩
    exact ⟨shard, left, found, right, found', rfl, rfl⟩

theorem compareShards_eq (other : OrdMap ShardId ShardReadStamp) (saw : Bool × Bool)
    (shards : List (ShardId × ShardReadStamp)) : compareShards other saw shards =
      (shards.filterMap fun (shard, left) => other[shard]?.map (left, ·)).foldlM
        (fun saw pair => compareStamps saw pair.1 pair.2) saw := by
  induction shards generalizing saw with
  | nil => rfl
  | cons entry rest ih =>
    obtain ⟨shard, left⟩ := entry
    cases found : other[shard]? with
    | none => simp [compareShards, found, ih]
    | some right => simp [compareShards, found, ih]

theorem foldlM_compareStamps_ok {pairs : List (ShardReadStamp × ShardReadStamp)} {saw saw' : Bool × Bool} :
    pairs.foldlM (fun saw pair => compareStamps saw pair.1 pair.2) saw = .ok saw' ↔
      (∀ pair ∈ pairs, Comparable pair.1 pair.2) ∧
        saw' = (saw.1 || pairs.any fun pair => pair.1.commitIndex < pair.2.commitIndex,
          saw.2 || pairs.any fun pair => pair.2.commitIndex < pair.1.commitIndex) := by
  induction pairs generalizing saw with
  | nil => simp [eq_comm]
  | cons pair rest ih =>
    simp only [List.foldlM_cons, except_bind_ok, compareStamps_ok, ih, List.forall_mem_cons, List.any_cons]
    constructor
    · rintro ⟨_, ⟨comparable, rfl⟩, later, rfl⟩
      exact ⟨⟨comparable, later⟩, by simp [Bool.or_assoc]⟩
    · rintro ⟨⟨comparable, later⟩, rfl⟩
      exact ⟨_, ⟨comparable, rfl⟩, later, by simp [Bool.or_assoc]⟩

/-- A vector has an earlier cursor of some shard. -/
def Less (a b : SnapshotVector) : Prop :=
  ∃ (shard : ShardId) (left right : ShardReadStamp), a.shards[shard]? = some left ∧ b.shards[shard]? = some right ∧
    left.commitIndex < right.commitIndex

/-- Two vectors of the same shards, which may be compared at each. -/
structure Aligned (a b : SnapshotVector) : Prop where
  scope : a.scope = b.scope
  shards : a.shards.keys = b.shards.keys
  comparable : ∀ (shard : ShardId) (left right : ShardReadStamp), a.shards[shard]? = some left →
    b.shards[shard]? = some right → Comparable left right

theorem any_pairs_iff {a b : SnapshotVector} {test : ShardReadStamp × ShardReadStamp → Bool} :
    (pairs a.shards b.shards).any test = true ↔ ∃ (shard : ShardId) (left right : ShardReadStamp),
      a.shards[shard]? = some left ∧ b.shards[shard]? = some right ∧ test (left, right) = true := by
  simp only [List.any_eq_true, Prod.exists, mem_pairs]
  constructor
  · intro ⟨left, right, ⟨shard, found, found'⟩, passes⟩
    exact ⟨shard, left, right, found, found', passes⟩
  · intro ⟨shard, left, right, found, found', passes⟩
    exact ⟨left, right, ⟨shard, found, found'⟩, passes⟩

open Classical in
/-- What the relation of valid vectors is. -/
theorem relation_ok (valid : a.validate = .ok ()) (valid' : b.validate = .ok ()) {found : VectorRelation} :
    a.relation b = .ok found ↔ Aligned a b ∧ found = VectorRelation.ofSaw (decide (Less a b), decide (Less b a)) := by
  have less : (pairs a.shards b.shards).any (fun pair => pair.1.commitIndex < pair.2.commitIndex) =
      decide (Less a b) := by
    rw [Bool.eq_iff_iff, any_pairs_iff, decide_eq_true_iff]
    simp only [decide_eq_true_iff, Less]
  have greater : (pairs a.shards b.shards).any (fun pair => pair.2.commitIndex < pair.1.commitIndex) =
      decide (Less b a) := by
    rw [Bool.eq_iff_iff, any_pairs_iff, decide_eq_true_iff]
    simp only [decide_eq_true_iff, Less]
    constructor
    · intro ⟨shard, left, right, found, found', before⟩
      exact ⟨shard, right, left, found', found, before⟩
    · intro ⟨shard, right, left, found', found, before⟩
      exact ⟨shard, left, right, found, found', before⟩
  rw [relation, valid, valid', except_ok_bind, except_ok_bind, except_reject_ok, compareShards_eq]
  simp only [except_bind_ok, except_pure, Except.ok.injEq]
  change (_ ∧ ∃ saw, (pairs a.shards b.shards).foldlM _ _ = _ ∧ _) ↔ _
  simp only [foldlM_compareStamps_ok, less, greater, Bool.false_or, not_or, not_not]
  constructor
  · rintro ⟨⟨scope, shards⟩, _, ⟨comparable, rfl⟩, rfl⟩
    exact ⟨⟨scope, shards, fun shard left right found found' =>
      comparable (left, right) (mem_pairs.mpr ⟨shard, found, found'⟩)⟩, rfl⟩
  · rintro ⟨aligned, rfl⟩
    refine ⟨⟨aligned.scope, aligned.shards⟩, _, ⟨?_, rfl⟩, rfl⟩
    intro ⟨left, right⟩ member
    obtain ⟨shard, found, found'⟩ := mem_pairs.mp member
    exact aligned.comparable shard left right found found'

/-! ## The order -/

theorem Aligned.symm (aligned : Aligned a b) : Aligned b a :=
  ⟨aligned.scope.symm, aligned.shards.symm,
    fun shard left right found found' => (aligned.comparable shard right left found' found).symm⟩

/-- A shard of one of two aligned vectors is one of the other. -/
theorem Aligned.get (aligned : Aligned a b) {shard : ShardId} {left : ShardReadStamp}
    (found : a.shards[shard]? = some left) :
    ∃ right, b.shards[shard]? = some right ∧ Comparable left right := by
  have listed : shard ∈ a.shards := ExtTreeMap.mem_iff_isSome_getElem?.mpr (by rw [found]; rfl)
  rw [← ExtTreeMap.mem_keys, aligned.shards, ExtTreeMap.mem_keys, ExtTreeMap.mem_iff_isSome_getElem?] at listed
  obtain ⟨right, found'⟩ := Option.isSome_iff_exists.mp listed
  exact ⟨right, found', aligned.comparable shard left right found found'⟩

/-- Where a vector has no earlier cursor, each of its cursors is the other's or later. -/
theorem le_of_not_less (least : ¬ Less a b) {shard : ShardId} {left right : ShardReadStamp}
    (found : a.shards[shard]? = some left) (found' : b.shards[shard]? = some right) :
    right.commitIndex ≤ left.commitIndex :=
  Std.not_lt.mp fun before => least ⟨shard, left, right, found, found', before⟩

theorem not_less_self : ¬ Less a a := by
  intro ⟨shard, left, right, found, found', before⟩
  rw [found, Option.some.injEq] at found'
  subst found'
  exact Std.lt_irrefl before

/-- Of valid vectors neither of which has an earlier cursor, the stamps are the same. -/
theorem eq_of_not_less (valid : a.validate = .ok ()) (valid' : b.validate = .ok ()) (aligned : Aligned a b)
    (least : ¬ Less a b) (greatest : ¬ Less b a) : a = b := by
  have shards : a.shards = b.shards := by
    apply ExtTreeMap.ext_getElem?
    intro shard
    cases found : a.shards[shard]? with
    | some left =>
      obtain ⟨right, found', comparable⟩ := aligned.get found
      have cursor := Std.le_antisymm (le_of_not_less greatest found' found) (le_of_not_less least found found')
      rw [found', comparable.eq cursor]
    | none =>
      cases found' : b.shards[shard]? with
      | none => rfl
      | some right =>
        obtain ⟨left, found'', -⟩ := aligned.symm.get found'
        rw [found] at found''
        cases found''
  simp only [validate, except_reject_ok, not_or, not_not] at valid valid'
  have version : a.contractVersion = b.contractVersion := valid.1.1.trans valid'.1.1.symm
  have scope := aligned.scope
  cases a
  cases b
  simp_all

/-- Vectors neither of which is earlier than the next are aligned, and the first is not earlier than the last. -/
theorem Aligned.trans (first : Aligned a b) (second : Aligned b c) (least : ¬ Less a b) (least' : ¬ Less b c) :
    Aligned a c ∧ ¬ Less a c := by
  have between : ∀ (shard : ShardId) (left right : ShardReadStamp), a.shards[shard]? = some left →
      c.shards[shard]? = some right → ∃ middle, Comparable left middle ∧ Comparable middle right ∧
        middle.commitIndex ≤ left.commitIndex ∧ right.commitIndex ≤ middle.commitIndex := by
    intro shard left right found found'
    obtain ⟨middle, found'', comparable⟩ := first.get found
    exact ⟨middle, comparable, second.comparable shard middle right found'' found',
      le_of_not_less least found found'', le_of_not_less least' found'' found'⟩
  refine ⟨⟨first.scope.trans second.scope, first.shards.trans second.shards, ?_⟩, ?_⟩
  · intro shard left right found found'
    obtain ⟨middle, comparable, comparable', later, later'⟩ := between shard left right found found'
    refine ⟨comparable.epoch.trans comparable'.epoch, ?_⟩
    intro same
    -- The cursor between two that are the same is the same, and so are all three stamps.
    have cursor : left.commitIndex = middle.commitIndex := Std.le_antisymm (same ▸ later') later
    obtain rfl := comparable.eq cursor
    exact comparable'.same same
  · intro ⟨shard, left, right, found, found', before⟩
    obtain ⟨middle, -, -, later, later'⟩ := between shard left right found found'
    exact Std.lt_irrefl (Std.lt_of_lt_of_le before (Std.le_trans later' later))

/-- Where a vector is later than one that is not earlier than a third, it is later than the third. -/
theorem Less.trans_of_not_less (first : Aligned a b) (second : Aligned b c) (least : ¬ Less a b)
    (least' : ¬ Less b c) (later : Less b a ∨ Less c b) : Less c a := by
  rcases later with ⟨shard, middle, left, found, found', before⟩ | ⟨shard, right, middle, found, found', before⟩
  · obtain ⟨right, found'', -⟩ := second.get found
    exact ⟨shard, right, left, found'', found', Std.lt_of_le_of_lt (le_of_not_less least' found found'') before⟩
  · obtain ⟨left, found'', -⟩ := first.symm.get found'
    exact ⟨shard, right, left, found, found'', Std.lt_of_lt_of_le before (le_of_not_less least found'' found')⟩

/-! ## The other way -/

theorem compareStamps_swap (saw : Bool × Bool) (left right : ShardReadStamp) :
    compareStamps saw.swap right left = (compareStamps saw left right).map Prod.swap := by
  rw [compareStamps, compareStamps]
  by_cases epoch : left.placementEpoch = right.placementEpoch
  · rcases Std.lt_trichotomy left.commitIndex right.commitIndex with before | same | after
    · simp [epoch, before, Std.not_gt_of_lt before, Except.map]
    · by_cases agree : left.stateDigest = right.stateDigest ∧ left.term = right.term
      · simp [epoch, same, agree, Except.map]
      · have disagree : left.stateDigest ≠ right.stateDigest ∨ left.term ≠ right.term := by
          rwa [ne_eq, ne_eq, ← not_and_or]
        have disagree' := disagree.imp Ne.symm Ne.symm
        simp only [epoch, same, Std.lt_irrefl, disagree, disagree', ne_eq, not_true, if_true, if_false, Except.map]
    · simp [epoch, after, Std.not_gt_of_lt after, Except.map]
  · simp [epoch, Ne.symm epoch, Except.map]

theorem foldlM_compareStamps_swap (saw : Bool × Bool) (pairs : List (ShardReadStamp × ShardReadStamp)) :
    (pairs.map Prod.swap).foldlM (fun saw pair => compareStamps saw pair.1 pair.2) saw.swap =
      (pairs.foldlM (fun saw pair => compareStamps saw pair.1 pair.2) saw).map Prod.swap := by
  induction pairs generalizing saw with
  | nil => rfl
  | cons pair rest ih =>
    simp only [List.map_cons, List.foldlM_cons, Prod.fst_swap, Prod.snd_swap, compareStamps_swap]
    cases compared : compareStamps saw pair.1 pair.2 with
    | error error => rfl
    | ok next => exact ih next

theorem pairs_eq (a b : OrdMap ShardId ShardReadStamp) :
    pairs a b = a.keys.filterMap fun shard => a[shard]?.bind fun left => b[shard]?.map (left, ·) := by
  rw [pairs, ← ExtTreeMap.map_fst_toList_eq_keys, List.filterMap_map]
  refine List.filterMap_congr ?_
  intro entry member
  rw [ExtTreeMap.mem_toList_iff_getElem?_eq_some] at member
  simp [member]

theorem pairs_swap {a b : OrdMap ShardId ShardReadStamp} (same : a.keys = b.keys) :
    pairs b a = (pairs a b).map Prod.swap := by
  rw [pairs_eq, pairs_eq, same, List.map_filterMap]
  congr 1
  funext shard
  cases a[shard]? <;> cases b[shard]? <;> rfl

/-- The relation the other way, errors included. -/
theorem relation_flip (valid : a.validate = .ok ()) (valid' : b.validate = .ok ()) :
    b.relation a = (a.relation b).map VectorRelation.flip := by
  rw [relation, relation, valid, valid']
  simp only [except_ok_bind, compareShards_eq]
  by_cases covered : a.scope = b.scope ∧ a.shards.keys = b.shards.keys
  · rw [if_neg (by simp [covered.1, covered.2]), if_neg (by simp [covered.1, covered.2])]
    change (do
      let saw ← (pairs b.shards a.shards).foldlM _ (Prod.swap (false, false))
      return VectorRelation.ofSaw saw) = (do
        let saw ← (pairs a.shards b.shards).foldlM _ (false, false)
        return VectorRelation.ofSaw saw : Except ClusterError VectorRelation).map VectorRelation.flip
    rw [pairs_swap covered.2, foldlM_compareStamps_swap]
    cases (pairs a.shards b.shards).foldlM (fun saw pair => compareStamps saw pair.1 pair.2) (false, false) with
    | error error => rfl
    | ok saw => obtain ⟨less, greater⟩ := saw; cases less <;> cases greater <;> rfl
  · rw [not_and_or] at covered
    rw [if_pos (covered.imp Ne.symm Ne.symm), if_pos covered]
    rfl

open Classical in
theorem relation_equal_iff (valid : a.validate = .ok ()) (valid' : b.validate = .ok ()) {found : VectorRelation}
    (related : a.relation b = .ok found) : found = .equal ↔ a = b := by
  obtain ⟨aligned, rfl⟩ := (relation_ok valid valid').mp related
  have neither : VectorRelation.ofSaw (decide (Less a b), decide (Less b a)) = .equal ↔ ¬ Less a b ∧ ¬ Less b a := by
    by_cases less : Less a b <;> by_cases greater : Less b a <;> simp [less, greater, VectorRelation.ofSaw]
  rw [neither]
  constructor
  · intro ⟨least, greatest⟩
    exact eq_of_not_less valid valid' aligned least greatest
  · rintro rfl
    exact ⟨not_less_self, not_less_self⟩

/-- A vector that is equal or dominates is aligned with the other, and not earlier at any shard. -/
theorem relation_up_iff (valid : a.validate = .ok ()) (valid' : b.validate = .ok ()) {found : VectorRelation} :
    a.relation b = .ok found ∧ (found = .equal ∨ found = .dominates) ↔
      Aligned a b ∧ ¬ Less a b ∧ (found = .equal ∧ ¬ Less b a ∨ found = .dominates ∧ Less b a) := by
  rw [relation_ok valid valid']
  by_cases less : Less a b <;> by_cases greater : Less b a <;> cases found <;>
    simp [less, greater, VectorRelation.ofSaw]

theorem relation_trans (valid : a.validate = .ok ()) (valid' : b.validate = .ok ()) (valid'' : c.validate = .ok ())
    {first second : VectorRelation} (related : a.relation b = .ok first) (related' : b.relation c = .ok second)
    (up : first = .equal ∨ first = .dominates) (up' : second = .equal ∨ second = .dominates) :
    a.relation c = .ok (if first = .equal ∧ second = .equal then .equal else .dominates) := by
  obtain ⟨aligned, least, strict⟩ := (relation_up_iff valid valid').mp ⟨related, up⟩
  obtain ⟨aligned', least', strict'⟩ := (relation_up_iff valid' valid'').mp ⟨related', up'⟩
  obtain ⟨across, lowest⟩ := aligned.trans aligned' least least'
  by_cases same : first = .equal ∧ second = .equal
  · obtain rfl := (relation_equal_iff valid valid' related).mp same.1
    rw [if_pos same, related', same.2]
  · have later : Less b a ∨ Less c b := by
      rcases strict with ⟨equal, -⟩ | ⟨-, later⟩
      · rcases strict' with ⟨equal', -⟩ | ⟨-, later⟩
        · exact absurd ⟨equal, equal'⟩ same
        · exact .inr later
      · exact .inl later
    have above := Less.trans_of_not_less aligned aligned' least least' later
    rw [if_neg same]
    exact ((relation_up_iff valid valid'').mpr ⟨across, lowest, .inr ⟨rfl, above⟩⟩).1

/-- On valid vectors the relation is a partial order: the same vector is equal, what dominates is
dominated the other way, what is concurrent or may not be compared is so both ways, and dominance
composes. -/
theorem relation_partial_order (a b c : SnapshotVector) (valid : a.validate = .ok ()) (valid' : b.validate = .ok ())
    (valid'' : c.validate = .ok ()) :
    (∀ found, a.relation b = .ok found → (found = .equal ↔ a = b)) ∧
      (a.relation b = .ok .dominates ↔ b.relation a = .ok .dominated) ∧
      (a.relation b = .ok .concurrent ↔ b.relation a = .ok .concurrent) ∧
      (∀ error, a.relation b = .error error ↔ b.relation a = .error error) ∧
      ∀ first second, a.relation b = .ok first → b.relation c = .ok second →
        first = .equal ∨ first = .dominates → second = .equal ∨ second = .dominates →
          a.relation c = .ok (if first = .equal ∧ second = .equal then .equal else .dominates) := by
  refine ⟨fun found related => relation_equal_iff valid valid' related, ?_, ?_, ?_,
    fun first second related related' up up' => relation_trans valid valid' valid'' related related' up up'⟩
  · rw [relation_flip valid valid']
    rcases a.relation b with error | (_ | _ | _ | _) <;> simp [Except.map, VectorRelation.flip]
  · rw [relation_flip valid valid']
    rcases a.relation b with error | (_ | _ | _ | _) <;> simp [Except.map, VectorRelation.flip]
  · intro error
    rw [relation_flip valid valid']
    rcases a.relation b with error | found <;> simp [Except.map]

/-- A vector of two shards with one cursor each. -/
def sample (first second : UInt64) (digest : Char) : SnapshotVector :=
  { contractVersion := 1
    scope := "tenant/project"
    shards := (OrdMap.insertAll Prod.fst ∅
      [(⟨1⟩, ⟨1, first, 1, String.ofList (List.replicate 64 digest)⟩),
        (⟨2⟩, ⟨1, second, 1, String.ofList (List.replicate 64 digest)⟩)]).map fun _ entry => entry.2 }

/-- Three vectors each of which dominates the next. -/
theorem relation_partial_order_sample : (sample 7 9 'c').relation (sample 4 5 'a') = .ok .dominates :=
  (relation_partial_order (sample 7 9 'c') (sample 5 8 'b') (sample 4 5 'a') (by decide +kernel) (by decide +kernel)
    (by decide +kernel)).2.2.2.2 .dominates .dominates (by decide +kernel) (by decide +kernel) (.inr rfl) (.inr rfl)

end SnapshotVector

end Vyrm.Cluster.Contract
