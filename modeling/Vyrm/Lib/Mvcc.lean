import Mathlib.Data.List.Basic
import Mathlib.Data.List.Pairwise
import Mathlib.Data.List.Perm.Basic
import Mathlib.Order.Lattice

/-!
# Multi-version reads

A store that keeps several versions of a key answers a read at a snapshot with
the newest version that is not newer than the snapshot. The versions may lie in
several places that are searched one after another, the earlier place winning
when two versions carry the same sequence. `select` is that answer for the
versions of one key, in the order they are searched, and the lemmas below say
how it distributes over places and when the order of the places is irrelevant.
-/

namespace Vyrm.Lib.Mvcc

/-- Versions that carry a sequence number. -/
class Sequenced (V : Type) where
  sequence : V → Nat

variable {K V : Type} [Sequenced V]

/-- The newer of two answers, the first when they are equally new. -/
def keep : Option V → Option V → Option V
  | best, none => best
  | none, some v => some v
  | some b, some v => if Sequenced.sequence b < Sequenced.sequence v then some v else some b

@[simp] theorem keep_none (best : Option V) : keep best none = best := by
  cases best <;> rfl

@[simp] theorem none_keep (v : Option V) : keep none v = v := by
  cases v <;> rfl

theorem keep_assoc (a b c : Option V) : keep (keep a b) c = keep a (keep b c) := by
  cases a with
  | none => rw [none_keep, none_keep]
  | some a =>
    cases b with
    | none => rw [keep_none, none_keep]
    | some b =>
      cases c with
      | none => rw [keep_none, keep_none]
      | some c => grind [keep]

/-- The newest version at or below `snapshot`, the first of equally new ones. -/
def select (snapshot : Nat) : List V → Option V
  | [] => none
  | v :: rest => keep (if Sequenced.sequence v ≤ snapshot then some v else none) (select snapshot rest)

theorem select_append (snapshot : Nat) (xs ys : List V) :
    select snapshot (xs ++ ys) = keep (select snapshot xs) (select snapshot ys) := by
  induction xs with
  | nil => simp [select]
  | cons v rest ih => simp only [List.cons_append, select, ih, keep_assoc]

/-- A version that an answer can be: it is there, and none that can be read is newer. -/
structure IsNewest (snapshot : Nat) (versions : List V) (v : V) : Prop where
  mem : v ∈ versions
  visible : Sequenced.sequence v ≤ snapshot
  newest : ∀ u ∈ versions, Sequenced.sequence u ≤ snapshot → Sequenced.sequence u ≤ Sequenced.sequence v

theorem select_eq_none_iff {snapshot : Nat} {versions : List V} :
    select snapshot versions = none ↔ ∀ v ∈ versions, ¬ Sequenced.sequence v ≤ snapshot := by
  induction versions with
  | nil => simp [select]
  | cons v rest ih =>
    rw [select]
    by_cases visible : Sequenced.sequence v ≤ snapshot
    · constructor
      · intro h
        rw [if_pos visible] at h
        cases other : select snapshot rest <;> rw [other] at h <;> simp only [keep] at h
        · cases h
        · split at h <;> cases h
      · intro h
        exact absurd visible (h v List.mem_cons_self)
    · rw [if_neg visible, none_keep, ih, List.forall_mem_cons]
      exact ⟨fun h => ⟨visible, h⟩, fun h => h.2⟩

theorem select_isNewest {snapshot : Nat} {versions : List V} {v : V}
    (h : select snapshot versions = some v) : IsNewest snapshot versions v := by
  induction versions generalizing v with
  | nil => cases h
  | cons head rest ih =>
    rw [select] at h
    by_cases visible : Sequenced.sequence head ≤ snapshot
    · rw [if_pos visible] at h
      cases other : select snapshot rest with
      | none =>
        rw [other, keep_none] at h
        cases h
        refine ⟨List.mem_cons_self, visible, ?_⟩
        intro u member readable
        rcases List.mem_cons.mp member with rfl | member
        · exact Nat.le_refl _
        · exact absurd readable (select_eq_none_iff.mp other u member)
      | some best =>
        obtain ⟨mem, below, newest⟩ := ih other
        rw [other] at h
        simp only [keep] at h
        split at h <;> rename_i newer <;> cases h
        · refine ⟨List.mem_cons_of_mem _ mem, below, ?_⟩
          intro u member readable
          rcases List.mem_cons.mp member with rfl | member
          · exact Nat.le_of_lt newer
          · exact newest u member readable
        · refine ⟨List.mem_cons_self, visible, ?_⟩
          intro u member readable
          rcases List.mem_cons.mp member with rfl | member
          · exact Nat.le_refl _
          · exact Nat.le_trans (newest u member readable) (Nat.not_lt.mp newer)
    · rw [if_neg visible, none_keep] at h
      obtain ⟨mem, below, newest⟩ := ih h
      refine ⟨List.mem_cons_of_mem _ mem, below, ?_⟩
      intro u member readable
      rcases List.mem_cons.mp member with rfl | member
      · exact absurd readable visible
      · exact newest u member readable

/-- No two versions share a sequence. -/
def Agree (versions : List V) : Prop :=
  ∀ u ∈ versions, ∀ v ∈ versions, Sequenced.sequence u = Sequenced.sequence v → u = v

theorem select_eq_some_iff {snapshot : Nat} {versions : List V} {v : V}
    (agree : Agree versions) :
    select snapshot versions = some v ↔ IsNewest snapshot versions v := by
  constructor
  · exact select_isNewest
  · intro ⟨mem, visible, newest⟩
    cases answer : select snapshot versions with
    | none => exact absurd visible (select_eq_none_iff.mp answer v mem)
    | some u =>
      have isNewest := select_isNewest answer
      have same : u = v := agree u isNewest.mem v mem
        (Nat.le_antisymm (newest u isNewest.mem isNewest.visible)
          (isNewest.newest v mem visible))
      rw [same]

/-- Where versions agree, only which versions there are matters, not where they lie. -/
theorem select_congr {snapshot : Nat} {xs ys : List V} (agree : Agree xs)
    (same : ∀ v, v ∈ xs ↔ v ∈ ys) : select snapshot xs = select snapshot ys := by
  have agree' : Agree ys := fun u hu v hv =>
    agree u ((same u).mpr hu) v ((same v).mpr hv)
  apply Option.ext
  intro v
  rw [select_eq_some_iff agree, select_eq_some_iff agree']
  constructor
  · intro ⟨mem, visible, newest⟩
    exact ⟨(same v).mp mem, visible, fun u hu => newest u ((same u).mpr hu)⟩
  · intro ⟨mem, visible, newest⟩
    exact ⟨(same v).mpr mem, visible, fun u hu => newest u ((same u).mp hu)⟩

/-- A place all of whose versions are newer than those of another is authoritative wherever it
is searched. -/
theorem keep_comm_of_newer {snapshot : Nat} {xs ys : List V}
    (newer : ∀ u ∈ xs, ∀ v ∈ ys, Sequenced.sequence u < Sequenced.sequence v) :
    keep (select snapshot xs) (select snapshot ys) =
      keep (select snapshot ys) (select snapshot xs) := by
  cases hx : select snapshot xs with
  | none => simp
  | some u =>
    cases hy : select snapshot ys with
    | none => simp
    | some v =>
      have less := newer u (select_isNewest hx).mem v (select_isNewest hy).mem
      simp only [keep, if_pos less, if_neg (Nat.lt_asymm less)]

theorem keep_eq_of_newer {snapshot : Nat} {xs ys : List V} {v : V}
    (newer : ∀ u ∈ xs, ∀ v ∈ ys, Sequenced.sequence u < Sequenced.sequence v)
    (found : select snapshot ys = some v) :
    keep (select snapshot xs) (select snapshot ys) = some v := by
  rw [found]
  cases hx : select snapshot xs with
  | none => rfl
  | some u =>
    have less := newer u (select_isNewest hx).mem v (select_isNewest found).mem
    simp only [keep, if_pos less]

/-- Versions in increasing order: the answer is the last one that can be read. -/
theorem select_of_pairwise {snapshot : Nat} {versions : List V}
    (increasing : versions.Pairwise fun u v => Sequenced.sequence u < Sequenced.sequence v) :
    select snapshot versions = (versions.filter fun v => Sequenced.sequence v ≤ snapshot).getLast? := by
  induction versions with
  | nil => rfl
  | cons v rest ih =>
    obtain ⟨below, increasing⟩ := List.pairwise_cons.mp increasing
    rw [select, List.filter_cons, ih increasing]
    by_cases visible : Sequenced.sequence v ≤ snapshot
    · simp only [visible, if_true, decide_true, List.getLast?_cons]
      cases last : (rest.filter fun v => Sequenced.sequence v ≤ snapshot).getLast? with
      | none => simp
      | some u =>
        have member : u ∈ rest := (List.mem_filter.mp (List.mem_of_getLast? last)).1
        simp [keep, below u member]
    · simp [visible]

theorem agree_of_pairwise {versions : List V}
    (increasing : versions.Pairwise fun u v => Sequenced.sequence u < Sequenced.sequence v) : Agree versions := by
  induction versions with
  | nil => intro u hu; cases hu
  | cons head rest ih =>
    obtain ⟨below, increasing⟩ := List.pairwise_cons.mp increasing
    intro u hu v hv same
    rcases List.mem_cons.mp hu with first | later
    · rcases List.mem_cons.mp hv with first' | later'
      · rw [first, first']
      · exact absurd same (Nat.ne_of_lt (first ▸ below v later'))
    · rcases List.mem_cons.mp hv with first' | later'
      · exact absurd same.symm (Nat.ne_of_lt (first' ▸ below u later))
      · exact ih increasing u later v later' same

/-! ## Keyed versions -/

variable [DecidableEq K]

/-- The versions of one key, in the order they are listed. -/
def versionsOf (key : K) (entries : List (K × V)) : List V :=
  (entries.filter fun entry => entry.1 = key).map Prod.snd

/-- The answer to a read of `key` at `snapshot`. -/
def newest (entries : List (K × V)) (key : K) (snapshot : Nat) : Option V :=
  select snapshot (versionsOf key entries)

omit [Sequenced V] in
@[simp] theorem mem_versionsOf {key : K} {entries : List (K × V)} {v : V} :
    v ∈ versionsOf key entries ↔ (key, v) ∈ entries := by
  simp [versionsOf]

omit [Sequenced V] in
@[simp] theorem versionsOf_append (key : K) (xs ys : List (K × V)) :
    versionsOf key (xs ++ ys) = versionsOf key xs ++ versionsOf key ys := by
  simp [versionsOf]

theorem newest_append (xs ys : List (K × V)) (key : K) (snapshot : Nat) :
    newest (xs ++ ys) key snapshot = keep (newest xs key snapshot) (newest ys key snapshot) := by
  rw [newest, versionsOf_append, select_append]
  rfl

omit [Sequenced V] in
/-- Dropping entries of other keys does not touch the versions of a key. -/
theorem versionsOf_filter {key : K} {entries : List (K × V)} {p : K × V → Bool}
    (passes : ∀ v, p (key, v) = true) :
    versionsOf key (entries.filter p) = versionsOf key entries := by
  unfold versionsOf
  rw [List.filter_filter]
  congr 1
  apply List.filter_congr
  rintro ⟨k, v⟩ -
  by_cases same : k = key
  · subst same
    simp [passes]
  · simp [same]

/-! ## Retention -/

/-- `kept` has of every key the versions that some protected snapshot reads, if one of them is
live; the other versions and keys are gone. -/
def Retains (isProtected : Nat → Prop) (live : V → Prop) (entries kept : List (K × V)) : Prop :=
  ∀ key v, (key, v) ∈ kept ↔ (∃ s, isProtected s ∧ newest entries key s = some v) ∧
    ∃ s u, isProtected s ∧ newest entries key s = some u ∧ live u

section Retains

variable {isProtected : Nat → Prop} {live : V → Prop} {entries kept : List (K × V)} {key : K}
  {s : Nat}

theorem Retains.mem (retains : Retains isProtected live entries kept) {v : V}
    (member : (key, v) ∈ kept) : (key, v) ∈ entries := by
  obtain ⟨⟨s, -, found⟩, -⟩ := (retains key v).mp member
  exact mem_versionsOf.mp (select_isNewest found).mem

theorem Retains.agree (retains : Retains isProtected live entries kept)
    (agree : Agree (versionsOf key entries)) : Agree (versionsOf key kept) := by
  intro u hu v hv
  exact agree u (mem_versionsOf.mpr (retains.mem (mem_versionsOf.mp hu)))
    v (mem_versionsOf.mpr (retains.mem (mem_versionsOf.mp hv)))

/-- A protected read finds what it found before, or finds nothing where nothing live was. -/
theorem Retains.newest (retains : Retains isProtected live entries kept)
    (agree : Agree (versionsOf key entries)) (protected_ : isProtected s) :
    newest kept key s = newest entries key s ∨
      newest kept key s = none ∧ ∀ u, newest entries key s = some u → ¬ live u := by
  by_cases someLive : ∃ s u, isProtected s ∧ Mvcc.newest entries key s = some u ∧ live u
  · left
    cases found : Mvcc.newest entries key s with
    | none =>
      apply select_eq_none_iff.mpr
      intro v member
      exact select_eq_none_iff.mp found v
        (mem_versionsOf.mpr (retains.mem (mem_versionsOf.mp member)))
    | some v =>
      obtain ⟨-, visible, latest⟩ := select_isNewest found
      apply (select_eq_some_iff (retains.agree agree)).mpr
      refine ⟨mem_versionsOf.mpr ((retains key v).mpr ⟨⟨s, protected_, found⟩, someLive⟩), visible, ?_⟩
      intro u member
      exact latest u (mem_versionsOf.mpr (retains.mem (mem_versionsOf.mp member)))
  · right
    constructor
    · apply select_eq_none_iff.mpr
      intro v member
      exact absurd ((retains key v).mp (mem_versionsOf.mp member)).2 someLive
    · exact fun u found alive => someLive ⟨s, u, protected_, found, alive⟩

end Retains

/-! ## Range reads -/

/-- A list of pairs in strict key order that is the graph of `answer`: what a range read has to
return when `answer` is what point reads return. -/
structure IsGraph {K A : Type} [LT K] (pairs : List (K × A)) (answer : K → Option A) : Prop where
  sorted : pairs.Pairwise fun a b => a.1 < b.1
  mem : ∀ k a, (k, a) ∈ pairs ↔ answer k = some a

theorem IsGraph.unique {K A : Type} [LinearOrder K] {xs ys : List (K × A)} {answer : K → Option A}
    (hx : IsGraph xs answer) (hy : IsGraph ys answer) : xs = ys := by
  have nodup : ∀ {zs : List (K × A)}, IsGraph zs answer → zs.Nodup := fun h =>
    h.sorted.imp fun less same => absurd (congrArg Prod.fst same) (ne_of_lt less)
  have perm : xs.Perm ys := by
    apply (List.perm_ext_iff_of_nodup (nodup hx) (nodup hy)).mpr
    rintro ⟨k, a⟩
    rw [hx.mem, hy.mem]
  apply List.Perm.eq_of_pairwise _ hx.sorted hy.sorted perm
  intro a b _ _ less less'
  exact absurd less' (lt_asymm less)

/-- A list that goes on above all keys of a range read. -/
theorem IsGraph.append {K A : Type} [LT K] {xs ys : List (K × A)} {answer later : K → Option A}
    (h : IsGraph xs answer) (sorted : ys.Pairwise fun a b => a.1 < b.1)
    (above : ∀ x ∈ xs, ∀ y ∈ ys, x.1 < y.1)
    (adds : ∀ k a, later k = some a ↔ answer k = some a ∨ (k, a) ∈ ys) : IsGraph (xs ++ ys) later := by
  constructor
  · exact List.pairwise_append.mpr ⟨h.sorted, sorted, above⟩
  · intro k a
    rw [List.mem_append, h.mem, adds]

/-- Restricting a range read to the keys of a test. -/
theorem IsGraph.filter {K A : Type} [LT K] {pairs : List (K × A)} {answer : K → Option A}
    (h : IsGraph pairs answer) (test : K → Bool) :
    IsGraph (pairs.filter fun pair => test pair.1)
      (fun k => if test k then answer k else none) := by
  constructor
  · exact h.sorted.filter _
  · intro k a
    rw [List.mem_filter, h.mem]
    by_cases passes : test k = true
    · simp [passes]
    · simp [passes]

/-- Dropping and converting answers pointwise. -/
theorem IsGraph.filterMap {K A B : Type} [LT K] {pairs : List (K × A)} {answer : K → Option A}
    (h : IsGraph pairs answer) (f : A → Option B) :
    IsGraph (pairs.filterMap fun (k, a) => (f a).map fun b => (k, b))
      (fun k => (answer k).bind f) := by
  constructor
  · apply h.sorted.filterMap
    intro a a' less b hb b' hb'
    obtain ⟨_, _, rfl⟩ := Option.map_eq_some_iff.mp hb
    obtain ⟨_, _, rfl⟩ := Option.map_eq_some_iff.mp hb'
    exact less
  · intro k b
    rw [List.mem_filterMap]
    constructor
    · rintro ⟨⟨k', a⟩, member, made⟩
      obtain ⟨b', fb, same⟩ := Option.map_eq_some_iff.mp made
      cases same
      rw [(h.mem k a).mp member]
      exact fb
    · intro found
      obtain ⟨a, answered, fb⟩ := Option.bind_eq_some_iff.mp found
      exact ⟨(k, a), (h.mem k a).mpr answered, by simp [fb]⟩

end Vyrm.Lib.Mvcc
