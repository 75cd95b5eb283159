import Vyrm.Core.Temporal.Order
import Vyrm.Lib.KeyedFold
import Vyrm.Store.Memory.Assert
import Vyrm.Store.Projection.Quarantine

/-!
# The projection as a fold

Claims arrive in log order. The projection keeps one claim of each pair, by an associative
and idempotent choice between two, and that is the newest version that reads of the pair
return. A stored projection is read back from its JSON, where a confidence that is not a
finite number is `null`.
-/

namespace Vyrm.Store
open Lib Vyrm.Core Serde Std

/-! ## The choice between two claims -/

namespace CurrentProjection

/-- What `apply` keeps of the claim it holds and the next one. -/
def later (existing claim : Claim) : Claim := if older claim existing then existing else claim

/-- The key of a claim's entry. -/
def pair (claim : Claim) : Subject × Predicate := (claim.subject, claim.predicate)

@[simp] theorem older_iff {claim existing : Claim} : older claim existing ↔ existing.Newer claim := by
  simp only [older, Claim.Newer, Bool.or_eq_true, Bool.and_eq_true, decide_eq_true_eq]
  rw [eq_comm]

theorem later_assoc (a b c : Claim) : later (later a b) c = later a (later b c) := by
  unfold later
  by_cases first : older b a
  · by_cases second : older c b
    · have both : older c a := older_iff.mpr ((older_iff.mp first).trans (older_iff.mp second))
      simp [first, second, both]
    · simp [first, second]
  · by_cases second : older c b
    · simp [first, second]
    · have neither : ¬ older c a := by
        intro third
        rcases (older_iff.mp third).split b with newer | newer
        · exact first (older_iff.mpr newer)
        · exact second (older_iff.mpr newer)
      simp [first, second, neither]

instance : Associative later := ⟨later_assoc⟩

instance : IdempotentOp later := ⟨fun claim => by simp [later]⟩

theorem applyOne_eq : applyOne = OrdMap.combine later pair := by
  funext entries claim
  unfold applyOne OrdMap.combine later pair
  cases found : entries[(claim.subject, claim.predicate)]? with
  | none => rfl
  | some existing =>
    by_cases isOlder : older claim existing
    · simp only [isOlder, if_true]
      apply ExtTreeMap.ext_getElem?
      intro k
      by_cases same : (claim.subject, claim.predicate) = k
      · subst same
        rw [OrdMap.getElem?_insert_self, found]
      · rw [OrdMap.getElem?_insert_of_ne same]
    · simp [isOlder]

/-- Two claims that one entry can hold. -/
theorem pair_later {a b : Claim} (same : pair a = pair b) : pair (later a b) = pair b := by
  unfold later
  split
  · exact same
  · rfl

/-- What an entry holds after more claims: what it held, and the claims of its pair. -/
theorem getElem?_apply (projection : CurrentProjection) (claims : List Claim) (k : Subject × Predicate) :
    (projection.apply claims).entries[k]? = Option.merge later projection.entries[k]?
      (reduce later (claims.filter fun claim => pair claim = k)) := by
  rw [apply, applyOne_eq, OrdMap.getElem?_foldl_combine]

theorem apply_append (projection : CurrentProjection) (claims more : List Claim) :
    projection.apply (claims ++ more) = (projection.apply claims).apply more := by
  simp [apply]

theorem apply_again (projection : CurrentProjection) (claims : List Claim) :
    (projection.apply claims).apply claims = projection.apply claims := by
  simp only [apply, applyOne_eq, OrdMap.foldl_combine_again]

theorem foldl_apply (projection : CurrentProjection) (batches : List (List Claim)) :
    batches.foldl apply projection = projection.apply batches.flatten := by
  induction batches generalizing projection with
  | nil => rfl
  | cons batch batches ih => rw [List.foldl_cons, ih, List.flatten_cons, apply_append]

end CurrentProjection

/-! ## The newest version of a pair -/

namespace MemoryClaims

variable {claims claims' : MemoryClaims} {subject : Subject} {predicate : Predicate} {claim : Claim}

/-- A version that no version of the pair is newer than. -/
structure Newest (claims : MemoryClaims) (subject : Subject) (predicate : Predicate) (claim : Claim) :
    Prop where
  version : claims.Version subject predicate claim
  newest : ∀ other, claims.Version subject predicate other → ¬ other.Newer claim

theorem head?_allVersions_eq_some_iff :
    (claims.allVersions subject predicate).head? = some claim ↔ claims.Newest subject predicate claim := by
  have sorted := claims.newestFirst_allVersions subject predicate
  constructor
  · intro isHead
    obtain ⟨rest, whole⟩ := List.head?_eq_some_iff.mp isHead
    refine ⟨mem_allVersions.mp (List.mem_of_head? isHead), ?_⟩
    intro other version newer
    rw [← mem_allVersions, whole] at version
    rw [whole] at sorted
    rcases List.mem_cons.mp version with rfl | older
    · exact Claim.Newer.irrefl _ newer
    · exact Claim.Newer.irrefl _ (newer.trans ((List.pairwise_cons.mp sorted).1 other older))
  · intro newest
    have member := mem_allVersions.mpr newest.version
    cases whole : claims.allVersions subject predicate with
    | nil => simp [whole] at member
    | cons head rest =>
      rw [whole] at member sorted
      rcases List.mem_cons.mp member with rfl | older
      · rfl
      · have isVersion : claims.Version subject predicate head := mem_allVersions.mp (by simp [whole])
        exact absurd ((List.pairwise_cons.mp sorted).1 claim older) (newest.newest head isVersion)

theorem head?_allVersions_eq_none_iff : (claims.allVersions subject predicate).head? = none ↔
    ∀ claim, ¬ claims.Version subject predicate claim := by
  simp only [List.head?_eq_none_iff, List.eq_nil_iff_forall_not_mem, mem_allVersions]

/-- Inserting a claim of another pair keeps the newest version. -/
theorem head?_insert_of_ne (inserted : claims.insert claim = .ok claims')
    (other : CurrentProjection.pair claim ≠ (subject, predicate)) :
    (claims'.allVersions subject predicate).head? = (claims.allVersions subject predicate).head? := by
  have same : ∀ version, claims'.Version subject predicate version ↔
      claims.Version subject predicate version := by
    intro version
    rw [version_insert_iff inserted]
    constructor
    · rintro (⟨-, rfl, rfl⟩ | ⟨version, -⟩)
      · exact absurd rfl other
      · exact version
    · intro version
      refine .inr ⟨version, fun sameKey => other ?_⟩
      obtain ⟨sameSubject, samePredicate, -⟩ := key_inj sameKey
      rw [CurrentProjection.pair, ← sameSubject, ← samePredicate, version.subject, version.predicate]
  apply Option.ext
  intro found
  rw [head?_allVersions_eq_some_iff, head?_allVersions_eq_some_iff]
  constructor
  · intro newest
    exact ⟨(same found).mp newest.version, fun other version => newest.newest other ((same other).mpr version)⟩
  · intro newest
    exact ⟨(same found).mpr newest.version, fun other version => newest.newest other ((same other).mp version)⟩

/-- Inserting a claim makes it the newest of its pair, unless the newest one is newer. -/
theorem head?_insert_self (inserted : claims.insert claim = .ok claims') :
    (claims'.allVersions claim.subject claim.predicate).head? = Option.merge CurrentProjection.later
      (claims.allVersions claim.subject claim.predicate).head? (some claim) := by
  have inserts := fun version => @version_insert_iff claims claim.subject claim.predicate claims' claim version inserted
  have isVersion := (inserts claim).mpr (.inl ⟨rfl, rfl, rfl⟩)
  cases held : (claims.allVersions claim.subject claim.predicate).head? with
  | none =>
    rw [Option.merge_none_left, head?_allVersions_eq_some_iff]
    refine ⟨isVersion, ?_⟩
    intro other version
    rcases (inserts other).mp version with ⟨rfl, -⟩ | ⟨version, -⟩
    · exact Claim.Newer.irrefl _
    · exact absurd version (head?_allVersions_eq_none_iff.mp held other)
  | some existing =>
    have newest := head?_allVersions_eq_some_iff.mp held
    rw [Option.merge_some_some, head?_allVersions_eq_some_iff, CurrentProjection.later]
    split
    · next isOlder =>
      have newer := CurrentProjection.older_iff.mp isOlder
      refine ⟨(inserts existing).mpr (.inr ⟨newest.version, fun sameKey => ?_⟩), ?_⟩
      · obtain ⟨-, -, starts, recorded⟩ := key_inj sameKey
        simp [Claim.Newer, starts, recorded] at newer
      · intro other version
        rcases (inserts other).mp version with ⟨rfl, -⟩ | ⟨version, -⟩
        · exact fun back => Claim.Newer.irrefl _ (newer.trans back)
        · exact newest.newest other version
    · next notOlder =>
      refine ⟨isVersion, ?_⟩
      intro other version newer
      rcases (inserts other).mp version with ⟨rfl, -⟩ | ⟨version, -⟩
      · exact Claim.Newer.irrefl _ newer
      · rcases newer.split existing with newer | newer
        · exact newest.newest other version newer
        · exact notOlder (CurrentProjection.older_iff.mpr newer)

end MemoryClaims

/-! ## The log and the stored claims -/

namespace MemoryEngine

open CurrentProjection

variable {engine : MemoryEngine}

/-- Of the claims of a pair in the log, reads find the newest first. -/
def Folded (engine : MemoryEngine) : Prop :=
  ∀ subject predicate, reduce later (engine.order.filter fun claim => pair claim = (subject, predicate)) =
    (engine.claims.allVersions subject predicate).head?

theorem folded_new : new.Folded := by
  intro subject predicate
  have none : (new.claims.allVersions subject predicate).head? = none := by
    rw [MemoryClaims.head?_allVersions_eq_none_iff]
    intro claim version
    have stored := version.stored
    simp [new, MemoryClaims.new] at stored
  rw [none]
  rfl

theorem Folded.insert {claim : Claim} {claims : MemoryClaims} (folded : engine.Folded)
    (inserted : engine.claims.insert claim = .ok claims) :
    { engine with claims, order := engine.order ++ [claim] }.Folded := by
  intro subject predicate
  rw [List.filter_append]
  by_cases same : pair claim = (subject, predicate)
  · have here := same
    rw [pair, Prod.mk.injEq] at here
    obtain ⟨rfl, rfl⟩ := here
    rw [MemoryClaims.head?_insert_self inserted, ← folded]
    simp only [List.filter_singleton, pair, decide_true]
    exact reduce_concat _ _
  · rw [MemoryClaims.head?_insert_of_ne inserted same, ← folded]
    simp [same]

theorem Folded.insertEach (folded : engine.Folded) (claims : List Claim) :
    (engine.insertEach claims).2.Folded := by
  induction claims generalizing engine with
  | nil => exact folded
  | cons claim claims ih =>
    unfold MemoryEngine.insertEach
    split
    · exact folded
    · next inserted => exact ih (folded.insert inserted)

theorem Folded.appendBatch (folded : engine.Folded) (claims : List Claim) :
    (engine.appendBatch claims).2.Folded := by
  have each := folded.insertEach claims
  unfold MemoryEngine.appendBatch
  split
  · exact folded
  · dsimp only
    split
    · next inserted => rwa [inserted] at each
    · next inserted => rwa [inserted] at each

/-- A commit stores its claims and leaves the others alone. -/
theorem foldl_store_claims (scope : ScopeId) (mutations : List RuntimeMutation) (engine : MemoryEngine) :
    (mutations.foldl (store scope) engine).claims = engine.claims ∧
      (mutations.foldl (store scope) engine).order = engine.order := by
  induction mutations generalizing engine with
  | nil => exact ⟨rfl, rfl⟩
  | cons mutation mutations ih =>
    rw [List.foldl_cons, (ih _).1, (ih _).2]
    cases mutation <;> exact ⟨rfl, rfl⟩

theorem Folded.commitRuntime (folded : engine.Folded) (commit : RuntimeCommit) :
    (engine.commitRuntime commit).2.Folded := by
  have each := folded.insertEach (commitClaims commit)
  unfold MemoryEngine.commitRuntime applyCommit
  split
  · exact folded
  · dsimp only
    split
    · next inserted => rwa [inserted] at each
    · next stored inserted =>
      rw [inserted] at each
      split
      · exact each
      · split
        · exact each
        · intro subject predicate
          obtain ⟨claims, order⟩ := foldl_store_claims commit.scope commit.mutations stored
          simp only [publish, claims, order]
          exact each subject predicate

/-! ### The log only grows -/

theorem insertEach_grows (engine : MemoryEngine) (claims : List Claim) :
    engine.order <+: (engine.insertEach claims).2.order := by
  induction claims generalizing engine with
  | nil => exact List.prefix_refl _
  | cons claim claims ih =>
    unfold MemoryEngine.insertEach
    split
    · exact List.prefix_refl _
    · next stored _ =>
      have grows := ih { engine with claims := stored, order := engine.order ++ [claim] }
      exact (List.prefix_append _ _).trans grows

theorem appendBatch_grows (engine : MemoryEngine) (claims : List Claim) :
    engine.order <+: (engine.appendBatch claims).2.order := by
  have grows := engine.insertEach_grows claims
  unfold MemoryEngine.appendBatch
  split
  · exact List.prefix_refl _
  · dsimp only
    split
    · next inserted => rwa [inserted] at grows
    · next inserted => rwa [inserted] at grows

theorem commitRuntime_grows (engine : MemoryEngine) (commit : RuntimeCommit) :
    engine.order <+: (engine.commitRuntime commit).2.order := by
  have grows := engine.insertEach_grows (commitClaims commit)
  unfold MemoryEngine.commitRuntime applyCommit
  split
  · exact List.prefix_refl _
  · dsimp only
    split
    · next inserted => rwa [inserted] at grows
    · next stored inserted =>
      rw [inserted] at grows
      split
      · exact grows
      · split
        · exact grows
        · rw [publish]
          simpa only [(foldl_store_claims commit.scope commit.mutations stored).2] using grows

/-- What the engine returns of its log from a watermark on. -/
theorem claimsInRange_sequence (short : engine.order.length < 2 ^ 63) (from_ : UInt64) :
    engine.claimsInRange from_ engine.sequence = engine.order.drop from_.toNat := by
  have sequence : engine.sequence.toNat = engine.order.length := by
    rw [MemoryEngine.sequence, UInt64.toNat_ofNat']
    omega
  rw [claimsInRange, sequence, Nat.min_self]
  split
  · next past => rw [List.drop_of_length_le past]
  · rw [List.take_length]

end MemoryEngine

/-! ## What is stored -/

/-- What `serde_json` reads of a claim it wrote: a number that is not finite is written as `null`. -/
def Claim.reread (claim : Claim) : Claim :=
  { claim with confidence := claim.confidence.filter Data.isFinite }

def StoredProjection.reread (stored : StoredProjection) : StoredProjection :=
  { stored with entries := stored.entries.map Claim.reread }

namespace CurrentProjection

theorem later_reread (a b : Claim) : later (Claim.reread a) (Claim.reread b) = Claim.reread (later a b) := by
  have same : older (Claim.reread b) (Claim.reread a) = older b a := rfl
  unfold later
  rw [same]
  split
  · rfl
  · rfl

theorem reread_reread (claim : Claim) : Claim.reread (Claim.reread claim) = Claim.reread claim := by
  cases confidence : claim.confidence <;> simp [Claim.reread, confidence, Option.filter_filter]

/-- What was read back counts as what was written. -/
theorem merge_reread (held next : Option Claim) :
    (Option.merge later (held.map Claim.reread) next).map Claim.reread =
      (Option.merge later held next).map Claim.reread := by
  cases held with
  | none => rfl
  | some existing =>
    cases next with
    | none => simp [reread_reread]
    | some claim =>
      have read := later_reread (Claim.reread existing) claim
      rw [reread_reread] at read
      simp [← read, later_reread]

/-- A projection read back holds what it held, read back. -/
theorem getElem?_fromStored {projection : CurrentProjection}
    (indexed : OrdMap.Indexed pair projection.entries) (k : Subject × Predicate) :
    (fromStored projection.toStored.reread).entries[k]? = projection.entries[k]?.map Claim.reread := by
  have ofPair : (fun claim => decide (pair claim = k)) ∘ Claim.reread = fun claim => decide (pair claim = k) := rfl
  rw [fromStored, getElem?_apply, StoredProjection.reread, toStored, List.filter_map, ofPair,
    reduce_map later_reread, indexed.reduce_values]
  simp

theorem indexed_fromStored (stored : StoredProjection) :
    OrdMap.Indexed pair (fromStored stored).entries := by
  rw [fromStored, apply, applyOne_eq]
  exact (OrdMap.indexed_empty pair).foldl_combine (fun _ _ => pair_later) _

end CurrentProjection

/-! ## Runs -/

/-- The accesses of an operation, one after another over a memory engine (`engine.rs:500-547`). -/
def Program.run {α : Type} (engine : MemoryEngine) : Program α → Option Bytes → Except Error α × Option Bytes
  | .done result, stored => (result, stored)
  | .getProjection next, stored => (next stored).run engine stored
  | .sequence next, stored => (next engine.sequence).run engine stored
  | .claimsInRange from_ to_ next, stored => (next (engine.claimsInRange from_ to_)).run engine stored
  | .putProjection bytes _ next, _ => next.run engine (some bytes)

/-- A memory engine and the projection it stores. -/
structure ProjectedEngine where
  engine : MemoryEngine
  stored : Option Bytes

/-- What happens to it: claims arrive in a batch or in a commit, or the projection is rebuilt. -/
inductive LogEvent where
  | append (claims : List Claim)
  | commit (commit : RuntimeCommit)
  | rebuild

namespace ProjectedEngine

open CurrentProjection

variable [Serde StoredProjection]

def new : ProjectedEngine := { engine := .new, stored := none }

/-- `current_projection`. -/
def current (state : ProjectedEngine) : Except Error CurrentProjection :=
  ((Engine.currentProjection fun projection => .done (.ok projection)).run state.engine state.stored).1

/-- `rebuild_current`. -/
def rebuild (state : ProjectedEngine) : Except Error RebuildOutcome × ProjectedEngine :=
  let (result, stored) := Engine.rebuildCurrent.run state.engine state.stored
  (result, { state with stored })

/-- One event. One that fails leaves what it has changed. -/
def step (state : ProjectedEngine) : LogEvent → ProjectedEngine
  | .append claims => { state with engine := (state.engine.appendBatch claims).2 }
  | .commit commit => { state with engine := (state.engine.commitRuntime commit).2 }
  | .rebuild => state.rebuild.2

def run (events : List LogEvent) : ProjectedEngine := events.foldl step new

/-- The projection that a rebuild writes, of the one it reads. -/
def rewritten (state : ProjectedEngine) (projection : CurrentProjection) : CurrentProjection :=
  { projection.apply (state.engine.claimsInRange projection.watermark state.engine.sequence) with
    watermark := state.engine.sequence }

/-- What a rebuild writes now is read back from its JSON. -/
def RoundTrips (state : ProjectedEngine) : Prop :=
  ∀ projection, state.current = .ok projection →
    fromSlice (toVec (state.rewritten projection).toStored) = .ok (state.rewritten projection).toStored.reread

/-- The log fits in a vector. -/
def Short (state : ProjectedEngine) : Prop := state.engine.order.length < 2 ^ 63

/-- The stored projection is active, and holds the claims up to its watermark as they are read back. -/
structure Inv (state : ProjectedEngine) (projection : CurrentProjection) : Prop where
  folded : state.engine.Folded
  current : state.current = .ok projection
  active : projection.status = .active
  indexed : OrdMap.Indexed pair projection.entries
  behind : projection.watermark.toNat ≤ state.engine.order.length
  entries : ∀ k, projection.entries[k]? = (reduce later
    ((state.engine.order.take projection.watermark.toNat).filter fun claim => pair claim = k)).map Claim.reread

variable {state : ProjectedEngine} {projection : CurrentProjection}

/-- Reading the projection asks the engine for nothing else. -/
theorem current_eq (state : ProjectedEngine) : state.current =
    match state.stored with
    | some bytes => fromStoredBytes bytes
    | none => .ok .empty := by
  unfold current Engine.currentProjection
  rw [Program.run]
  cases state.stored with
  | none => rfl
  | some bytes =>
    dsimp only
    cases fromStoredBytes bytes with
    | error e => rfl
    | ok projection => rfl

theorem rebuild_eq (current : state.current = .ok projection) (active : projection.status = .active) :
    state.rebuild = (.ok ⟨projection.watermark, state.engine.sequence,
        (state.engine.claimsInRange projection.watermark state.engine.sequence).length⟩,
      { state with stored := some (state.rewritten projection).toStoredBytes }) := by
  have tail : (Engine.rebuildCurrent.run state.engine state.stored) =
      (.ok ⟨projection.watermark, state.engine.sequence,
        (state.engine.claimsInRange projection.watermark state.engine.sequence).length⟩,
        some (state.rewritten projection).toStoredBytes) := by
    rw [current_eq] at current
    unfold Engine.rebuildCurrent Engine.currentProjection
    rw [Program.run]
    cases stored : state.stored with
    | none =>
      rw [stored] at current
      cases current
      rfl
    | some bytes =>
      rw [stored] at current
      dsimp only at current ⊢
      rw [current]
      dsimp only
      rw [active]
      rfl
  rw [rebuild, tail]

theorem inv_new : new.Inv .empty where
  folded := MemoryEngine.folded_new
  current := rfl
  active := rfl
  indexed := OrdMap.indexed_empty pair
  behind := Nat.zero_le _
  entries := by simp [CurrentProjection.empty, new, MemoryEngine.new]

/-- Claims that arrive leave what is stored alone. -/
theorem Inv.arrive {engine : MemoryEngine} (inv : state.Inv projection) (folded : engine.Folded)
    (grows : state.engine.order <+: engine.order) : { state with engine }.Inv projection where
  folded := folded
  current := by
    have current := inv.current
    rw [current_eq] at current ⊢
    exact current
  active := inv.active
  indexed := inv.indexed
  behind := inv.behind.trans grows.length_le
  entries := by
    intro k
    obtain ⟨rest, whole⟩ := grows
    rw [inv.entries, ← whole, List.take_append_of_le_length inv.behind]

omit [Serde StoredProjection] in
theorem toNat_sequence (state : ProjectedEngine) (short : state.Short) : state.engine.sequence.toNat = state.engine.order.length := by
  unfold Short at short
  rw [MemoryEngine.sequence, UInt64.toNat_ofNat']
  omega

/-- A rebuild brings the stored projection up to the end of the log. -/
theorem Inv.rebuild (inv : state.Inv projection) (short : state.Short) (roundTrips : state.RoundTrips) :
    ∃ next, state.rebuild.2.Inv next ∧ next.watermark = state.engine.sequence := by
  have length := state.toNat_sequence short
  have indexed : OrdMap.Indexed pair (state.rewritten projection).entries := by
    rw [rewritten, apply, applyOne_eq]
    exact inv.indexed.foldl_combine (fun _ _ => pair_later) _
  rw [rebuild_eq inv.current inv.active]
  refine ⟨fromStored (state.rewritten projection).toStored.reread, ⟨?_, ?_, ?_, ?_, ?_, ?_⟩, rfl⟩
  · exact inv.folded
  · rw [current_eq]
    simp only [fromStoredBytes, toStoredBytes, roundTrips projection inv.current]
    rfl
  · exact inv.active
  · exact indexed_fromStored _
  · exact length.le
  · intro k
    have all : ((fromStored (state.rewritten projection).toStored.reread).watermark).toNat =
        state.engine.order.length := length
    rw [getElem?_fromStored indexed, all, List.take_length]
    simp only [rewritten]
    rw [getElem?_apply, inv.entries, state.engine.claimsInRange_sequence short, merge_reread, ← reduce_append,
      ← List.filter_append, List.take_append_drop]

/-- Once rebuilt, the projection answers with the newest version of a pair, as it is read back. -/
theorem Inv.get_eq {next : CurrentProjection} (inv : state.rebuild.2.Inv next)
    (done : next.watermark = state.engine.sequence) (short : state.Short) (subject : Subject) (predicate : Predicate) :
    next.get subject predicate =
      .ok ((state.engine.claims.allVersions subject predicate).head?.map Claim.reread) := by
  have folded : state.engine.Folded := inv.folded
  have entries := inv.entries (subject, predicate)
  have length := state.toNat_sequence short
  have order : state.rebuild.2.engine.order = state.engine.order := rfl
  rw [done, length, order, List.take_length, folded] at entries
  simp only [CurrentProjection.get, inv.active, entries]

/-! ### What a run keeps -/

theorem run_concat (events : List LogEvent) (event : LogEvent) :
    run (events ++ [event]) = (run events).step event := by
  simp [run]

theorem step_grows (state : ProjectedEngine) (event : LogEvent) :
    state.engine.order <+: (state.step event).engine.order := by
  cases event with
  | append claims => exact state.engine.appendBatch_grows claims
  | commit commit => exact state.engine.commitRuntime_grows commit
  | rebuild => exact List.prefix_refl _

theorem Inv.step {event : LogEvent} (inv : state.Inv projection) (short : (state.step event).Short)
    (roundTrips : event = .rebuild → state.RoundTrips) : ∃ next, (state.step event).Inv next := by
  cases event with
  | append claims => exact ⟨projection, inv.arrive (inv.folded.appendBatch claims) (state.engine.appendBatch_grows claims)⟩
  | commit commit => exact ⟨projection, inv.arrive (inv.folded.commitRuntime commit) (state.engine.commitRuntime_grows commit)⟩
  | rebuild =>
    obtain ⟨next, inv, -⟩ := inv.rebuild short (roundTrips rfl)
    exact ⟨next, inv⟩

/-- What every rebuild of a run writes is read back from its JSON. -/
def Faithful (events : List LogEvent) : Prop :=
  ∀ earlier, earlier ++ [.rebuild] <+: events → (run earlier).RoundTrips

theorem exists_inv {events : List LogEvent} (short : (run events).Short) (faithful : Faithful events) :
    ∃ projection, (run events).Inv projection := by
  induction events using List.reverseRecOn with
  | nil => exact ⟨_, inv_new⟩
  | append_singleton events event ih =>
    rw [run_concat] at short ⊢
    have before : (run events).Short := by
      have grows := ((run events).step_grows event).length_le
      unfold Short at short ⊢
      omega
    obtain ⟨projection, inv⟩ := ih before fun earlier front => faithful earlier (front.trans (List.prefix_append _ _))
    apply inv.step short
    rintro rfl
    exact faithful events (List.prefix_refl _)

/-- A claim without a confidence that JSON loses. -/
def Kept (claim : Claim) : Prop := ∀ confidence ∈ claim.confidence, Data.isFinite confidence

omit [Serde StoredProjection] in
theorem reread_eq_iff {claim : Claim} : Claim.reread claim = claim ↔ Kept claim := by
  have same : Claim.reread claim = claim ↔ claim.confidence.filter Data.isFinite = claim.confidence := by
    constructor
    · intro read
      exact congrArg Claim.confidence read
    · intro kept
      rw [Claim.reread, kept]
  rw [same, Kept]
  cases claim.confidence with
  | none => simp
  | some confidence => simp [Option.filter]

/-- After a rebuild, whatever batches the log arrived in and whatever rebuilds came before, the
projection answers a pair with the newest of its versions exactly when the confidence of that one
is a finite number. Folding claims in again changes nothing, and folding in batch by batch is
folding in all. -/
theorem rebuild_folds_iff {events : List LogEvent} (short : (run events).Short)
    (faithful : Faithful (events ++ [.rebuild])) :
    (∃ outcome, (run events).rebuild.1 = .ok outcome) ∧
    (∃ projection, (run (events ++ [.rebuild])).current = .ok projection ∧ ∀ subject predicate,
      (projection.get subject predicate = .ok ((run events).engine.claims.allVersions subject predicate).head? ↔
        ∀ claim ∈ ((run events).engine.claims.allVersions subject predicate).head?, Kept claim)) ∧
    (∀ (projection : CurrentProjection) claims, (projection.apply claims).apply claims = projection.apply claims) ∧
    ∀ (projection : CurrentProjection) (batches : List (List Claim)),
      batches.foldl apply projection = projection.apply batches.flatten := by
  obtain ⟨projection, inv⟩ := exists_inv short fun earlier front => faithful earlier (front.trans (List.prefix_append _ _))
  refine ⟨?_, ?_, apply_again, foldl_apply⟩
  · rw [rebuild_eq inv.current inv.active]
    exact ⟨_, rfl⟩
  · obtain ⟨next, inv, done⟩ := inv.rebuild short (faithful events (List.prefix_refl _))
    refine ⟨next, ?_, ?_⟩
    · rw [run_concat]
      exact inv.current
    · intro subject predicate
      rw [inv.get_eq done short]
      cases ((run events).engine.claims.allVersions subject predicate).head? with
      | none => simp
      | some claim => simp [reread_eq_iff]

end ProjectedEngine

/-! ## A door, and how sure the sensor is of it -/

section

open ProjectedEngine

def sureDoor (confidence : Option F32) : Claim := { door "open" with confidence }

/-- A number beyond the range of `f32` is read as an infinite one. -/
def infinite : F32 := 0x7f800000

/-- The projection of the claim, as a rebuild writes it. -/
def sureProjection (confidence : Option F32) : CurrentProjection :=
  { CurrentProjection.empty.apply [sureDoor confidence] with watermark := 1 }

/-- A projection whose confidence is `null` in JSON. -/
@[reducible] def sureSerde : Serde StoredProjection := .ofTexts plainProjection [(sureProjection none).toStored]

/-- The claim arrives, and the projection is rebuilt. -/
def sureRun (confidence : Option F32) : List LogEvent := [.append [sureDoor confidence], .rebuild]

theorem faithful_sureRun {confidence : Option F32} (json : let _ := sureSerde
    fromSlice (toVec (rewritten (run [.append [sureDoor confidence]]) .empty).toStored) =
      .ok (rewritten (run [.append [sureDoor confidence]]) .empty).toStored.reread) :
    let _ := sureSerde; Faithful (sureRun confidence) := by
  intro _ earlier front projection current
  match earlier with
  | [] => simp [sureRun] at front
  | [first] =>
    simp only [sureRun, List.cons_append, List.nil_append, List.cons_prefix_cons, List.prefix_refl, and_true] at front
    subst front
    cases current
    exact json
  | first :: second :: rest =>
    have short := front.length_le
    simp [sureRun] at short

/-- The rebuild loses an infinite confidence. -/
theorem rebuild_drops_infinite : let _ := sureSerde
    Faithful (sureRun (some infinite)) ∧
    ∃ projection, (run (sureRun (some infinite))).current = .ok projection ∧
      projection.get (door "open").subject (door "open").predicate = .ok (some (sureDoor none)) ∧
      ((run (sureRun (some infinite))).engine.claims.allVersions (door "open").subject
        (door "open").predicate).head? = some (sureDoor (some infinite)) := by
  let _ := sureSerde
  refine ⟨faithful_sureRun (by decide +kernel), ?_⟩
  refine ⟨CurrentProjection.fromStored (sureProjection none).toStored, ?_, ?_, ?_⟩
  · have stored : (run (sureRun (some infinite))).stored = some (sureProjection none).toStoredBytes := by
      decide +kernel
    rw [current_eq, stored]
    have read : fromSlice (toVec (sureProjection none).toStored) = .ok (sureProjection none).toStored := by
      decide +kernel
    simp only [CurrentProjection.fromStoredBytes, CurrentProjection.toStoredBytes, read]
    rfl
  · decide +kernel
  · decide +kernel

theorem rebuild_folds_iff_door : let _ := sureSerde
    ∃ projection, (run (sureRun none)).current = .ok projection ∧
      projection.get (door "open").subject (door "open").predicate = .ok (some (sureDoor none)) := by
  let _ := sureSerde
  have short : (run [.append [sureDoor none]]).Short := by
    unfold Short
    decide +kernel
  have faithful : Faithful (sureRun none) := faithful_sureRun (by decide +kernel)
  have newest : ((run [.append [sureDoor none]]).engine.claims.allVersions (door "open").subject
      (door "open").predicate).head? = some (sureDoor none) := by
    decide +kernel
  obtain ⟨-, ⟨projection, current, answers⟩, -, -⟩ := rebuild_folds_iff short faithful
  refine ⟨projection, current, ?_⟩
  rw [← newest]
  apply (answers _ _).mpr
  rw [newest]
  intro claim isDoor
  cases isDoor
  simp [Kept, sureDoor]

end

end Vyrm.Store
