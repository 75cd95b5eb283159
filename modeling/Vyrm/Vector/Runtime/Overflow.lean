import Vyrm.Vector.Reference
import Vyrm.Vector.Runtime.InStep

/-!
# The last revision

A publication at the last revision is refused after it has entered the catalog, so the entry it
leaves behind has no artifact. The last revision is reached by publishing one generation after
another.
-/

namespace Vyrm.Vector
open Lib Vyrm.Core Std

section

variable [SegmentEncoding] [HnswEncoding] {runtime : VectorRuntime}

theorem afterCalls_append (calls more : List RuntimeCall) :
    afterCalls runtime (calls ++ more) = afterCalls (afterCalls runtime calls) more := List.foldl_append

theorem published_append (calls more : List RuntimeCall) :
    published runtime (calls ++ more) = published runtime calls ++ published (afterCalls runtime calls) more := by
  induction calls generalizing runtime with
  | nil => rfl
  | cons call rest ih =>
    rw [List.cons_append, published, published, ih, List.append_assoc]
    rfl

theorem neverOverflows_append {calls more : List RuntimeCall} :
    NeverOverflows runtime (calls ++ more) ↔
      NeverOverflows runtime calls ∧ NeverOverflows (afterCalls runtime calls) more := by
  induction calls generalizing runtime with
  | nil => simp [NeverOverflows, afterCalls]
  | cons call rest ih =>
    rw [List.cons_append, NeverOverflows, NeverOverflows, ih, and_assoc]
    rfl

/-- What a publication that overflows leaves behind is an entry without an artifact. -/
theorem out_of_step_of_overflows {expectedRevision : UInt64} {artifact : VectorArtifact}
    (overflows : (RuntimeCall.publish expectedRevision artifact).Overflows runtime) :
    ((RuntimeCall.publish expectedRevision artifact).run runtime).2.catalog.entries[artifact.descriptor.stamp.id]? =
        some artifact.descriptor ∧
      artifact.descriptor.key ∉ ((RuntimeCall.publish expectedRevision artifact).run runtime).2.artifacts := by
  obtain ⟨last, fresh, checked⟩ := overflows
  simp only [RuntimeCall.run, VectorRuntime.publish_last fresh checked last]
  exact ⟨OrdMap.getElem?_insert_self _ _ _, fresh⟩

end

/-! ## Reaching it -/

open Reference

/-- The first generations of one identity, one after another. -/
def generations (count : Nat) : List RuntimeCall :=
  (List.range count).map fun i => .publish (UInt64.ofNat i) (segment vectorId (i + 1) (Nat.succ_ne_zero i))

/-- A number of revisions is used up, and another identity is published at the last revision. -/
def exhausting (count : Nat) : List RuntimeCall :=
  generations count ++ [.publish lastRevision (segment otherId 1 Nat.one_ne_zero)]

/-- The runtime without candidates. -/
def emptyRuntime : VectorRuntime := ⟨[], .empty, ∅⟩

theorem artifacts_generations (count : Nat) : (generations count).filterMap RuntimeCall.artifact =
    (List.range count).map fun i => segment vectorId (i + 1) (Nat.succ_ne_zero i) := by
  rw [generations, List.filterMap_map]
  exact congrFun List.filterMap_eq_map _

theorem digest_segment (id : ProjectionId) {generation : Nat} (positive : generation ≠ 0) :
    (segment id generation positive).descriptor.stamp.artifactDigest = spell (digitOf id) generation := rfl

theorem collisionFree_generations {count : Nat} (small : count < 2 ^ 64) :
    CollisionFree ((generations count).filterMap RuntimeCall.artifact) := by
  rw [artifacts_generations]
  intro a memA b memB same
  obtain ⟨i, inside, rfl⟩ := List.mem_map.mp memA
  obtain ⟨j, insideJ, rfl⟩ := List.mem_map.mp memB
  rw [List.mem_range] at inside insideJ
  rw [digest_segment, digest_segment] at same
  have equal : i + 1 = j + 1 := spell_inj (by decide) (by omega) (by omega) same
  cases equal
  rfl

theorem validate_segment (id : ProjectionId) {generation : Nat} (positive : generation ≠ 0) :
    (segment id generation positive).descriptor.validate = .ok () := by
  obtain ⟨⟨⟩, -, checked⟩ := except_bind_ok.mp (check_emptyBody id positive)
  obtain ⟨⟨⟩, validates, -⟩ := except_bind_ok.mp checked
  exact validates

/-- What the catalog names when some generations have been published. -/
theorem checkSuccessor_segment {runtime : VectorRuntime} {count : Nat} (small : count + 1 < 2 ^ 64)
    (inStep : InStep ((List.range count).map fun i => segment vectorId (i + 1) (Nat.succ_ne_zero i)) runtime) :
    VectorCatalog.checkSuccessor runtime.catalog.entries[vectorId]?
        (segment vectorId (count + 1) (Nat.succ_ne_zero count)).descriptor = .ok () ∧
      (segment vectorId (count + 1) (Nat.succ_ne_zero count)).descriptor.key ∉ runtime.artifacts := by
  have all : versions ((List.range count).map fun i => segment vectorId (i + 1) (Nat.succ_ne_zero i)) vectorId =
      (List.range count).map fun i => segment vectorId (i + 1) (Nat.succ_ne_zero i) := by
    rw [versions, List.filter_eq_self]
    intro a member
    obtain ⟨i, -, rfl⟩ := List.mem_map.mp member
    rfl
  have generationOf : ∀ d, runtime.catalog.entries[vectorId]? = some d → d.kind = .exactSegment ∧
      d.stamp.generation = count ∧ d.stamp.sourceCursor = 1 := by
    intro d entry
    obtain ⟨a, last, same, -⟩ := inStep.entries vectorId d entry
    have counted := inStep.entry_generation last
    rw [all, List.length_map, List.length_range] at counted
    obtain ⟨i, -, rfl⟩ := List.mem_map.mp (mem_versions.mp (List.mem_of_getLast? last)).1
    rcases same with rfl | rfl
    · exact ⟨rfl, counted, rfl⟩
    · exact ⟨rfl, counted, rfl⟩
  refine ⟨?_, ?_⟩
  · cases entry : runtime.catalog.entries[vectorId]? with
    | none =>
      have empty := inStep.absent vectorId entry
      rw [all, List.map_eq_nil_iff, List.range_eq_nil] at empty
      subst empty
      rfl
    | some d =>
      obtain ⟨kind, generation, cursor⟩ := generationOf d entry
      unfold VectorCatalog.checkSuccessor
      dsimp only
      rw [if_neg, if_neg, if_neg]
      · rw [cursor]
        exact UInt64.lt_irrefl 1
      · rw [generation, nextGeneration, not_not]
        show count + 1 = _
        omega
      · rw [not_not, VectorProjectionDescriptor.sameKind, decide_eq_true_iff, kind]
        rfl
  · intro present
    obtain ⟨a, installed⟩ := Option.isSome_iff_exists.mp (ExtTreeMap.mem_iff_isSome_getElem?.mp present)
    obtain ⟨-, ⟨d, entry, isKey⟩ | ⟨d, retired, isKey⟩⟩ := inStep.installed _ a installed
    · have generation := (generationOf d entry).2.1
      have same : d.stamp.generation = count + 1 := congrArg GenerationKey.generation isKey
      omega
    · obtain ⟨e, entry, earlier⟩ := inStep.older d retired
      have ids : d.stamp.id = vectorId := congrArg GenerationKey.id isKey
      have same : d.stamp.generation = count + 1 := congrArg GenerationKey.generation isKey
      rw [ids] at entry
      have generation := (generationOf e entry).2.1
      omega

/-- The checks of the catalog on a segment. -/
theorem checkPublish_segment {catalog : VectorCatalog} {id : ProjectionId} {generation : Nat}
    (positive : generation ≠ 0) (named : id ≠ exactScanProjectionId)
    (successor : VectorCatalog.checkSuccessor catalog.entries[id]? (segment id generation positive).descriptor = .ok ()) :
    catalog.checkPublish catalog.revision (segment id generation positive).descriptor = .ok () := by
  unfold VectorCatalog.checkPublish VectorCatalog.expectRevision
  rw [if_neg (not_not.mpr rfl), except_ok_bind, validate_segment, except_ok_bind]
  have ready : (segment id generation positive).descriptor.stamp.state = .ready := rfl
  rw [if_neg (show (segment id generation positive).descriptor.stamp.id ≠ _ from named),
    if_neg (not_not.mpr ready)]
  exact successor

/-- Each of the generations is published. -/
theorem publishes_generations {count : Nat} (small : count < 2 ^ 64) :
    NeverOverflows emptyRuntime (generations count) ∧
    (afterCalls emptyRuntime (generations count)).catalog.revision = UInt64.ofNat count ∧
    published emptyRuntime (generations count) =
      (List.range count).map fun i => segment vectorId (i + 1) (Nat.succ_ne_zero i) := by
  induction count with
  | zero => exact ⟨trivial, rfl, rfl⟩
  | succ count ih =>
    obtain ⟨below, revision, history⟩ := ih (by omega)
    have made : VectorRuntime.new [] = .ok emptyRuntime := rfl
    have inStep := (inStep_new made).calls below (by
      rw [List.nil_append]
      exact collisionFree_generations (by omega))
    rw [List.nil_append, history] at inStep
    obtain ⟨successor, fresh⟩ := checkSuccessor_segment small inStep
    have checked := checkPublish_segment (Nat.succ_ne_zero count) (by decide) successor
    rw [revision] at checked
    have isBelow : (afterCalls emptyRuntime (generations count)).catalog.revision ≠ lastRevision := by
      rw [revision]
      intro same
      have numbers := congrArg UInt64.toNat same
      rw [UInt64.toNat_ofNat_of_lt' (by show count < 2 ^ 64; omega)] at numbers
      have last : lastRevision.toNat = 2 ^ 64 - 1 := rfl
      omega
    have split : generations (count + 1) = generations count ++
        [.publish (UInt64.ofNat count) (segment vectorId (count + 1) (Nat.succ_ne_zero count))] := by
      rw [generations, List.range_succ, List.map_append]
      rfl
    have done := VectorRuntime.publish_below fresh checked isBelow
    rw [split, neverOverflows_append, afterCalls_append, published_append, List.range_succ, List.map_append,
      history]
    refine ⟨⟨below, ?_, trivial⟩, ?_, ?_⟩
    · exact fun overflows => isBelow overflows.1
    · show (RuntimeCall.run _ _).2.catalog.revision = _
      rw [RuntimeCall.run, done, revision, UInt64.ofNat_add]
      rfl
    · simp only [published, RuntimeCall.run, done, Except.map, RuntimeCall.artifact, Option.toList_some,
        List.append_nil, List.map_singleton]

theorem collisionFree_exhausting {count : Nat} (small : count < 2 ^ 64) :
    CollisionFree ((exhausting count).filterMap RuntimeCall.artifact) := by
  have own := collisionFree_generations small
  have apart : ∀ a ∈ (generations count).filterMap RuntimeCall.artifact,
      a.descriptor.stamp.artifactDigest ≠
        (segment otherId 1 Nat.one_ne_zero).descriptor.stamp.artifactDigest := by
    intro a member same
    rw [artifacts_generations] at member
    obtain ⟨i, -, rfl⟩ := List.mem_map.mp member
    rw [digest_segment, digest_segment] at same
    have chars := List.map_inj_left.mp (String.ofList_injective same) 0 (by simp)
    cases odd : (i + 1).testBit 0 <;> rw [odd] at chars <;> exact absurd chars (by decide)
  rw [exhausting, List.filterMap_append]
  intro a memA b memB same
  rcases List.mem_append.mp memA with oldA | newA
  · rcases List.mem_append.mp memB with oldB | newB
    · exact own a oldA b oldB same
    · cases List.mem_singleton.mp newB
      exact absurd same (apart a oldA)
  · cases List.mem_singleton.mp newA
    rcases List.mem_append.mp memB with oldB | newB
    · exact absurd same.symm (apart b oldB)
    · cases List.mem_singleton.mp newB
      rfl

theorem out_of_step_of_exhausting {count : Nat} (small : count < 2 ^ 64) (full : UInt64.ofNat count = lastRevision) :
    (afterCalls emptyRuntime (exhausting count)).catalog.entries[otherId]? =
      some (segment otherId 1 Nat.one_ne_zero).descriptor ∧
    (segment otherId 1 Nat.one_ne_zero).descriptor.key ∉ (afterCalls emptyRuntime (exhausting count)).artifacts := by
  have made : VectorRuntime.new [] = .ok emptyRuntime := rfl
  obtain ⟨below, revision, history⟩ := publishes_generations small
  have inStep := (inStep_new made).calls below (by
    rw [List.nil_append]
    exact collisionFree_generations small)
  rw [List.nil_append, history] at inStep
  have absent : (afterCalls emptyRuntime (generations count)).catalog.entries[otherId]? = none := by
    cases entry : (afterCalls emptyRuntime (generations count)).catalog.entries[otherId]? with
    | none => rfl
    | some d =>
      obtain ⟨a, last, -, -⟩ := inStep.entries otherId d entry
      obtain ⟨listed, named⟩ := mem_versions.mp (List.mem_of_getLast? last)
      obtain ⟨i, -, rfl⟩ := List.mem_map.mp listed
      exact absurd (show vectorId = otherId from named) (by decide)
  have fresh : (segment otherId 1 Nat.one_ne_zero).descriptor.key ∉
      (afterCalls emptyRuntime (generations count)).artifacts := by
    intro present
    obtain ⟨a, installed⟩ := Option.isSome_iff_exists.mp (ExtTreeMap.mem_iff_isSome_getElem?.mp present)
    obtain ⟨-, ⟨d, entry, -⟩ | ⟨d, retired, isKey⟩⟩ := inStep.installed _ a installed
    · exact absurd (absent.symm.trans entry) (by simp)
    · obtain ⟨e, entry, -⟩ := inStep.older d retired
      rw [show d.stamp.id = otherId from congrArg GenerationKey.id isKey, absent] at entry
      cases entry
  have checked : (afterCalls emptyRuntime (generations count)).catalog.checkPublish _
      (segment otherId 1 Nat.one_ne_zero).descriptor = .ok () :=
    checkPublish_segment Nat.one_ne_zero (by decide) (by rw [absent]; rfl)
  rw [full] at revision
  rw [revision] at checked
  rw [exhausting, afterCalls_append]
  exact out_of_step_of_overflows ⟨revision, fresh, checked⟩

/-- The publication that comes too late leaves an entry behind that has no artifact. -/
theorem exhausted_catalog_out_of_step :
    VectorRuntime.new [] = .ok emptyRuntime ∧
    CollisionFree ((exhausting (2 ^ 64 - 1)).filterMap RuntimeCall.artifact) ∧
    (afterCalls emptyRuntime (exhausting (2 ^ 64 - 1))).catalog.entries[otherId]? =
      some (segment otherId 1 Nat.one_ne_zero).descriptor ∧
    (segment otherId 1 Nat.one_ne_zero).descriptor.key ∉
      (afterCalls emptyRuntime (exhausting (2 ^ 64 - 1))).artifacts :=
  have small : 2 ^ 64 - 1 < 2 ^ 64 := by norm_num
  ⟨rfl, collisionFree_exhausting small, out_of_step_of_exhausting small rfl⟩

theorem catalog_and_artifacts_in_step_generations :
    (published emptyRuntime (generations 3)).length = 3 ∧
    InStep (published emptyRuntime (generations 3)) (afterCalls emptyRuntime (generations 3)) := by
  have small : 3 < 2 ^ 64 := by decide
  obtain ⟨below, -, history⟩ := publishes_generations small
  have made : VectorRuntime.new [] = .ok emptyRuntime := rfl
  refine ⟨by rw [history]; rfl, ?_⟩
  exact (catalog_and_artifacts_in_step made below (collisionFree_generations small)).1

end Vyrm.Vector
