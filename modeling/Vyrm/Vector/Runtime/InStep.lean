import Vyrm.Vector.Runtime

/-!
# Catalog and artifacts in step

Publications, quarantines and reclamations in any order, with any arguments. What was published
under an identity is a history of its own, and the catalog and the artifacts are read off it.
-/

namespace Vyrm.Vector
open Lib Vyrm.Core Std

/-! ## Descriptors whose state is changed -/

namespace VectorProjectionDescriptor

variable (descriptor : VectorProjectionDescriptor) (state other : ProjectionState)

@[simp] theorem key_withState : (descriptor.withState state).key = descriptor.key := by cases descriptor <;> rfl

@[simp] theorem kind_withState : (descriptor.withState state).kind = descriptor.kind := by cases descriptor <;> rfl

@[simp] theorem stamp_withState :
    (descriptor.withState state).stamp = { descriptor.stamp with state } := by cases descriptor <;> rfl

@[simp] theorem withState_withState :
    (descriptor.withState state).withState other = descriptor.withState other := by cases descriptor <;> rfl

theorem withState_self : descriptor.withState descriptor.stamp.state = descriptor := by cases descriptor <;> rfl

theorem candidatePath_stamp (cost : Nat) : (descriptor.candidatePath cost).stamp = descriptor.stamp := by
  cases descriptor <;> rfl

theorem candidatePath_kind (cost : Nat) : (descriptor.candidatePath cost).kind = descriptor.kind := by
  cases descriptor <;> rfl

end VectorProjectionDescriptor

/-! ## What the checks of the catalog leave -/

theorem VectorCatalog.checkPublish_ok {catalog : VectorCatalog} {expectedRevision : UInt64}
    {descriptor : VectorProjectionDescriptor}
    (checked : catalog.checkPublish expectedRevision descriptor = .ok ()) :
    descriptor.stamp.id ≠ exactScanProjectionId ∧ descriptor.stamp.state = .ready ∧
      checkSuccessor catalog.entries[descriptor.stamp.id]? descriptor = .ok () := by
  unfold checkPublish at checked
  obtain ⟨⟨⟩, -, checked⟩ := except_bind_ok.mp checked
  obtain ⟨⟨⟩, -, checked⟩ := except_bind_ok.mp checked
  obtain ⟨named, checked⟩ := except_reject_ok.mp checked
  obtain ⟨ready, checked⟩ := except_reject_ok.mp checked
  exact ⟨named, not_not.mp ready, checked⟩

theorem VectorCatalog.checkSuccessor_some {previous descriptor : VectorProjectionDescriptor}
    (checked : checkSuccessor (some previous) descriptor = .ok ()) :
    previous.kind = descriptor.kind ∧ descriptor.stamp.generation = nextGeneration previous.stamp.generation ∧
      previous.stamp.sourceCursor ≤ descriptor.stamp.sourceCursor := by
  obtain ⟨kind, checked⟩ := except_reject_ok.mp checked
  obtain ⟨generation, checked⟩ := except_reject_ok.mp checked
  obtain ⟨cursor, -⟩ := except_reject_ok.mp checked
  exact ⟨of_decide_eq_true (not_not.mp kind), not_not.mp generation, UInt64.not_lt.mp cursor⟩

theorem VectorCatalog.checkQuarantine_ok {catalog : VectorCatalog} {expectedRevision : UInt64} {id : ProjectionId}
    {generation : Nat} {d : VectorProjectionDescriptor}
    (checked : catalog.checkQuarantine expectedRevision id generation = .ok d) :
    catalog.entries[id]? = some d := by
  unfold checkQuarantine at checked
  obtain ⟨⟨⟩, -, checked⟩ := except_bind_ok.mp checked
  obtain ⟨found, present, checked⟩ := except_bind_ok.mp checked
  obtain ⟨-, checked⟩ := except_reject_ok.mp checked
  obtain ⟨-, checked⟩ := except_reject_ok.mp checked
  cases checked
  exact okOr_ok.mp present

variable [SegmentEncoding] [HnswEncoding]

/-! ## Calls -/

/-- A call of one of the operations that change a runtime. -/
inductive RuntimeCall where
  | publish (expectedRevision : UInt64) (artifact : VectorArtifact)
  | quarantine (expectedRevision : UInt64) (id : ProjectionId) (generation : Nat)
  | reclaimRetired (protected_ : List GenerationKey)

/-- The call, with whether it succeeded. -/
def RuntimeCall.run (runtime : VectorRuntime) : RuntimeCall → Except Error Unit × VectorRuntime
  | publish expectedRevision artifact =>
    let (result, next) := runtime.publish expectedRevision artifact
    (result.map fun _ => (), next)
  | quarantine expectedRevision id generation =>
    let (result, next) := runtime.quarantine expectedRevision id generation
    (result.map fun _ => (), next)
  | reclaimRetired protected_ => (.ok (), (runtime.reclaimRetired protected_).2)

/-- What a call publishes, if it succeeds. -/
def RuntimeCall.artifact : RuntimeCall → Option VectorArtifact
  | publish _ artifact => some artifact
  | quarantine _ _ _ => none
  | reclaimRetired _ => none

/-- The state after a sequence of calls. -/
def afterCalls (runtime : VectorRuntime) (calls : List RuntimeCall) : VectorRuntime :=
  calls.foldl (fun runtime call => (call.run runtime).2) runtime

/-- The artifacts of the publications that succeeded, in order. -/
def published : VectorRuntime → List RuntimeCall → List VectorArtifact
  | _, [] => []
  | runtime, call :: rest =>
    (match (call.run runtime).1 with
      | .ok () => call.artifact.toList
      | .error _ => []) ++ published (call.run runtime).2 rest

/-- A publication that passes every check finds no revision left for it. -/
def RuntimeCall.Overflows (runtime : VectorRuntime) : RuntimeCall → Prop
  | publish expectedRevision artifact => runtime.catalog.revision = lastRevision ∧
      artifact.descriptor.key ∉ runtime.artifacts ∧
      runtime.catalog.checkPublish expectedRevision artifact.descriptor = .ok ()
  | quarantine _ _ _ => False
  | reclaimRetired _ => False

/-- No call of a sequence overflows. -/
def NeverOverflows : VectorRuntime → List RuntimeCall → Prop
  | _, [] => True
  | runtime, call :: rest => ¬ call.Overflows runtime ∧ NeverOverflows (call.run runtime).2 rest

/-- The publications under one identity. -/
def versions (history : List VectorArtifact) (id : ProjectionId) : List VectorArtifact :=
  history.filter fun artifact => artifact.descriptor.stamp.id = id

/-- Artifacts of equal digests are the same. -/
def CollisionFree (artifacts : List VectorArtifact) : Prop :=
  ∀ a ∈ artifacts, ∀ b ∈ artifacts,
    a.descriptor.stamp.artifactDigest = b.descriptor.stamp.artifactDigest → a = b

/-- What keeps catalog and artifacts together. -/
structure InStep (history : List VectorArtifact) (runtime : VectorRuntime) : Prop where
  generations : ∀ id, (versions history id).map (·.descriptor.stamp.generation) =
    List.range' 1 (versions history id).length
  cursors : ∀ id, ((versions history id).map (·.descriptor.stamp.sourceCursor)).Pairwise (· ≤ ·)
  kinds : ∀ id, ∀ a ∈ versions history id, ∀ b ∈ versions history id, a.descriptor.kind = b.descriptor.kind
  bounded : ∀ a ∈ history, a.descriptor.stamp.generation < 2 ^ 64
  ready : ∀ a ∈ history, a.descriptor.stamp.state = .ready
  named : ∀ a ∈ history, a.descriptor.stamp.id ≠ exactScanProjectionId
  absent : ∀ id : ProjectionId, runtime.catalog.entries[id]? = none → versions history id = []
  entries : ∀ (id : ProjectionId) (d : VectorProjectionDescriptor), runtime.catalog.entries[id]? = some d →
    ∃ a, (versions history id).getLast? = some a ∧ (d = a.descriptor ∨ d = a.descriptor.withState .quarantined) ∧
      runtime.artifacts[d.key]? = some a
  retired : ∀ d ∈ runtime.catalog.retired, ∃ a ∈ history, d = a.descriptor.withState .retiring ∧
    runtime.artifacts[d.key]? = some a
  older : ∀ d ∈ runtime.catalog.retired, ∃ e, runtime.catalog.entries[d.stamp.id]? = some e ∧
    d.stamp.generation < e.stamp.generation
  once : (runtime.catalog.retired.map (·.key)).Nodup
  installed : ∀ (key : GenerationKey) (a : VectorArtifact), runtime.artifacts[key]? = some a →
    a.descriptor.key = key ∧ ((∃ d, runtime.catalog.entries[key.id]? = some d ∧ d.key = key) ∨
      ∃ d ∈ runtime.catalog.retired, d.key = key)

/-! ## What a call can do -/

variable {runtime : VectorRuntime} {history : List VectorArtifact}

section

variable {expectedRevision : UInt64} {artifact : VectorArtifact}

/-- A publication that passes the checks, with a revision left for it. -/
theorem VectorRuntime.publish_below (fresh : artifact.descriptor.key ∉ runtime.artifacts)
    (checked : runtime.catalog.checkPublish expectedRevision artifact.descriptor = .ok ())
    (below : runtime.catalog.revision ≠ lastRevision) :
    runtime.publish expectedRevision artifact = (.ok (runtime.catalog.revision + 1),
      { runtime with
        catalog := { runtime.catalog.enter artifact.descriptor with revision := runtime.catalog.revision + 1 }
        artifacts := runtime.artifacts.insert artifact.descriptor.key artifact }) := by
  have bumped : (runtime.catalog.enter artifact.descriptor).bumpRevision = _ := if_neg below
  unfold VectorRuntime.publish VectorCatalog.publish
  rw [if_neg fresh, checked]
  simp only [bumped]
  rfl

/-- A publication that passes the checks at the last revision: the catalog has changed, and an error
is returned. -/
theorem VectorRuntime.publish_last (fresh : artifact.descriptor.key ∉ runtime.artifacts)
    (checked : runtime.catalog.checkPublish expectedRevision artifact.descriptor = .ok ())
    (last : runtime.catalog.revision = lastRevision) :
    runtime.publish expectedRevision artifact = (invalid "vector catalog revision overflowed",
      { runtime with catalog := runtime.catalog.enter artifact.descriptor }) := by
  have full : (runtime.catalog.enter artifact.descriptor).bumpRevision = _ := if_pos last
  unfold VectorRuntime.publish VectorCatalog.publish
  rw [if_neg fresh, checked]
  simp only [full, invalid]

end

/-- A publication is refused without a trace, or enters the catalog. Below the last revision the
artifact is installed with it; at the last one an error is returned. -/
theorem VectorRuntime.publish_cases (runtime : VectorRuntime) (expectedRevision : UInt64) (artifact : VectorArtifact) :
    (∃ e, runtime.publish expectedRevision artifact = (.error e, runtime)) ∨
    (artifact.descriptor.key ∉ runtime.artifacts ∧
      runtime.catalog.checkPublish expectedRevision artifact.descriptor = .ok () ∧
      (runtime.catalog.revision = lastRevision ∧
        runtime.publish expectedRevision artifact = (invalid "vector catalog revision overflowed",
          { runtime with catalog := runtime.catalog.enter artifact.descriptor }) ∨
      runtime.catalog.revision ≠ lastRevision ∧
        runtime.publish expectedRevision artifact = (.ok (runtime.catalog.revision + 1),
          { runtime with
            catalog := { runtime.catalog.enter artifact.descriptor with revision := runtime.catalog.revision + 1 }
            artifacts := runtime.artifacts.insert artifact.descriptor.key artifact }))) := by
  by_cases present : artifact.descriptor.key ∈ runtime.artifacts
  · refine .inl ⟨.invalidRuntime "vector artifact generation is already installed", ?_⟩
    rw [VectorRuntime.publish, if_pos present]
    rfl
  · cases checked : runtime.catalog.checkPublish expectedRevision artifact.descriptor with
    | error e =>
      refine .inl ⟨e, ?_⟩
      rw [VectorRuntime.publish, if_neg present, VectorCatalog.publish, checked]
    | ok _ =>
      refine .inr ⟨present, rfl, ?_⟩
      by_cases last : runtime.catalog.revision = lastRevision
      · exact .inl ⟨last, VectorRuntime.publish_last present checked last⟩
      · exact .inr ⟨last, VectorRuntime.publish_below present checked last⟩

theorem VectorRuntime.quarantine_cases (runtime : VectorRuntime) (expectedRevision : UInt64) (id : ProjectionId)
    (generation : Nat) :
    (∃ e, runtime.quarantine expectedRevision id generation = (.error e, runtime)) ∨
    ∃ d result revision, runtime.catalog.checkQuarantine expectedRevision id generation = .ok d ∧
      (runtime.catalog.revision ≠ lastRevision → result = .ok revision) ∧
      runtime.quarantine expectedRevision id generation = (result,
        { runtime with
          catalog := { runtime.catalog with
            revision
            entries := runtime.catalog.entries.insert id (d.withState .quarantined) } }) := by
  unfold VectorRuntime.quarantine VectorCatalog.quarantine
  cases checked : runtime.catalog.checkQuarantine expectedRevision id generation with
  | error e => exact .inl ⟨e, rfl⟩
  | ok d =>
    let marked : VectorCatalog := ⟨runtime.catalog.revision,
      runtime.catalog.entries.insert id (d.withState .quarantined), runtime.catalog.retired⟩
    by_cases last : runtime.catalog.revision = lastRevision
    · have full : marked.bumpRevision = (invalid "vector catalog revision overflowed", marked) := if_pos last
      refine .inr ⟨d, invalid "vector catalog revision overflowed", runtime.catalog.revision, rfl,
        fun below => absurd last below, ?_⟩
      show (marked.bumpRevision.1, { runtime with catalog := marked.bumpRevision.2 }) = _
      rw [full]
    · have bumped : marked.bumpRevision = (.ok (runtime.catalog.revision + 1),
          { marked with revision := runtime.catalog.revision + 1 }) := if_neg last
      refine .inr ⟨d, .ok (runtime.catalog.revision + 1), runtime.catalog.revision + 1, rfl, fun _ => rfl, ?_⟩
      show (marked.bumpRevision.1, { runtime with catalog := marked.bumpRevision.2 }) = _
      rw [bumped]

/-! ## Histories -/

theorem mem_versions {id : ProjectionId} {a : VectorArtifact} :
    a ∈ versions history id ↔ a ∈ history ∧ a.descriptor.stamp.id = id := by simp [versions]

theorem versions_concat_self (a : VectorArtifact) :
    versions (history ++ [a]) a.descriptor.stamp.id = versions history a.descriptor.stamp.id ++ [a] := by
  simp [versions]

theorem versions_concat_other {id : ProjectionId} {a : VectorArtifact} (other : a.descriptor.stamp.id ≠ id) :
    versions (history ++ [a]) id = versions history id := by
  simp [versions, other]

namespace InStep

/-- An entry stands under its own identity. -/
theorem entry_id (inStep : InStep history runtime) {id : ProjectionId} {d : VectorProjectionDescriptor}
    (entry : runtime.catalog.entries[id]? = some d) : d.stamp.id = id := by
  obtain ⟨a, last, same, -⟩ := inStep.entries id d entry
  have named := (mem_versions.mp (List.mem_of_getLast? last)).2
  rcases same with rfl | rfl
  · exact named
  · rw [VectorProjectionDescriptor.stamp_withState]
    exact named

/-- The generation of an entry is the number of publications under its identity. -/
theorem entry_generation (inStep : InStep history runtime) {id : ProjectionId} {a : VectorArtifact}
    (last : (versions history id).getLast? = some a) :
    a.descriptor.stamp.generation = (versions history id).length := by
  have generations := congrArg List.getLast? (inStep.generations id)
  rw [List.getLast?_map, last, List.getLast?_range'] at generations
  have some_ : (versions history id).length ≠ 0 := by
    intro zero
    rw [List.length_eq_zero_iff.mp zero] at last
    cases last
  rw [if_neg some_, Option.map_some, Option.some.injEq] at generations
  omega

/-- The artifact of an entry is installed under the key of the entry. -/
theorem entry_key (inStep : InStep history runtime) {id : ProjectionId} {d : VectorProjectionDescriptor}
    (entry : runtime.catalog.entries[id]? = some d) : d.key.id = id := inStep.entry_id entry

/-- A first generation, or the next one of what the identity names. -/
theorem successor (inStep : InStep history runtime) {a : VectorArtifact}
    (fresh : a.descriptor.key ∉ runtime.artifacts)
    (checked : VectorCatalog.checkSuccessor runtime.catalog.entries[a.descriptor.stamp.id]? a.descriptor = .ok ()) :
    a.descriptor.stamp.generation = (versions history a.descriptor.stamp.id).length + 1 ∧
      a.descriptor.stamp.generation < 2 ^ 64 ∧
      ∀ b ∈ versions history a.descriptor.stamp.id, b.descriptor.kind = a.descriptor.kind ∧
        b.descriptor.stamp.sourceCursor ≤ a.descriptor.stamp.sourceCursor := by
  cases entry : runtime.catalog.entries[a.descriptor.stamp.id]? with
  | none =>
    rw [entry] at checked
    obtain ⟨first, -⟩ := except_reject_ok.mp checked
    rw [inStep.absent _ entry]
    refine ⟨not_not.mp first, ?_, fun b member => by cases member⟩
    rw [not_not.mp first]
    decide
  | some d =>
    rw [entry] at checked
    obtain ⟨kind, generation, cursor⟩ := VectorCatalog.checkSuccessor_some checked
    obtain ⟨b, last, same, artifact⟩ := inStep.entries _ d entry
    have counted := inStep.entry_generation last
    have stamped : d.stamp.generation = b.descriptor.stamp.generation ∧
        d.stamp.sourceCursor = b.descriptor.stamp.sourceCursor ∧ d.kind = b.descriptor.kind := by
      rcases same with rfl | rfl
      · exact ⟨rfl, rfl, rfl⟩
      · simp
    have small := inStep.bounded b (mem_versions.mp (List.mem_of_getLast? last)).1
    -- the last generation there is cannot be published again, its artifact is installed
    have notLast : d.stamp.generation + 1 < 2 ^ 64 := by
      by_contra full
      apply fresh
      have same : a.descriptor.key = d.key := by
        have generations : a.descriptor.stamp.generation = d.stamp.generation := by
          rw [generation, nextGeneration]
          omega
        rw [VectorProjectionDescriptor.key, VectorProjectionDescriptor.key, inStep.entry_id entry, generations]
      rw [same]
      exact ExtTreeMap.mem_iff_isSome_getElem?.mpr (by rw [artifact]; rfl)
    have next : a.descriptor.stamp.generation = d.stamp.generation + 1 := by
      rw [generation, nextGeneration]
      omega
    refine ⟨by omega, by omega, ?_⟩
    intro c member
    refine ⟨?_, ?_⟩
    · rw [inStep.kinds _ c member b (List.mem_of_getLast? last), ← stamped.2.2, kind]
    · have sorted := inStep.cursors a.descriptor.stamp.id
      obtain ⟨front, split⟩ := List.getLast?_eq_some_iff.mp last
      rw [split] at member sorted
      rw [List.map_append, List.pairwise_append] at sorted
      have upTo : c.descriptor.stamp.sourceCursor ≤ b.descriptor.stamp.sourceCursor := by
        rcases List.mem_append.mp member with early | isLast
        · exact sorted.2.2 _ (List.mem_map_of_mem early) _ (by simp)
        · rw [List.mem_singleton.mp isLast]
          exact UInt64.le_refl _
      rw [stamped.2.1] at cursor
      exact UInt64.le_trans upTo cursor

/-- What an entry or a retired generation shares with its artifact. -/
theorem same_key {a : VectorArtifact} {d : VectorProjectionDescriptor}
    (same : d = a.descriptor ∨ d = a.descriptor.withState .quarantined) :
    d.key = a.descriptor.key ∧ d.withState .retiring = a.descriptor.withState .retiring ∧ d.stamp.id = a.descriptor.stamp.id := by
  rcases same with rfl | rfl
  · exact ⟨rfl, rfl, rfl⟩
  · simp

/-- A successful publication. -/
theorem publish (inStep : InStep history runtime) {a : VectorArtifact} {revision : UInt64}
    (fresh : a.descriptor.key ∉ runtime.artifacts) (named : a.descriptor.stamp.id ≠ exactScanProjectionId)
    (ready : a.descriptor.stamp.state = .ready)
    (checked : VectorCatalog.checkSuccessor runtime.catalog.entries[a.descriptor.stamp.id]? a.descriptor = .ok ()) :
    InStep (history ++ [a]) { runtime with
      catalog := { runtime.catalog.enter a.descriptor with revision }
      artifacts := runtime.artifacts.insert a.descriptor.key a } := by
  obtain ⟨generation, small, alike⟩ := inStep.successor fresh checked
  -- what was installed is still there
  have keeps : ∀ (key : GenerationKey) (b : VectorArtifact), runtime.artifacts[key]? = some b →
      (runtime.artifacts.insert a.descriptor.key a)[key]? = some b := by
    intro key b installed
    rw [OrdMap.getElem?_insert_of_ne, installed]
    rintro rfl
    exact fresh (ExtTreeMap.mem_iff_isSome_getElem?.mpr (by rw [installed]; rfl))
  have others : ∀ id, a.descriptor.stamp.id ≠ id →
      (runtime.catalog.enter a.descriptor).entries[id]? = runtime.catalog.entries[id]? :=
    fun id other => OrdMap.getElem?_insert_of_ne other
  have own : (runtime.catalog.enter a.descriptor).entries[a.descriptor.stamp.id]? = some a.descriptor :=
    OrdMap.getElem?_insert_self _ _ _
  -- the retired generations are those from before, and the one that was current
  have retired : ∀ d, d ∈ (runtime.catalog.enter a.descriptor).retired ↔ d ∈ runtime.catalog.retired ∨
      ∃ e, runtime.catalog.entries[a.descriptor.stamp.id]? = some e ∧ d = e.withState .retiring := by
    intro d
    unfold VectorCatalog.enter
    cases entry : runtime.catalog.entries[a.descriptor.stamp.id]? with
    | none => simp
    | some e => simp [VectorCatalog.retire]
  refine ⟨?_, ?_, ?_, ?_, ?_, ?_, ?_, ?_, ?_, ?_, ?_, ?_⟩
  · intro id
    by_cases same : a.descriptor.stamp.id = id
    · subst same
      rw [versions_concat_self, List.map_append, List.length_append, List.map_singleton, List.length_singleton,
        List.range'_concat, inStep.generations, generation]
      simp [Nat.add_comm]
    · rw [versions_concat_other same]
      exact inStep.generations id
  · intro id
    by_cases same : a.descriptor.stamp.id = id
    · subst same
      rw [versions_concat_self, List.map_append, List.pairwise_append]
      refine ⟨inStep.cursors _, List.pairwise_singleton _ _, ?_⟩
      intro x early y isNew
      obtain ⟨b, member, rfl⟩ := List.mem_map.mp early
      rw [List.map_singleton, List.mem_singleton] at isNew
      rw [isNew]
      exact (alike b member).2
    · rw [versions_concat_other same]
      exact inStep.cursors id
  · intro id b memB c memC
    by_cases same : a.descriptor.stamp.id = id
    · subst same
      rw [versions_concat_self, List.mem_append, List.mem_singleton] at memB memC
      have kindOf : ∀ x, x ∈ versions history a.descriptor.stamp.id ∨ x = a →
          x.descriptor.kind = a.descriptor.kind := by
        rintro x (old | rfl)
        · exact (alike x old).1
        · rfl
      rw [kindOf b memB, kindOf c memC]
    · rw [versions_concat_other same] at memB memC
      exact inStep.kinds id b memB c memC
  · intro b member
    rcases List.mem_append.mp member with old | new
    · exact inStep.bounded b old
    · rw [List.mem_singleton.mp new]
      exact small
  · intro b member
    rcases List.mem_append.mp member with old | new
    · exact inStep.ready b old
    · rw [List.mem_singleton.mp new]
      exact ready
  · intro b member
    rcases List.mem_append.mp member with old | new
    · exact inStep.named b old
    · rw [List.mem_singleton.mp new]
      exact named
  · intro id none_
    have other : a.descriptor.stamp.id ≠ id := by
      rintro rfl
      rw [own] at none_
      cases none_
    rw [versions_concat_other other]
    exact inStep.absent id ((others id other).symm.trans none_)
  · intro id d entry
    by_cases same : a.descriptor.stamp.id = id
    · subst same
      cases own.symm.trans entry
      refine ⟨a, ?_, .inl rfl, OrdMap.getElem?_insert_self _ _ _⟩
      rw [versions_concat_self, List.getLast?_concat]
    · obtain ⟨b, last, sameAs, installed⟩ := inStep.entries id d ((others id same).symm.trans entry)
      refine ⟨b, ?_, sameAs, keeps _ _ installed⟩
      rw [versions_concat_other same]
      exact last
  · intro d member
    rcases (retired d).mp member with old | ⟨e, entry, rfl⟩
    · obtain ⟨b, published, same, installed⟩ := inStep.retired d old
      exact ⟨b, List.mem_append_left _ published, same, keeps _ _ installed⟩
    · obtain ⟨b, last, same, installed⟩ := inStep.entries _ e entry
      refine ⟨b, List.mem_append_left _ (mem_versions.mp (List.mem_of_getLast? last)).1, (same_key same).2.1, ?_⟩
      rw [VectorProjectionDescriptor.key_withState]
      exact keeps _ _ installed
  · intro d member
    rcases (retired d).mp member with old | ⟨e, entry, rfl⟩
    · obtain ⟨e, entry, earlier⟩ := inStep.older d old
      by_cases same : a.descriptor.stamp.id = d.stamp.id
      · refine ⟨a.descriptor, ?_, ?_⟩
        · rw [← same]
          exact own
        · rw [← same] at entry
          obtain ⟨b, last, sameAs, -⟩ := inStep.entries _ e entry
          have counted := inStep.entry_generation last
          have stamps : e.stamp.generation = b.descriptor.stamp.generation :=
            congrArg GenerationKey.generation (same_key sameAs).1
          omega
      · exact ⟨e, (others _ same).trans entry, earlier⟩
    · obtain ⟨b, last, same, -⟩ := inStep.entries _ e entry
      have counted := inStep.entry_generation last
      have stamps : e.stamp.generation = b.descriptor.stamp.generation :=
        congrArg GenerationKey.generation (same_key same).1
      rw [VectorProjectionDescriptor.stamp_withState]
      refine ⟨a.descriptor, ?_, ?_⟩
      · show (runtime.catalog.enter a.descriptor).entries[e.stamp.id]? = _
        rw [inStep.entry_id entry]
        exact own
      · show e.stamp.generation < _
        omega
  · show ((runtime.catalog.enter a.descriptor).retired.map (·.key)).Nodup
    unfold VectorCatalog.enter
    cases entry : runtime.catalog.entries[a.descriptor.stamp.id]? with
    | none => exact inStep.once
    | some e =>
      have perm := List.perm_insertionSort
        (fun left right : VectorProjectionDescriptor => compare left.key right.key ≠ .gt)
        (runtime.catalog.retired ++ [e.withState .retiring])
      dsimp only [VectorCatalog.retire]
      rw [(perm.map _).nodup_iff, List.map_append, List.nodup_append]
      refine ⟨inStep.once, List.nodup_singleton _, ?_⟩
      intro x old y new
      obtain ⟨d, member, rfl⟩ := List.mem_map.mp old
      rw [List.map_singleton, List.mem_singleton, VectorProjectionDescriptor.key_withState] at new
      subst new
      intro same
      obtain ⟨e', entry', earlier⟩ := inStep.older d member
      have ids : d.stamp.id = e.stamp.id := congrArg GenerationKey.id same
      have generations : d.stamp.generation = e.stamp.generation := congrArg GenerationKey.generation same
      rw [ids, inStep.entry_id entry, entry] at entry'
      cases entry'
      omega
  · intro key b installed
    by_cases same : a.descriptor.key = key
    · subst same
      have isNew := (OrdMap.getElem?_insert_self runtime.artifacts a.descriptor.key a).symm.trans installed
      cases isNew
      exact ⟨rfl, .inl ⟨a.descriptor, own, rfl⟩⟩
    · have old := (OrdMap.getElem?_insert_of_ne same).symm.trans installed
      obtain ⟨named, ⟨d, entry, isKey⟩ | ⟨d, member, isKey⟩⟩ := inStep.installed key b old
      · refine ⟨named, ?_⟩
        by_cases replaced : a.descriptor.stamp.id = key.id
        · refine .inr ⟨d.withState .retiring, (retired _).mpr (.inr ⟨d, ?_, rfl⟩), ?_⟩
          · rw [replaced]
            exact entry
          · rw [VectorProjectionDescriptor.key_withState]
            exact isKey
        · exact .inl ⟨d, (others _ replaced).trans entry, isKey⟩
      · exact ⟨named, .inr ⟨d, (retired d).mpr (.inl member), isKey⟩⟩

/-- A quarantine changes the state of an entry, and nothing else. -/
theorem quarantine (inStep : InStep history runtime) {id : ProjectionId} {d : VectorProjectionDescriptor}
    {revision : UInt64} (entry : runtime.catalog.entries[id]? = some d) :
    InStep history { runtime with
      catalog := { runtime.catalog with
        revision
        entries := runtime.catalog.entries.insert id (d.withState .quarantined) } } := by
  have own := OrdMap.getElem?_insert_self runtime.catalog.entries id (d.withState .quarantined)
  have others : ∀ other, id ≠ other →
      (runtime.catalog.entries.insert id (d.withState .quarantined))[other]? = runtime.catalog.entries[other]? :=
    fun other different => OrdMap.getElem?_insert_of_ne different
  refine ⟨inStep.generations, inStep.cursors, inStep.kinds, inStep.bounded, inStep.ready, inStep.named, ?_, ?_,
    inStep.retired, ?_, inStep.once, ?_⟩
  · intro other none_
    have different : id ≠ other := by
      rintro rfl
      rw [own] at none_
      cases none_
    exact inStep.absent other ((others other different).symm.trans none_)
  · intro other e found
    by_cases same : id = other
    · subst same
      cases own.symm.trans found
      obtain ⟨a, last, sameAs, installed⟩ := inStep.entries id d entry
      refine ⟨a, last, .inr ?_, ?_⟩
      · rcases sameAs with rfl | rfl
        · rfl
        · rw [VectorProjectionDescriptor.withState_withState]
      · rw [VectorProjectionDescriptor.key_withState]
        exact installed
    · exact inStep.entries other e ((others other same).symm.trans found)
  · intro e member
    obtain ⟨current, found, earlier⟩ := inStep.older e member
    by_cases same : id = e.stamp.id
    · rw [← same, entry] at found
      cases found
      refine ⟨d.withState .quarantined, ?_, ?_⟩
      · rw [← same]
        exact own
      · rw [VectorProjectionDescriptor.stamp_withState]
        exact earlier
    · exact ⟨current, (others _ same).trans found, earlier⟩
  · intro key b installed
    obtain ⟨named, ⟨e, found, isKey⟩ | retired⟩ := inStep.installed key b installed
    · refine ⟨named, .inl ?_⟩
      by_cases same : id = key.id
      · rw [← same, entry] at found
        cases found
        refine ⟨d.withState .quarantined, ?_, ?_⟩
        · rw [← same]
          exact own
        · rw [VectorProjectionDescriptor.key_withState]
          exact isKey
      · exact ⟨e, (others _ same).trans found, isKey⟩
    · exact ⟨named, .inr retired⟩

/-- An entry is not retired. -/
theorem entry_not_retired (inStep : InStep history runtime) {id : ProjectionId} {d e : VectorProjectionDescriptor}
    (entry : runtime.catalog.entries[id]? = some d) (retired : e ∈ runtime.catalog.retired) : e.key ≠ d.key := by
  intro same
  obtain ⟨current, found, earlier⟩ := inStep.older e retired
  have ids : e.stamp.id = d.stamp.id := congrArg GenerationKey.id same
  have generations : e.stamp.generation = d.stamp.generation := congrArg GenerationKey.generation same
  rw [ids, inStep.entry_id entry, entry] at found
  cases found
  omega

/-- The artifact of one published generation goes with a reclaimed one only if it is its own. -/
theorem kept_of_reclaimed (inStep : InStep history runtime) (collisionFree : CollisionFree history)
    {protected_ : List GenerationKey} {a : VectorArtifact} (member : a ∈ history)
    (kept : ∀ d ∈ runtime.catalog.retired, d.key = a.descriptor.key → d.key ∈ protected_) :
    a.descriptor.stamp.artifactDigest ∉ (runtime.catalog.reclaimRetired protected_).1 := by
  intro reclaimed
  rw [VectorCatalog.reclaimRetired, List.mem_insertionSort] at reclaimed
  obtain ⟨d, listed, digest⟩ := List.mem_map.mp reclaimed
  obtain ⟨retired, unprotected⟩ := List.mem_filter.mp listed
  obtain ⟨b, published, rfl, -⟩ := inStep.retired d retired
  rw [VectorProjectionDescriptor.stamp_withState] at digest
  have same : b = a := collisionFree b published a member digest
  subst same
  exact (of_decide_eq_true unprotected)
    (kept _ retired (VectorProjectionDescriptor.key_withState _ _))

/-- The artifacts a reclamation leaves. -/
theorem reclaim_artifact {protected_ : List GenerationKey} (key : GenerationKey) (a : VectorArtifact) :
    (runtime.reclaimRetired protected_).2.artifacts[key]? = some a ↔ runtime.artifacts[key]? = some a ∧
      a.descriptor.stamp.artifactDigest ∉ (runtime.catalog.reclaimRetired protected_).1 := by
  show (runtime.artifacts.filter fun _ artifact => decide (artifact.descriptor.stamp.artifactDigest ∉
    (runtime.catalog.reclaimRetired protected_).1))[key]? = some a ↔ _
  rw [ExtTreeMap.getElem?_filter', Option.filter_eq_some_iff, decide_eq_true_iff]

/-- A reclamation removes retired generations that are not protected, with their artifacts. -/
theorem reclaimRetired (inStep : InStep history runtime) (collisionFree : CollisionFree history)
    (protected_ : List GenerationKey) : InStep history (runtime.reclaimRetired protected_).2 := by
  have entryKept : ∀ (id : ProjectionId) (d : VectorProjectionDescriptor) (a : VectorArtifact),
      runtime.catalog.entries[id]? = some d → a ∈ history → d.key = a.descriptor.key →
      a.descriptor.stamp.artifactDigest ∉ (runtime.catalog.reclaimRetired protected_).1 := by
    intro id d a entry member isKey
    apply inStep.kept_of_reclaimed collisionFree member
    intro e retired same
    exact absurd (same.trans isKey.symm) (inStep.entry_not_retired entry retired)
  have retiredKept : ∀ d ∈ runtime.catalog.retired, ∀ a ∈ history, d.key ∈ protected_ → d.key = a.descriptor.key →
      a.descriptor.stamp.artifactDigest ∉ (runtime.catalog.reclaimRetired protected_).1 := by
    intro d _ a member isProtected isKey
    apply inStep.kept_of_reclaimed collisionFree member
    intro e _ same
    rw [same, ← isKey]
    exact isProtected
  have retired : ∀ d, d ∈ (runtime.reclaimRetired protected_).2.catalog.retired ↔
      d ∈ runtime.catalog.retired ∧ d.key ∈ protected_ := by
    intro d
    show d ∈ runtime.catalog.retired.filter (fun d => decide (d.key ∈ protected_)) ↔ _
    rw [List.mem_filter, decide_eq_true_iff]
  refine ⟨inStep.generations, inStep.cursors, inStep.kinds, inStep.bounded, inStep.ready, inStep.named,
    inStep.absent, ?_, ?_, ?_, ?_, ?_⟩
  · intro id d entry
    obtain ⟨a, last, same, installed⟩ := inStep.entries id d entry
    refine ⟨a, last, same, (reclaim_artifact _ _).mpr ⟨installed, ?_⟩⟩
    exact entryKept id d a entry (mem_versions.mp (List.mem_of_getLast? last)).1 (same_key same).1
  · intro d member
    obtain ⟨old, isProtected⟩ := (retired d).mp member
    obtain ⟨a, published, same, installed⟩ := inStep.retired d old
    refine ⟨a, published, same, (reclaim_artifact _ _).mpr ⟨installed, ?_⟩⟩
    apply retiredKept d old a published isProtected
    rw [same, VectorProjectionDescriptor.key_withState]
  · exact fun d member => inStep.older d ((retired d).mp member).1
  · exact inStep.once.sublist (List.filter_sublist.map _)
  · intro key a found
    obtain ⟨installed, kept⟩ := (reclaim_artifact key a).mp found
    obtain ⟨named, entry | ⟨d, member, isKey⟩⟩ := inStep.installed key a installed
    · exact ⟨named, .inl entry⟩
    · refine ⟨named, .inr ⟨d, (retired d).mpr ⟨member, ?_⟩, isKey⟩⟩
      -- a generation that was reclaimed has taken its artifact with it
      by_contra unprotected
      apply kept
      rw [VectorCatalog.reclaimRetired, List.mem_insertionSort]
      obtain ⟨b, _, same, own⟩ := inStep.retired d member
      rw [isKey] at own
      cases installed.symm.trans own
      refine List.mem_map.mpr ⟨d, List.mem_filter.mpr ⟨member, decide_eq_true unprotected⟩, ?_⟩
      rw [same, VectorProjectionDescriptor.stamp_withState]

end InStep

/-! ## Runs -/

/-- One call that does not overflow. -/
theorem InStep.call (inStep : InStep history runtime) (call : RuntimeCall)
    (below : ¬ call.Overflows runtime) (collisionFree : CollisionFree history) :
    InStep (history ++ match (call.run runtime).1 with
      | .ok () => call.artifact.toList
      | .error _ => []) (call.run runtime).2 := by
  cases call with
  | publish expectedRevision artifact =>
    rcases runtime.publish_cases expectedRevision artifact with
      ⟨e, refused⟩ | ⟨fresh, checked, ⟨last, -⟩ | ⟨-, done⟩⟩
    · simp only [RuntimeCall.run, refused, Except.map, List.append_nil]
      exact inStep
    · exact absurd ⟨last, fresh, checked⟩ below
    · obtain ⟨named, ready, successor⟩ := VectorCatalog.checkPublish_ok checked
      simp only [RuntimeCall.run, done, Except.map, RuntimeCall.artifact, Option.toList_some]
      exact inStep.publish fresh named ready successor
  | quarantine expectedRevision id generation =>
    have none_ : ∀ result : Except Error Unit, (match result with
        | .ok () => (RuntimeCall.quarantine expectedRevision id generation).artifact.toList
        | .error _ => []) = [] := by
      intro result
      cases result <;> rfl
    rw [none_, List.append_nil]
    rcases runtime.quarantine_cases expectedRevision id generation with
      ⟨e, refused⟩ | ⟨d, result, revision, checked, -, done⟩
    · simp only [RuntimeCall.run, refused]
      exact inStep
    · simp only [RuntimeCall.run, done]
      exact inStep.quarantine (VectorCatalog.checkQuarantine_ok checked)
  | reclaimRetired protected_ =>
    simp only [RuntimeCall.run, RuntimeCall.artifact, Option.toList_none, List.append_nil]
    exact inStep.reclaimRetired collisionFree protected_

theorem InStep.calls {calls : List RuntimeCall} (inStep : InStep history runtime)
    (below : NeverOverflows runtime calls)
    (collisionFree : CollisionFree (history ++ calls.filterMap RuntimeCall.artifact)) :
    InStep (history ++ published runtime calls) (afterCalls runtime calls) := by
  induction calls generalizing history runtime with
  | nil =>
    rw [published, List.append_nil]
    exact inStep
  | cons call rest ih =>
    obtain ⟨first, later⟩ := below
    have next := inStep.call call first
      fun a ha b hb => collisionFree a (List.mem_append_left _ ha) b (List.mem_append_left _ hb)
    have free : CollisionFree ((history ++ match (call.run runtime).1 with
        | .ok () => call.artifact.toList
        | .error _ => []) ++ rest.filterMap RuntimeCall.artifact) := by
      have among : ∀ a, a ∈ (history ++ match (call.run runtime).1 with
          | .ok () => call.artifact.toList
          | .error _ => []) ++ rest.filterMap RuntimeCall.artifact →
          a ∈ history ++ (call :: rest).filterMap RuntimeCall.artifact := by
        intro a member
        simp only [List.mem_append, List.mem_filterMap, List.mem_cons] at member ⊢
        rcases member with (old | new) | ⟨other, listed, same⟩
        · exact .inl old
        · refine .inr ⟨call, .inl rfl, ?_⟩
          split at new
          · exact Option.mem_toList.mp new
          · cases new
        · exact .inr ⟨other, .inr listed, same⟩
      exact fun a ha b hb => collisionFree a (among a ha) b (among b hb)
    have run := ih next later free
    rw [List.append_assoc] at run
    exact run

/-- What is published is what a call has brought. -/
theorem published_subset (runtime : VectorRuntime) (calls : List RuntimeCall) :
    ∀ a ∈ published runtime calls, a ∈ calls.filterMap RuntimeCall.artifact := by
  induction calls generalizing runtime with
  | nil => exact fun a member => member
  | cons call rest ih =>
    intro a member
    rcases List.mem_append.mp member with new | later
    · split at new
      · exact List.mem_filterMap.mpr ⟨call, List.mem_cons_self, Option.mem_toList.mp new⟩
      · cases new
    · obtain ⟨other, listed, same⟩ := List.mem_filterMap.mp (ih _ a later)
      exact List.mem_filterMap.mpr ⟨other, List.mem_cons_of_mem _ listed, same⟩

/-- A new runtime has nothing published. -/
theorem inStep_new {canonical : List VectorCandidate} (made : VectorRuntime.new canonical = .ok runtime) :
    InStep [] runtime := by
  obtain ⟨⟨⟩, -, made⟩ := except_bind_ok.mp made
  cases made
  refine ⟨?_, ?_, ?_, ?_, ?_, ?_, ?_, ?_, ?_, ?_, ?_, ?_⟩ <;> simp [versions, VectorCatalog.empty]

/-! ## What follows for a search -/

/-- The artifact that serves a decision: it was published, it is what the catalog names as ready,
and the generation is not retired. -/
structure Selects (history : List VectorArtifact) (runtime : VectorRuntime) (selected : PlanDecision)
    (artifact : VectorArtifact) : Prop where
  published : artifact ∈ history
  found : runtime.selectArtifact selected = .ok artifact
  entry : runtime.catalog.entries[selected.id]? = some artifact.descriptor
  generation : selected.generation = artifact.descriptor.stamp.generation
  kind : selected.kind = artifact.descriptor.kind
  ready : artifact.descriptor.stamp.state = .ready
  current : ∀ d ∈ runtime.catalog.retired, d.key ≠ ⟨selected.id, selected.generation⟩

theorem InStep.selects (inStep : InStep history runtime) {d : VectorProjectionDescriptor} {id : ProjectionId}
    (entry : runtime.catalog.entries[id]? = some d) (ready : d.stamp.state = .ready) (cost exactRerank : Nat) :
    ∃ a, Selects history runtime ((d.candidatePath cost).decision exactRerank) a ∧ a.descriptor = d := by
  obtain ⟨a, last, same, installed⟩ := inStep.entries id d entry
  have isOwn : d = a.descriptor := by
    rcases same with same | rfl
    · exact same
    · rw [VectorProjectionDescriptor.stamp_withState] at ready
      cases ready
  subst isOwn
  have named := inStep.entry_id entry
  rw [← named] at entry
  have stamp := VectorProjectionDescriptor.candidatePath_stamp a.descriptor cost
  have selectedId : ((a.descriptor.candidatePath cost).decision exactRerank).id = a.descriptor.stamp.id := by
    rw [CandidatePath.decision, stamp]
  have selectedGeneration :
      ((a.descriptor.candidatePath cost).decision exactRerank).generation = a.descriptor.stamp.generation := by
    rw [CandidatePath.decision, stamp]
  refine ⟨a, ⟨(mem_versions.mp (List.mem_of_getLast? last)).1, ?_, ?_, selectedGeneration, ?_, ready, ?_⟩, rfl⟩
  · rw [VectorProjectionDescriptor.key] at installed
    rw [VectorRuntime.selectArtifact, selectedId, selectedGeneration, installed, entry]
    exact if_neg (not_not.mpr rfl)
  · rw [selectedId]
    exact entry
  · exact VectorProjectionDescriptor.candidatePath_kind _ _
  · intro e retired
    rw [selectedId, selectedGeneration]
    exact inStep.entry_not_retired entry retired

/-- A plan reads the canonical candidates, or its artifact is there. -/
theorem InStep.selected (inStep : InStep history runtime) {request : SearchRequest} {efSearch : Nat}
    {plan : SearchPlan} (planned : runtime.plan request efSearch = .ok plan) :
    plan.selected.kind = .exactScan ∨ ∃ a, Selects history runtime plan.selected a := by
  obtain ⟨-, path, accepted, decision, -⟩ := VectorPlanner.plan_ok planned
  obtain ⟨isPath, accepts, -⟩ := mem_acceptedPaths.mp accepted
  rw [decision]
  rcases isPath with rfl | listed
  · exact .inl rfl
  · obtain ⟨d, among, rfl⟩ := List.mem_map.mp listed
    obtain ⟨id, entry⟩ := OrdMap.mem_values.mp among
    have ready := accepts.ready
    rw [VectorProjectionDescriptor.candidatePath_stamp] at ready
    obtain ⟨a, selects, -⟩ := inStep.selects entry ready (runtime.estimatedCost request efSearch d)
      (request.mode.exactRerank request.topK)
    exact .inr ⟨a, selects⟩

/-- No generation occurs twice among the entries and the retired ones. -/
theorem InStep.nodup_keys (inStep : InStep history runtime) :
    ((OrdMap.values runtime.catalog.entries).map (·.key) ++ runtime.catalog.retired.map (·.key)).Nodup := by
  rw [List.nodup_append]
  refine ⟨?_, inStep.once, ?_⟩
  · rw [OrdMap.values, List.map_map, List.Nodup, List.pairwise_map]
    apply (ExtTreeMap.distinct_keys_toList (t := runtime.catalog.entries)).imp_of_mem
    intro p q memP memQ different same
    apply different
    have entryP := inStep.entry_id (ExtTreeMap.mem_toList_iff_getElem?_eq_some.mp memP)
    have entryQ := inStep.entry_id (ExtTreeMap.mem_toList_iff_getElem?_eq_some.mp memQ)
    have ids : p.2.stamp.id = q.2.stamp.id := congrArg GenerationKey.id same
    rw [← entryP, ← entryQ, ids]
    exact ReflOrd.compare_self
  · intro x current y old same
    obtain ⟨d, listed, rfl⟩ := List.mem_map.mp current
    obtain ⟨e, retired, rfl⟩ := List.mem_map.mp old
    obtain ⟨id, entry⟩ := OrdMap.mem_values.mp listed
    exact inStep.entry_not_retired entry retired same.symm

/-- A protected generation is not reclaimed. -/
theorem InStep.protected_ (inStep : InStep history runtime) (collisionFree : CollisionFree history)
    (protected_ : List GenerationKey) : ∀ d ∈ runtime.catalog.retired, d.key ∈ protected_ →
      d ∈ (runtime.reclaimRetired protected_).2.catalog.retired ∧
      (runtime.reclaimRetired protected_).2.artifacts[d.key]? = runtime.artifacts[d.key]? := by
  intro d retired isProtected
  have kept : d ∈ (runtime.reclaimRetired protected_).2.catalog.retired :=
    List.mem_filter.mpr ⟨retired, decide_eq_true isProtected⟩
  refine ⟨kept, ?_⟩
  obtain ⟨a, -, -, installed⟩ := (inStep.reclaimRetired collisionFree protected_).retired d kept
  rw [installed, ((reclaim_artifact _ _).mp installed).1]

/-- A call that is refused below the last revision leaves no trace. -/
theorem RuntimeCall.run_error {call : RuntimeCall} {e : Error} (below : runtime.catalog.revision ≠ lastRevision)
    (refused : (call.run runtime).1 = .error e) : (call.run runtime).2 = runtime := by
  cases call with
  | publish expectedRevision artifact =>
    rcases runtime.publish_cases expectedRevision artifact with ⟨_, same⟩ | ⟨-, -, ⟨last, -⟩ | ⟨-, done⟩⟩
    · simp only [RuntimeCall.run, same]
    · exact absurd last below
    · simp only [RuntimeCall.run, done, Except.map] at refused
      cases refused
  | quarantine expectedRevision id generation =>
    rcases runtime.quarantine_cases expectedRevision id generation with
      ⟨_, same⟩ | ⟨d, result, revision, -, succeeds, done⟩
    · simp only [RuntimeCall.run, same]
    · simp only [RuntimeCall.run, done, succeeds below, Except.map] at refused
      cases refused
  | reclaimRetired protected_ => cases refused

/-- Catalog and artifacts stay in step through any calls none of which overflows. -/
theorem catalog_and_artifacts_in_step {canonical : List VectorCandidate} {calls : List RuntimeCall}
    (made : VectorRuntime.new canonical = .ok runtime) (below : NeverOverflows runtime calls)
    (collisionFree : CollisionFree (calls.filterMap RuntimeCall.artifact)) :
    let history := published runtime calls
    let state := afterCalls runtime calls
    InStep history state ∧
    ((OrdMap.values state.catalog.entries).map (·.key) ++ state.catalog.retired.map (·.key)).Nodup ∧
    (∀ protected_, ∀ d ∈ state.catalog.retired, d.key ∈ protected_ →
      d ∈ (state.reclaimRetired protected_).2.catalog.retired ∧
      (state.reclaimRetired protected_).2.artifacts[d.key]? = state.artifacts[d.key]?) ∧
    (∀ call e, state.catalog.revision ≠ lastRevision → (RuntimeCall.run state call).1 = .error e →
      (RuntimeCall.run state call).2 = state) ∧
    ∀ request efSearch plan, state.plan request efSearch = .ok plan →
      plan.selected.kind = .exactScan ∨ ∃ a, Selects history state plan.selected a := by
  have inStep := (inStep_new made).calls below (by rwa [List.nil_append])
  rw [List.nil_append] at inStep
  have among : ∀ a ∈ published runtime calls, a ∈ calls.filterMap RuntimeCall.artifact :=
    published_subset runtime calls
  have free : CollisionFree (published runtime calls) :=
    fun a ha b hb => collisionFree a (among a ha) b (among b hb)
  exact ⟨inStep, inStep.nodup_keys, inStep.protected_ free, fun call e => RuntimeCall.run_error,
    fun request efSearch plan => inStep.selected⟩

end Vyrm.Vector
