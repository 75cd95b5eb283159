import Vyrm.Vector.Hnsw
import Vyrm.Vector.Plan

/-!
# The vector runtime

`crates/vyrm-vector/src/catalog.rs` and `runtime.rs`: the catalog of published generations, the
artifacts installed for them, and the search that goes through the planner. An operation that fails
leaves behind what it had changed until then, so it returns its result and the next state.
-/

namespace Vyrm.Vector
open Lib Vyrm.Core Std

/-! ## The catalog -/

/-- `VectorProjectionDescriptor` (`catalog.rs:7-12`). -/
inductive VectorProjectionDescriptor where
  | exactSegment (descriptor : SegmentDescriptor)
  | hnsw (descriptor : HnswDescriptor)
  deriving DecidableEq

namespace VectorProjectionDescriptor

/-- `stamp` (`catalog.rs:15-20`). -/
def stamp : VectorProjectionDescriptor → ProjectionStamp
  | exactSegment descriptor => descriptor.stamp
  | hnsw descriptor => descriptor.stamp

/-- `stamp_mut().state = state` (`catalog.rs:22-27`). -/
def withState (state : ProjectionState) : VectorProjectionDescriptor → VectorProjectionDescriptor
  | exactSegment descriptor => .exactSegment { descriptor with stamp := { descriptor.stamp with state } }
  | hnsw descriptor => .hnsw { descriptor with stamp := { descriptor.stamp with state } }

/-- `validate` (`catalog.rs:29-34`). -/
def validate : VectorProjectionDescriptor → Except Error Unit
  | exactSegment descriptor => descriptor.validate
  | hnsw descriptor => descriptor.validate

/-- `candidate_path` (`catalog.rs:36-41`). -/
def candidatePath (estimatedCost : Nat) : VectorProjectionDescriptor → CandidatePath
  | exactSegment descriptor => descriptor.candidatePath estimatedCost
  | hnsw descriptor => descriptor.candidatePath estimatedCost

/-- Which of the two a descriptor is. -/
def kind : VectorProjectionDescriptor → AccessPathKind
  | exactSegment _ => .exactSegment
  | hnsw _ => .hnsw

/-- `same_kind` (`catalog.rs:43-49`). -/
def sameKind (descriptor other : VectorProjectionDescriptor) : Bool := descriptor.kind = other.kind

end VectorProjectionDescriptor

/-- The key of a generation. -/
structure GenerationKey where
  id : ProjectionId
  generation : Nat
  deriving DecidableEq

instance : Ord GenerationKey := ⟨compareLex (compareOn GenerationKey.id) (compareOn GenerationKey.generation)⟩

instance : TransOrd GenerationKey :=
  inferInstanceAs (TransCmp (compareLex (compareOn GenerationKey.id) (compareOn GenerationKey.generation)))

instance : LawfulEqOrd GenerationKey where
  eq_of_compare {a b} same := by
    obtain ⟨ids, generations⟩ := compareLex_eq_eq.mp same
    obtain ⟨a, g⟩ := a
    obtain ⟨b, h⟩ := b
    have ids : a = b := LawfulEqOrd.eq_of_compare ids
    have generations : g = h := LawfulEqOrd.eq_of_compare generations
    rw [ids, generations]

def VectorProjectionDescriptor.key (descriptor : VectorProjectionDescriptor) : GenerationKey :=
  ⟨descriptor.stamp.id, descriptor.stamp.generation⟩

/-- `VectorCatalog` (`catalog.rs:69-75`). -/
structure VectorCatalog where
  revision : UInt64
  entries : OrdMap ProjectionId VectorProjectionDescriptor
  retired : List VectorProjectionDescriptor

/-- `u64::MAX`. -/
def lastRevision : UInt64 := 0xffffffffffffffff

/-- `generation.saturating_add(1)`. -/
def nextGeneration (generation : Nat) : Nat := min (generation + 1) (2 ^ 64 - 1)

namespace VectorCatalog

/-- `VectorCatalog::default()`. -/
def empty : VectorCatalog := ⟨0, ∅, []⟩

/-- `expect_revision` (`catalog.rs:163-171`). -/
def expectRevision (catalog : VectorCatalog) (expectedRevision : UInt64) : Except Error Unit :=
  if catalog.revision ≠ expectedRevision then
    invalid s!"vector catalog conflict: expected revision {expectedRevision}, actual {catalog.revision}"
  else .ok ()

/-- `bump_revision` (`catalog.rs:173-181`). -/
def bumpRevision (catalog : VectorCatalog) : Except Error UInt64 × VectorCatalog :=
  if catalog.revision = lastRevision then (invalid "vector catalog revision overflowed", catalog)
  else (.ok (catalog.revision + 1), { catalog with revision := catalog.revision + 1 })

/-- What is checked against the current generation (`catalog.rs:94-110`). -/
def checkSuccessor (previous : Option VectorProjectionDescriptor) (descriptor : VectorProjectionDescriptor) :
    Except Error Unit :=
  match previous with
  | some previous =>
    if ¬ previous.sameKind descriptor then invalid "vector projection kind cannot change within one identity"
    else if descriptor.stamp.generation ≠ nextGeneration previous.stamp.generation then
      invalid "vector projection generation must advance exactly once"
    else if descriptor.stamp.sourceCursor < previous.stamp.sourceCursor then
      invalid "vector projection source coverage cannot move backward"
    else .ok ()
  | none =>
    if descriptor.stamp.generation ≠ 1 then invalid "first vector projection generation must be one" else .ok ()

/-- The checks of `publish` (`catalog.rs:84-110`). -/
def checkPublish (catalog : VectorCatalog) (expectedRevision : UInt64) (descriptor : VectorProjectionDescriptor) :
    Except Error Unit := do
  catalog.expectRevision expectedRevision
  descriptor.validate
  if descriptor.stamp.id = exactScanProjectionId then
    invalid "vector projection uses the reserved exact-scan identity"
  else if descriptor.stamp.state ≠ .ready then invalid "only a ready vector projection can be published"
  else checkSuccessor catalog.entries[descriptor.stamp.id]? descriptor

/-- The order of `retired` (`catalog.rs:114-119`). -/
def retire (retired : List VectorProjectionDescriptor) (previous : VectorProjectionDescriptor) :
    List VectorProjectionDescriptor :=
  (retired ++ [previous.withState .retiring]).insertionSort fun left right => compare left.key right.key ≠ .gt

/-- The catalog with a new generation in it (`catalog.rs:111-121`). -/
def enter (catalog : VectorCatalog) (descriptor : VectorProjectionDescriptor) : VectorCatalog :=
  { catalog with
    entries := catalog.entries.insert descriptor.stamp.id descriptor
    retired :=
      match catalog.entries[descriptor.stamp.id]? with
      | some previous => retire catalog.retired previous
      | none => catalog.retired }

/-- `publish` (`catalog.rs:79-123`). -/
def publish (catalog : VectorCatalog) (expectedRevision : UInt64) (descriptor : VectorProjectionDescriptor) :
    Except Error UInt64 × VectorCatalog :=
  match catalog.checkPublish expectedRevision descriptor with
  | .error e => (.error e, catalog)
  | .ok () => (catalog.enter descriptor).bumpRevision

/-- The generation that `quarantine` marks (`catalog.rs:132-143`). -/
def checkQuarantine (catalog : VectorCatalog) (expectedRevision : UInt64) (id : ProjectionId) (generation : Nat) :
    Except Error VectorProjectionDescriptor := do
  catalog.expectRevision expectedRevision
  let descriptor ← okOr catalog.entries[id]? (.invalidRuntime s!"vector projection {id.asStr} is absent")
  if descriptor.stamp.generation ≠ generation then invalid "vector quarantine generation differs from catalog"
  else if descriptor.stamp.state ≠ .ready then invalid "only a ready vector generation can be quarantined"
  else .ok descriptor

/-- `quarantine` (`catalog.rs:125-146`). -/
def quarantine (catalog : VectorCatalog) (expectedRevision : UInt64) (id : ProjectionId) (generation : Nat) :
    Except Error UInt64 × VectorCatalog :=
  match catalog.checkQuarantine expectedRevision id generation with
  | .error e => (.error e, catalog)
  | .ok descriptor =>
    { catalog with entries := catalog.entries.insert id (descriptor.withState .quarantined) }.bumpRevision

/-- `reclaim_retired` (`catalog.rs:148-160`). -/
def reclaimRetired (catalog : VectorCatalog) (protected_ : List GenerationKey) : List String × VectorCatalog :=
  let reclaimed := catalog.retired.filter fun descriptor => descriptor.key ∉ protected_
  ((reclaimed.map (·.stamp.artifactDigest)).insertionSort fun left right => utf8 left ≤ utf8 right,
    { catalog with retired := catalog.retired.filter fun descriptor => descriptor.key ∈ protected_ })

end VectorCatalog

/-! ## The runtime -/

/-- `VectorArtifact` (`runtime.rs:11-16`). -/
inductive VectorArtifact [SegmentEncoding] [HnswEncoding] where
  | exactSegment (segment : ImmutableVectorSegment)
  | compactDense (segment : CompactDenseSegment)
  | hnsw (index : HnswIndex)

variable [SegmentEncoding] [HnswEncoding]

/-- `VectorArtifact::descriptor` (`runtime.rs:19-25`). -/
def VectorArtifact.descriptor : VectorArtifact → VectorProjectionDescriptor
  | exactSegment segment => .exactSegment segment.descriptor
  | compactDense segment => .exactSegment segment.descriptor
  | hnsw index => .hnsw index.descriptor

/-- `SearchExecution` (`runtime.rs:46-50`). -/
structure SearchExecution (S : Type) where
  plan : SearchPlan
  hits : List (SearchHit S)

/-- `VectorRuntime` (`runtime.rs:58-63`). -/
structure VectorRuntime where
  canonical : List VectorCandidate
  catalog : VectorCatalog
  artifacts : OrdMap GenerationKey VectorArtifact

namespace VectorRuntime

/-- `new` (`runtime.rs:66-76`). -/
def new (canonical : List VectorCandidate) : Except Error VectorRuntime := do
  canonical.forM VectorCandidate.validate
  return ⟨canonical, .empty, ∅⟩

/-- `publish` (`runtime.rs:82-97`). -/
def publish (runtime : VectorRuntime) (expectedRevision : UInt64) (artifact : VectorArtifact) :
    Except Error UInt64 × VectorRuntime :=
  let descriptor := artifact.descriptor
  if descriptor.key ∈ runtime.artifacts then (invalid "vector artifact generation is already installed", runtime)
  else
    match runtime.catalog.publish expectedRevision descriptor with
    | (.error e, catalog) => (.error e, { runtime with catalog })
    | (.ok revision, catalog) =>
      (.ok revision, { runtime with catalog, artifacts := runtime.artifacts.insert descriptor.key artifact })

/-- `quarantine` (`runtime.rs:99-106`). -/
def quarantine (runtime : VectorRuntime) (expectedRevision : UInt64) (id : ProjectionId) (generation : Nat) :
    Except Error UInt64 × VectorRuntime :=
  let (result, catalog) := runtime.catalog.quarantine expectedRevision id generation
  (result, { runtime with catalog })

/-- `reclaim_retired` (`runtime.rs:108-115`). -/
def reclaimRetired (runtime : VectorRuntime) (protected_ : List GenerationKey) : List String × VectorRuntime :=
  let (reclaimed, catalog) := runtime.catalog.reclaimRetired protected_
  (reclaimed, { runtime with
    catalog
    artifacts := runtime.artifacts.filter fun _ artifact => artifact.descriptor.stamp.artifactDigest ∉ reclaimed })

/-- What a projection is estimated to cost (`runtime.rs:120-134`). -/
def estimatedCost (runtime : VectorRuntime) (request : SearchRequest) (efSearch : Nat) :
    VectorProjectionDescriptor → Nat
  | .exactSegment descriptor => max descriptor.candidateVersions 1
  | .hnsw descriptor =>
    match runtime.artifacts[(⟨descriptor.stamp.id, descriptor.stamp.generation⟩ : GenerationKey)]? with
    | some (.hnsw index) =>
      match index.estimatedSearchCost request efSearch with
      | .ok cost => cost
      | .error _ => max descriptor.nodes 1
    | _ => max descriptor.nodes 1

/-- The paths of the published projections (`runtime.rs:117-136`). -/
def paths (runtime : VectorRuntime) (request : SearchRequest) (efSearch : Nat) : List CandidatePath :=
  (OrdMap.values runtime.catalog.entries).map fun descriptor =>
    descriptor.candidatePath (runtime.estimatedCost request efSearch descriptor)

/-- The plan of a search (`runtime.rs:137`). -/
def plan (runtime : VectorRuntime) (request : SearchRequest) (efSearch : Nat) : Except Error SearchPlan :=
  VectorPlanner.plan runtime.canonical.length request (runtime.paths request efSearch)

/-- The artifact of a plan, checked against the catalog (`runtime.rs:141-157`). -/
def selectArtifact (runtime : VectorRuntime) (selected : PlanDecision) : Except Error VectorArtifact := do
  let artifact ← okOr runtime.artifacts[(⟨selected.id, selected.generation⟩ : GenerationKey)]?
    (.invalidRuntime "selected vector artifact bytes are absent")
  let published ← okOr runtime.catalog.entries[selected.id]?
    (.invalidRuntime "selected vector projection is absent from the catalog")
  if artifact.descriptor ≠ published then
    invalid "selected vector artifact differs from its catalog descriptor"
  else .ok artifact

variable {S : Type} [LinearOrder S] [Scoring S] [DenseKernel S]

/-- The search of the selected kind (`runtime.rs:158-169`). -/
def searchArtifact (kind : AccessPathKind) (artifact : VectorArtifact) (request : SearchRequest) (efSearch : Nat) :
    Except Error (List (SearchHit S)) :=
  match kind, artifact with
  | .exactSegment, .exactSegment segment => segment.search request
  | .exactSegment, .compactDense segment => segment.search request
  | .hnsw, .hnsw index => index.search request efSearch
  | _, _ => invalid "selected vector access path has the wrong artifact kind"

/-- The hits of a plan (`runtime.rs:138-169`). -/
def execute (runtime : VectorRuntime) (selected : PlanDecision) (request : SearchRequest) (efSearch : Nat) :
    Except Error (List (SearchHit S)) :=
  match selected.kind with
  | .exactScan => searchExact request runtime.canonical
  | .exactSegment | .hnsw => do
    let artifact ← runtime.selectArtifact selected
    searchArtifact selected.kind artifact request efSearch

/-- `search` (`runtime.rs:116-170`). -/
def search (runtime : VectorRuntime) (request : SearchRequest) (efSearch : Nat) :
    Except Error (SearchExecution S) := do
  let plan ← runtime.plan request efSearch
  let hits ← runtime.execute plan.selected request efSearch
  return ⟨plan, hits⟩

end VectorRuntime

end Vyrm.Vector
