import Vyrm.Vector.Segment

/-!
# The access path of a search

`crates/vyrm-vector/src/plan.rs`: the paths that may serve a request, and the cheapest of them.
-/

namespace Vyrm.Vector
open Lib Vyrm.Core Std

/-- `AccessPathKind::is_approximate` (`plan.rs:17-19`). -/
def AccessPathKind.isApproximate (kind : AccessPathKind) : Bool := kind = .hnsw

/-- `RejectedPath` (`plan.rs:37-42`). -/
structure RejectedPath where
  id : ProjectionId
  kind : AccessPathKind
  reasons : List String
  deriving DecidableEq

/-- `PlanDecision` (`plan.rs:44-53`). -/
structure PlanDecision where
  id : ProjectionId
  kind : AccessPathKind
  generation : Nat
  sourceCursor : UInt64
  estimatedCandidates : Nat
  estimatedCost : Nat
  exactRerank : Nat
  deriving DecidableEq

/-- `SearchPlan` (`plan.rs:55-62`). -/
structure SearchPlan where
  selected : PlanDecision
  rejected : List RejectedPath
  requiredSourceCursor : UInt64
  requiredFilterProperties : List String
  approximationRequested : Bool
  deriving DecidableEq

/-- `EXACT_SCAN_PROJECTION_ID` (`plan.rs:6`), as an identifier. -/
def exactScanProjectionId : ProjectionId := ⟨"vector:exact-scan", by decide, by decide⟩

/-- `{:?}` of a state. -/
def ProjectionState.debug : ProjectionState → String
  | .building => "Building"
  | .ready => "Ready"
  | .quarantined => "Quarantined"
  | .retiring => "Retiring"

/-- A reason that applies under a condition. -/
def reasonIf (applies : Prop) [Decidable applies] (reason : String) : List String := if applies then [reason] else []

@[simp] theorem reasonIf_eq_nil {applies : Prop} [Decidable applies] {reason : String} :
    reasonIf applies reason = [] ↔ ¬ applies := by
  unfold reasonIf
  by_cases holds : applies
  · simp [holds]
  · simp [holds]

/-- `reject_reasons` (`plan.rs:164-204`). -/
def rejectReasons (request : SearchRequest) (candidate : CandidatePath) : List String :=
  reasonIf (candidate.stamp.validate ≠ .ok ()) "invalid projection stamp" ++
  reasonIf (candidate.stamp.state ≠ .ready) s!"projection state is {candidate.stamp.state.debug}, not ready" ++
  reasonIf (candidate.stamp.sourceCursor < request.read.commitCursor)
    s!"stale source coverage {candidate.stamp.sourceCursor} < required {request.read.commitCursor}" ++
  reasonIf (candidate.field ≠ request.field) "field mismatch" ++
  reasonIf (candidate.dimensions ≠ request.query.dimensions) "dimension mismatch" ++
  reasonIf (candidate.metric ≠ request.metric) "metric mismatch" ++
  reasonIf (candidate.embeddingModel ≠ request.embeddingModel) "embedding model mismatch" ++
  reasonIf (∃ property ∈ request.requiredProperties, property ∉ candidate.filterProperties)
    "filter coverage is incomplete" ++
  reasonIf (candidate.kind.isApproximate ∧ request.mode = .exact) "request requires exact candidate generation"

/-- What the planner asks of a path. -/
structure Accepts (request : SearchRequest) (candidate : CandidatePath) : Prop where
  stamp : candidate.stamp.validate = .ok ()
  ready : candidate.stamp.state = .ready
  fresh : request.read.commitCursor ≤ candidate.stamp.sourceCursor
  field : candidate.field = request.field
  dimensions : candidate.dimensions = request.query.dimensions
  metric : candidate.metric = request.metric
  model : candidate.embeddingModel = request.embeddingModel
  filter : ∀ property ∈ request.requiredProperties, property ∈ candidate.filterProperties
  mode : candidate.kind.isApproximate = true → request.mode ≠ .exact

theorem rejectReasons_eq_nil {request : SearchRequest} {candidate : CandidatePath} :
    rejectReasons request candidate = [] ↔ Accepts request candidate := by
  simp only [rejectReasons, List.append_eq_nil_iff, reasonIf_eq_nil, not_not, not_exists, not_and, UInt64.not_lt]
  constructor
  · rintro ⟨⟨⟨⟨⟨⟨⟨⟨stamp, ready⟩, fresh⟩, field⟩, dimensions⟩, metric⟩, model⟩, filter⟩, mode⟩
    exact ⟨stamp, ready, fresh, field, dimensions, metric, model, filter, mode⟩
  · intro accepts
    exact ⟨⟨⟨⟨⟨⟨⟨⟨accepts.stamp, accepts.ready⟩, accepts.fresh⟩, accepts.field⟩, accepts.dimensions⟩,
      accepts.metric⟩, accepts.model⟩, accepts.filter⟩, accepts.mode⟩

/-- `"00".repeat(32)`. -/
def zeroDigest : String := String.ofList (List.replicate 64 '0')

/-- The path that reads every canonical candidate (`plan.rs:89-107`). -/
def exactScan (request : SearchRequest) (exactScanCandidates : Nat) : CandidatePath :=
  { stamp :=
      { contractVersion := dataRuntimeContractVersion
        id := exactScanProjectionId
        generation := 1
        sourceCursor := request.read.commitCursor
        configDigest := zeroDigest
        artifactDigest := zeroDigest
        state := .ready }
    kind := .exactScan
    field := request.field
    dimensions := request.query.dimensions
    metric := request.metric
    embeddingModel := request.embeddingModel
    filterProperties := request.requiredProperties
    estimatedCandidates := exactScanCandidates
    estimatedCost := max exactScanCandidates 1 }

/-- What a mode keeps of the accepted paths (`plan.rs:123-128`). -/
def SearchMode.keeps (mode : SearchMode) (kind : AccessPathKind) : Bool :=
  match mode with
  | .exact => !kind.isApproximate
  | .allowApproximate _ => true
  | .requireApproximate _ => kind.isApproximate

/-- The number of hits that are scored again (`plan.rs:141-145`). -/
def SearchMode.exactRerank (mode : SearchMode) (topK : Nat) : Nat :=
  match mode with
  | .exact => topK
  | .allowApproximate exactRerank | .requireApproximate exactRerank => exactRerank

/-- The cheaper path comes first, and of equal ones that with the lower identity. -/
def CandidatePath.order (left right : CandidatePath) : Ordering :=
  (compare left.estimatedCost right.estimatedCost).then (compare left.stamp.id right.stamp.id)

def CandidatePath.Before (left right : CandidatePath) : Prop := left.order right ≠ .gt

instance (left right : CandidatePath) : Decidable (left.Before right) := inferInstanceAs (Decidable (_ ≠ _))

theorem CandidatePath.order_eq : CandidatePath.order =
    compareLex (compareOn CandidatePath.estimatedCost) (compareOn (·.stamp.id)) := rfl

instance : TransCmp CandidatePath.order := by
  rw [CandidatePath.order_eq]
  infer_instance

instance : Std.Total CandidatePath.Before := total_of_cmp

instance : IsTrans CandidatePath CandidatePath.Before := isTrans_of_cmp

/-- The paths a plan chooses from. -/
def acceptedPaths (request : SearchRequest) (exactScanCandidates : Nat) (candidates : List CandidatePath) :
    List CandidatePath :=
  (exactScan request exactScanCandidates :: candidates).filter fun candidate =>
    (rejectReasons request candidate).isEmpty && request.mode.keeps candidate.kind

/-- The paths a plan tells it has rejected. -/
def rejectedPaths (request : SearchRequest) (exactScanCandidates : Nat) (candidates : List CandidatePath) :
    List RejectedPath :=
  (exactScan request exactScanCandidates :: candidates).filterMap fun candidate =>
    let reasons := rejectReasons request candidate
    if reasons = [] then none else some ⟨candidate.stamp.id, candidate.kind, reasons⟩

/-- What a plan says of the path it has chosen (`plan.rs:147-155`). -/
def CandidatePath.decision (path : CandidatePath) (exactRerank : Nat) : PlanDecision :=
  { id := path.stamp.id
    kind := path.kind
    generation := path.stamp.generation
    sourceCursor := path.stamp.sourceCursor
    estimatedCandidates := path.estimatedCandidates
    estimatedCost := path.estimatedCost
    exactRerank }

/-- `VectorPlanner::plan` (`plan.rs:75-161`). -/
def VectorPlanner.plan (exactScanCandidates : Nat) (request : SearchRequest) (candidates : List CandidatePath) :
    Except Error SearchPlan := do
  request.validate
  match ((acceptedPaths request exactScanCandidates candidates).insertionSort CandidatePath.Before).head? with
  | none => invalid "no vector access path satisfies the request contract"
  | some selected =>
    return {
      selected := selected.decision (request.mode.exactRerank request.topK)
      rejected := rejectedPaths request exactScanCandidates candidates
      requiredSourceCursor := request.read.commitCursor
      requiredFilterProperties := request.requiredProperties
      approximationRequested := request.mode ≠ .exact }

theorem mem_acceptedPaths {request : SearchRequest} {exactScanCandidates : Nat} {candidates : List CandidatePath}
    {path : CandidatePath} :
    path ∈ acceptedPaths request exactScanCandidates candidates ↔
      (path = exactScan request exactScanCandidates ∨ path ∈ candidates) ∧ Accepts request path ∧
        request.mode.keeps path.kind = true := by
  rw [acceptedPaths, List.mem_filter, List.mem_cons, Bool.and_eq_true, List.isEmpty_iff, rejectReasons_eq_nil]

/-- The path of a plan is an accepted one, and none comes before it. -/
theorem VectorPlanner.plan_ok {exactScanCandidates : Nat} {request : SearchRequest} {candidates : List CandidatePath}
    {plan : SearchPlan} (planned : VectorPlanner.plan exactScanCandidates request candidates = .ok plan) :
    request.validate = .ok () ∧ ∃ path ∈ acceptedPaths request exactScanCandidates candidates,
      plan.selected = path.decision (request.mode.exactRerank request.topK) ∧
      ((acceptedPaths request exactScanCandidates candidates).insertionSort CandidatePath.Before).head? = some path := by
  obtain ⟨⟨⟩, valid, chosen⟩ := except_bind_ok.mp planned
  split at chosen
  · cases chosen
  · rename_i path first
    have listed := List.mem_of_mem_head? first
    rw [List.mem_insertionSort] at listed
    cases chosen
    exact ⟨valid, path, listed, rfl, first⟩

/-- The exact scan is always acceptable. -/
theorem accepts_exactScan (request : SearchRequest) (exactScanCandidates : Nat) :
    Accepts request (exactScan request exactScanCandidates) := by
  refine ⟨?_, rfl, UInt64.le_refl _, rfl, rfl, rfl, rfl, fun property member => member, fun approximate => ?_⟩
  · have digest : ∀ kind, validateDigest kind zeroDigest = .ok () := by
      intro kind
      unfold validateDigest
      rw [if_neg (by decide +kernel)]
    unfold ProjectionStamp.validate
    rw [if_neg (by simp [exactScan])]
    show (validateDigest _ zeroDigest >>= fun _ => validateDigest _ zeroDigest) = .ok ()
    rw [digest, digest]
    rfl
  · cases approximate

/-- An exact request always has a plan. -/
theorem VectorPlanner.exists_plan {request : SearchRequest} (valid : request.validate = .ok ())
    (exact_ : request.mode = .exact) (exactScanCandidates : Nat) (candidates : List CandidatePath) :
    ∃ plan, VectorPlanner.plan exactScanCandidates request candidates = .ok plan := by
  have listed : exactScan request exactScanCandidates ∈
      (acceptedPaths request exactScanCandidates candidates).insertionSort CandidatePath.Before := by
    rw [List.mem_insertionSort, mem_acceptedPaths, exact_]
    exact ⟨.inl rfl, accepts_exactScan _ _, rfl⟩
  unfold VectorPlanner.plan
  rw [valid, except_ok_bind]
  cases first : ((acceptedPaths request exactScanCandidates candidates).insertionSort CandidatePath.Before).head? with
  | none =>
    rw [List.head?_eq_none_iff.mp first] at listed
    cases listed
  | some path => exact ⟨_, rfl⟩

end Vyrm.Vector
