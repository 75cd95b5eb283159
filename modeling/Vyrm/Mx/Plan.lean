import Vyrm.Ql
import Vyrm.Store.Memory

/-!
# Query plans

`crates/vyrm-mx/src/plan.rs` and `error.rs`: the plan of a bound query, and its verification.
A plan is sealed by the digest of its JSON text, which `serde_json` makes; the text is a
parameter.
-/

namespace Vyrm.Mx
open Lib Vyrm.Core Vyrm.Ql

/-- `Error` (`error.rs:6-12`). The error of a store or of the kernel stands for its text. -/
inductive Error where
  | catalog (detail : String)
  | binding (detail : String)
  | budget (detail : String)
  | execution (error : Store.Error)
  | integrity (detail : String)
  | invalidRead (error : Core.Error)
  deriving DecidableEq

/-- `BoundFilter` (`plan.rs:13-16`). -/
structure BoundFilter where
  field : String
  value : RuntimeValue
  deriving DecidableEq

/-- `BoundQuery` (`plan.rs:19-30`). -/
structure BoundQuery where
  contractVersion : UInt16
  read : ReadStamp
  source : Source
  validAt : UInt64
  knownAtCursor : UInt64
  filters : List BoundFilter
  projection : Projection
  limit : Option UInt64
  explainContract : Bool
  schemaRevision : UInt64
  deriving DecidableEq

/-- `LogicalOperator` (`plan.rs:34-40`). -/
inductive LogicalOperator where
  | scan (source : Source)
  | temporal (validAt knownAtCursor : UInt64)
  | filter (predicates : List BoundFilter)
  | project (projection : Projection)
  | limit (rows : UInt64)
  deriving DecidableEq

/-- `LogicalPlan` (`plan.rs:43-48`). -/
structure LogicalPlan where
  contractVersion : UInt16
  read : ReadStamp
  schemaRevision : UInt64
  operators : List LogicalOperator
  deriving DecidableEq

/-- `PhysicalOperator` (`plan.rs:52-59`). -/
inductive PhysicalOperator where
  | authoritativeLogScan (throughCursor : UInt64) (exact_ : Bool) (stableOrder : String)
  | referenceEvaluate
  deriving DecidableEq

/-- `CandidatePath` (`plan.rs:62-67`). -/
structure CandidatePath where
  name : String
  selected : Bool
  exact_ : Bool
  reason : String
  deriving DecidableEq

/-- `ExecutionContract` (`plan.rs:70-81`). -/
structure ExecutionContract where
  readManifest : String
  scope : String
  validAt : UInt64
  knownAtCursor : UInt64
  schemaRevision : UInt64
  exact_ : Bool
  deterministicOrder : String
  networkRequired : Bool
  gpuRequired : Bool
  authorizationBoundary : String
  deriving DecidableEq

/-- `PlanExplanation` (`plan.rs:84-87`). -/
structure PlanExplanation where
  contract : ExecutionContract
  candidates : List CandidatePath
  deriving DecidableEq

/-- `PhysicalPlan` (`plan.rs:90-95`). -/
structure PhysicalPlan where
  logical : LogicalPlan
  operators : List PhysicalOperator
  explanation : PlanExplanation
  digest : String
  deriving DecidableEq

/-- The JSON text of what a plan digest seals. -/
abbrev PlanText := LogicalPlan → List PhysicalOperator → PlanExplanation → Bytes

/-- `plan_digest` (`plan.rs:267-274`). -/
def planDigest (json : PlanText) (logical : LogicalPlan) (physical : List PhysicalOperator)
    (explanation : PlanExplanation) : String :=
  sha256Hex (json logical physical explanation)

/-- The operators of a bound query (`plan.rs:169-190`). -/
def BoundQuery.operators (bound : BoundQuery) : List LogicalOperator :=
  [.scan bound.source, .temporal bound.validAt bound.knownAtCursor] ++
    (if bound.filters = [] then [] else [.filter bound.filters]) ++ [.project bound.projection] ++
    match bound.limit with
    | some rows => [.limit rows]
    | none => []

/-- `plan` (`plan.rs:168-238`). -/
def plan (json : PlanText) (bound : BoundQuery) : PhysicalPlan :=
  let logical : LogicalPlan :=
    { contractVersion := bound.contractVersion, read := bound.read,
      schemaRevision := bound.schemaRevision, operators := bound.operators }
  let explanation : PlanExplanation :=
    { contract :=
        { readManifest := bound.read.manifestId, scope := bound.read.scope.asStr, validAt := bound.validAt,
          knownAtCursor := bound.knownAtCursor, schemaRevision := bound.schemaRevision, exact_ := true,
          deterministicOrder := "identity_ascending", networkRequired := false, gpuRequired := false,
          authorizationBoundary := "scope:" ++ bound.read.scope.asStr }
      candidates :=
        [{ name := "authoritative_log_scan", selected := true, exact_ := true,
           reason := "replays the immutable log at the captured read stamp" },
         { name := "derived_projection", selected := false, exact_ := false,
           reason := "rejected: no projection generation and grounding proof supplied" }] }
  let operators : List PhysicalOperator :=
    [.authoritativeLogScan bound.knownAtCursor true "global_cursor", .referenceEvaluate]
  { logical, operators, explanation, digest := planDigest json logical operators explanation }

/-- `PhysicalPlan::verify` (`plan.rs:241-265`). -/
def PhysicalPlan.verify (json : PlanText) (plan : PhysicalPlan) : Except Error Unit :=
  let version := plan.logical.contractVersion
  if version ≠ queryContractVersion then
    .error (.integrity s!"unsupported query contract version {version}")
  else
    match plan.logical.read.validate with
    | .error e => .error (.invalidRead e)
    | .ok () =>
      if plan.digest ≠ planDigest json plan.logical plan.operators plan.explanation then
        .error (.integrity "physical plan digest does not match its contract")
      else if plan.explanation.contract.exact_ = false then
        .error (.integrity "reference executor requires an exact plan")
      else .ok ()

/-- The plan of a bound query verifies when its stamp does. -/
theorem verify_plan {json : PlanText} {bound : BoundQuery}
    (version : bound.contractVersion = queryContractVersion) (stamped : bound.read.validate = .ok ()) :
    (plan json bound).verify json = .ok () := by
  simp [PhysicalPlan.verify, plan, version, stamped]

end Vyrm.Mx
