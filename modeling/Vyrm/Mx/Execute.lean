import Vyrm.Mx.Plan

/-!
# Executing a plan

`crates/vyrm-mx/src/execute.rs`: the reference executor. It reads the log of a scope up to the
known cursor, makes the rows of a source, and filters, orders, cuts and batches them.
-/

namespace Vyrm.Mx
open Lib Vyrm.Core Vyrm.Ql

/-- `ExecutionBudget` (`execute.rs:11-16`). -/
structure ExecutionBudget where
  maxScannedChanges : Nat
  maxRows : Nat
  maxOutputBytes : Nat
  maxBatchRows : Nat
  deriving DecidableEq

/-- `ExecutionBudget::default` (`execute.rs:18-27`). -/
def ExecutionBudget.default : ExecutionBudget :=
  { maxScannedChanges := 100000, maxRows := 10000, maxOutputBytes := 8 * 1024 * 1024, maxBatchRows := 256 }

/-- `ExecutionBudget::validate` (`execute.rs:30-42`). -/
def ExecutionBudget.validate (budget : ExecutionBudget) : Except Error Unit :=
  if budget.maxScannedChanges = 0 ∨ budget.maxRows = 0 ∨ budget.maxOutputBytes = 0 ∨ budget.maxBatchRows = 0 then
    .error (.budget "all execution budgets must be greater than zero")
  else .ok ()

/-- `QueryRow` (`execute.rs:45-48`). -/
structure QueryRow where
  identity : String
  values : RuntimeProperties
  deriving DecidableEq

/-- `QueryBatch` (`execute.rs:51-55`). -/
structure QueryBatch where
  ordinal : Nat
  rows : List QueryRow
  done : Bool
  deriving DecidableEq

/-- `QueryExecution` (`execute.rs:58-68`). -/
structure QueryExecution where
  planDigest : String
  readManifest : String
  validAt : UInt64
  knownAtCursor : UInt64
  scannedChanges : Nat
  returnedRows : Nat
  outputBytes : Nat
  truncated : Bool
  batches : List QueryBatch
  deriving DecidableEq

/-- The rows of an execution, batch after batch. -/
def QueryExecution.rows (execution : QueryExecution) : List QueryRow := execution.batches.flatMap (·.rows)

/-- `PlanShape` (`execute.rs:162-167`). -/
structure PlanShape where
  source : Source
  filters : List BoundFilter
  projection : Projection
  limit : Option UInt64
  deriving DecidableEq

/-- The loop of `PlanShape::read` (`execute.rs:171-183`). -/
def PlanShape.collect : List LogicalOperator →
    Option Source × List BoundFilter × Option Projection × Option UInt64 →
    Option Source × List BoundFilter × Option Projection × Option UInt64
  | [], found => found
  | operator :: operators, (source, filters, projection, limit) =>
    collect operators <|
      match operator with
      | .scan value => (some value, filters, projection, limit)
      | .filter predicates => (source, filters ++ predicates, projection, limit)
      | .project value => (source, filters, some value, limit)
      | .limit rows => (source, filters, projection, some rows)
      | .temporal _ _ => (source, filters, projection, limit)

/-- `PlanShape::read` (`execute.rs:170-191`). -/
def PlanShape.read (plan : PhysicalPlan) : Except Error PlanShape :=
  match PlanShape.collect plan.logical.operators (none, [], none, none) with
  | (some source, filters, some projection, limit) => .ok ⟨source, filters, projection, limit⟩
  | (none, _, _, _) => .error (.integrity "logical plan has no scan")
  | (some _, _, none, _) => .error (.integrity "logical plan has no projection")

/-! ## Rows -/

/-- `BTreeMap::insert` of a row value. -/
def insertValue (key : String) (value : RuntimeValue) : RuntimeProperties → RuntimeProperties
  | [] => [(key, value)]
  | (other, stored) :: rest =>
    if key = other then (key, value) :: rest
    else if utf8 key < utf8 other then (key, value) :: (other, stored) :: rest
    else (other, stored) :: insertValue key value rest

/-- A value under each key, one after the other. -/
def insertValues (properties : RuntimeProperties) (values : List (String × RuntimeValue)) : RuntimeProperties :=
  values.foldl (fun properties value => insertValue value.1 value.2 properties) properties

/-- `optional_u64` (`execute.rs:350-352`). -/
def optionalU64 : Option UInt64 → RuntimeValue
  | none => .null
  | some value => .unsigned value

/-- The rows of records (`execute.rs:213-221`). -/
def recordRow (record : RuntimeRecord) : QueryRow :=
  { identity := "record:" ++ record.reference.kind.asStr ++ ":" ++ record.reference.id.asStr
    values := insertValues record.properties
      [("id", .string record.reference.id.asStr), ("kind", .string record.reference.kind.asStr),
       ("valid_from", .unsigned record.validFrom), ("valid_to", optionalU64 record.validTo)] }

/-- The rows of relations (`execute.rs:235-250`). -/
def relationRow (relation : RuntimeRelation) : QueryRow :=
  { identity := "relation:" ++ relation.reference.kind.asStr ++ ":" ++ relation.reference.id.asStr
    values := insertValues relation.properties
      [("id", .string relation.reference.id.asStr), ("kind", .string relation.reference.kind.asStr),
       ("from_kind", .string relation.from_.kind.asStr), ("from_id", .string relation.from_.id.asStr),
       ("to_kind", .string relation.to_.kind.asStr), ("to_id", .string relation.to_.id.asStr),
       ("valid_from", .unsigned relation.validFrom), ("valid_to", optionalU64 relation.validTo)] }

/-- The rows of events (`execute.rs:265-290`). -/
def eventRow (change : RuntimeChange) (event : RuntimeEvent) : QueryRow :=
  { identity := "event:" ++ event.kind.asStr ++ ":" ++ decimalText change.cursor.toNat
    values := insertValues event.properties
      [("cursor", .unsigned change.cursor), ("kind", .string event.kind.asStr), ("at", .unsigned change.at_),
       ("actor", .string change.actor),
       ("subject_kind", match event.subject with
         | some subject => .string subject.kind.asStr
         | none => .null),
       ("subject_id", match event.subject with
         | some subject => .string subject.id.asStr
         | none => .null)] }

/-- The row of a claim (`execute.rs:315-332`). -/
def claimRow (subject : Subject) (predicate : Predicate) (claim : Claim) : QueryRow :=
  { identity := "claim:" ++ subject.asStr ++ ":" ++ predicate.asStr
    values := insertValues []
      [("subject", .string subject.asStr), ("predicate", .string predicate.asStr), ("object", .string claim.object),
       ("valid_from", .unsigned claim.validFrom), ("valid_to", optionalU64 claim.validTo),
       ("tx_time", .unsigned claim.txTime), ("actor", .string claim.producer.actor)] }

/-- The claim of a change that `claim_rows` groups (`execute.rs:301-307`). -/
def selectClaim (scope : ScopeId) (predicate : Option Predicate) (change : RuntimeChange) : Option Claim :=
  match change.mutation with
  | .claim claim =>
    if change.scope = scope ∧ predicate.all fun expected => claim.predicate = expected then some claim else none
  | _ => none

/-- The groups of `claim_rows` (`execute.rs:300-312`). -/
def claimGroups (claims : List Claim) : OrdMap (Subject × Predicate) (List Claim) :=
  claims.foldl (fun groups claim =>
    let key := (claim.subject, claim.predicate)
    groups.insert key (groups[key]?.getD [] ++ [claim])) ∅

/-- `claim_rows` (`execute.rs:294-334`). -/
def claimRows (changes : List RuntimeChange) (scope : ScopeId) (predicate : Option Predicate) (validAt : UInt64) :
    List QueryRow :=
  (claimGroups (changes.filterMap (selectClaim scope predicate))).toList.filterMap
    fun ((subject, predicate), candidates) =>
      (resolveAsOf candidates validAt).map (claimRow subject predicate)

/-- `rows_for_source` (`execute.rs:194-292`). -/
def rowsForSource (changes : List RuntimeChange) (scope : ScopeId) (source : Source)
    (validAt knownAtCursor : UInt64) : List QueryRow :=
  match source with
  | .record kind =>
    ((RuntimeGraphSnapshot.fromChanges changes scope validAt knownAtCursor).records.filter
      fun record => record.reference.kind = kind).map recordRow
  | .relation kind =>
    ((RuntimeGraphSnapshot.fromChanges changes scope validAt knownAtCursor).relations.filter
      fun relation => relation.reference.kind = kind).map relationRow
  | .event kind =>
    (changes.filter fun change =>
      change.cursor ≤ knownAtCursor && change.scope = scope && change.at_ ≤ validAt).filterMap fun change =>
        match change.mutation with
        | .event event => if event.kind = kind then some (eventRow change event) else none
        | _ => none
  | .claim predicate => claimRows changes scope predicate validAt

/-- `matches_filter` (`execute.rs:336-338`). -/
def matchesFilter (row : QueryRow) (filter : BoundFilter) : Bool :=
  row.values.lookup filter.field = some filter.value

/-- `apply_projection` (`execute.rs:340-344`). -/
def applyProjection (projection : Projection) (row : QueryRow) : QueryRow :=
  match projection with
  | .fields fields => { row with values := row.values.filter fun value => value.1 ∈ fields }
  | .all => row

/-! ## Execution -/

/-- `left.identity.cmp(&right.identity)`, at most. -/
def QueryRow.identityLe (left right : QueryRow) : Bool := utf8 left.identity ≤ utf8 right.identity

/-- The loop that fills the output budget (`execute.rs:120-131`): the rows, their bytes, and whether
the budget ran out. -/
def accept (rowText : QueryRow → Bytes) (projection : Projection) (maxBytes : Nat) :
    Nat → List QueryRow → List QueryRow × Nat × Bool
  | outputBytes, [] => ([], outputBytes, false)
  | outputBytes, row :: rows =>
    let row := applyProjection projection row
    let bytes := (rowText row).length
    if maxBytes < outputBytes + bytes then ([], outputBytes, true)
    else
      let (accepted, total, truncated) := accept rowText projection maxBytes (outputBytes + bytes) rows
      (row :: accepted, total, truncated)

/-- `accepted.chunks(max_batch_rows)`, numbered (`execute.rs:134-143`). -/
def batches (maxBatchRows : Nat) (accepted : List QueryRow) : List QueryBatch :=
  let count := (accepted.length + maxBatchRows - 1) / maxBatchRows
  (List.range count).map fun ordinal =>
    { ordinal, rows := (accepted.drop (ordinal * maxBatchRows)).take maxBatchRows
      done := ordinal + 1 = count }

/-- The JSON texts that `serde_json` makes. -/
structure Texts where
  plan : PlanText
  row : QueryRow → Bytes

/-- What an engine reads at a stamp: `Engine::runtime_read_changes`. -/
abbrev ReadChanges := ReadStamp → UInt64 → Nat → Except Store.Error RuntimeChangePage

/-- The changes up to the known cursor (`execute.rs:91-102`). -/
def scanChanges (engine : ReadChanges) (read : ReadStamp) (knownAtCursor : UInt64) :
    Except Error (List RuntimeChange) :=
  if knownAtCursor = 0 then .ok []
  else
    match engine read 0 knownAtCursor.toNat with
    | .error e => .error (.execution e)
    | .ok page =>
      let through := page.throughCursor
      if through ≠ knownAtCursor then
        .error (.integrity s!"stamped replay ended at {through}, expected {knownAtCursor}")
      else .ok page.changes

/-- What is left of the rows of a source before the byte budget (`execute.rs:111-121`). -/
def selectRows (shape : PlanShape) (rows : List QueryRow) : List QueryRow :=
  let rows := (rows.filter fun row => shape.filters.all (matchesFilter row)).mergeSort QueryRow.identityLe
  match shape.limit with
  | some limit => rows.take limit.toNat
  | none => rows

/-- `execute` (`execute.rs:70-160`). -/
def execute (texts : Texts) (engine : ReadChanges) (plan : PhysicalPlan) (budget : ExecutionBudget) :
    Except Error QueryExecution := do
  plan.verify texts.plan
  budget.validate
  let contract := plan.explanation.contract
  if contract.readManifest ≠ plan.logical.read.manifestId then
    throw (.integrity "plan explanation names a different read stamp")
  let requested := contract.knownAtCursor.toNat
  if budget.maxScannedChanges < requested then
    let allowed := budget.maxScannedChanges
    throw (.budget s!"query requires scanning {requested} changes, budget allows {allowed}")
  let changes ← scanChanges engine plan.logical.read contract.knownAtCursor
  let shape ← PlanShape.read plan
  let rows := selectRows shape
    (rowsForSource changes plan.logical.read.scope shape.source contract.validAt contract.knownAtCursor)
  let kept := rows.take budget.maxRows
  let rowTruncated : Bool := kept.length < rows.length
  let (accepted, outputBytes, byteTruncated) := accept texts.row shape.projection budget.maxOutputBytes 0 kept
  return { planDigest := plan.digest
           readManifest := plan.logical.read.manifestId
           validAt := contract.validAt
           knownAtCursor := contract.knownAtCursor
           scannedChanges := requested
           returnedRows := accepted.length
           outputBytes
           truncated := byteTruncated || rowTruncated
           batches := batches budget.maxBatchRows accepted }

end Vyrm.Mx
