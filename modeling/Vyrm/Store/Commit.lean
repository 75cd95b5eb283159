import Vyrm.Core.Runtime.Envelope
import Vyrm.Kv.Error

/-!
# What the engines share

`crates/vyrm-store/src/error.rs`, and the parts of a commit that do not depend on how
an engine stores its state, which both engines write out.
-/

namespace Vyrm.Store
open Lib Vyrm.Core

/-- `Error` (`error.rs:8-54`), as far as the modelled operations raise it. Where the source keeps the
text of another error, the storage's error or the value that could not be read stands for it. -/
inductive Error where
  | substrate (message : String)
  | storage (error : Kv.Error)
  | codec (message : String)
  | kernel (error : Core.Error)
  | sequenceOverflow
  | quarantined (message : String)
  | corruptWatermark (value : Bytes)
  | runtimeConflict (expected actual : UInt64)
  | danglingRuntimeReference (reference : String)
  | runtimeSchemaMissing (scope : String)
  | runtimeSchemaConflict (expected actual : UInt64)
  | readStampUnavailable (manifest : String)
  | readStampMismatch (manifest : String)
  | migration (message : String)
  | faultInjected (point : String)
  deriving DecidableEq

/-- `Error::from(vyrm_core::Error)`. -/
def kernel {α : Type} : Except Core.Error α → Except Error α
  | .ok a => .ok a
  | .error e => .error (.kernel e)

@[simp] theorem kernel_ok_iff {α : Type} {x : Except Core.Error α} {a : α} :
    kernel x = .ok a ↔ x = .ok a := by
  cases x with
  | error e => simp [kernel]
  | ok b => simp [kernel]

/-- `checked_add(1).ok_or(Error::SequenceOverflow)`. -/
def checkedSucc (value : UInt64) : Except Error UInt64 :=
  if value = u64Max then .error .sequenceOverflow else .ok (value + 1)

/-- `AppendOutcome` (`store.rs:20-24`). -/
structure AppendOutcome where
  firstSequence : UInt64
  lastSequence : UInt64
  count : Nat
  deriving DecidableEq, Repr

/-! ## Checks of a commit -/

/-- The registry a commit proposes (`engine.rs:686-689`, `native.rs:730-733`). -/
def proposedSchema (commit : RuntimeCommit) : Option RuntimeSchemaRegistry :=
  commit.mutations.findSome? fun
    | .schema registry => some registry
    | _ => none

/-- `u64::saturating_add(1)`. -/
def saturatingSucc (value : UInt64) : UInt64 := if value = u64Max then u64Max else value + 1

/-- The registry a commit is checked against (`engine.rs:690-715`, `native.rs:734-756`). -/
def effectiveSchema (previous : Option RuntimeSchemaRegistry) (commit : RuntimeCommit) :
    Except Error RuntimeSchemaRegistry :=
  match previous, proposedSchema commit with
  | none, some registry =>
    if registry.revision = 1 then .ok registry
    else .error (.runtimeSchemaConflict 1 registry.revision)
  | some previous, some registry =>
    if registry.revision = saturatingSucc previous.revision then .ok registry
    else .error (.runtimeSchemaConflict (saturatingSucc previous.revision) registry.revision)
  | some previous, none => .ok previous
  | none, none => .error (.runtimeSchemaMissing commit.scope.asStr)

/-- The records of a commit (`engine.rs:733-740`, `native.rs:786-793`). -/
def newRecords (commit : RuntimeCommit) : List RuntimeRef :=
  commit.mutations.filterMap fun
    | .record record => some record.reference
    | _ => none

/-- What a mutation refers to (`engine.rs:742-752`, `native.rs:795-805`). -/
def references : RuntimeMutation → List RuntimeRef
  | .relation relation => [relation.from_, relation.to_]
  | .event event => event.subject.toList
  | .vector vector => [vector.subject]
  | .seriesSample sample => [sample.series]
  | .geo geo => [geo.subject]
  | .object object => object.subject.toList
  | .claim _ => []
  | .schema _ => []
  | .record _ => []

/-- Every reference is to a record of the commit or to a known one (`engine.rs:741-766`,
`native.rs:794-823`). -/
def checkReferences (known : RuntimeRef → Except Error Bool) (commit : RuntimeCommit) : Except Error Unit :=
  commit.mutations.forM fun mutation => (references mutation).forM fun reference =>
    if (newRecords commit).contains reference then .ok ()
    else do
      if ¬ (← known reference) then
        throw (.danglingRuntimeReference (reference.shown ++ " in scope " ++ commit.scope.asStr))

/-- The claims of a commit (`engine.rs:768-775`). -/
def commitClaims (commit : RuntimeCommit) : List Claim :=
  commit.mutations.filterMap fun
    | .claim claim => some claim
    | _ => none

/-- The projection work of a commit from one of its mutations on (`engine.rs:791-799`,
`native.rs:895-911`). -/
def commitWork (commit : RuntimeCommit) (commitId : String) (start : UInt64) :
    List RuntimeMutation → Nat → Except Core.Error (List ProjectionWork)
  | [], _ => .ok []
  | mutation :: rest, ordinal =>
    match projectionFamily mutation with
    | none => commitWork commit commitId start rest (ordinal + 1)
    | some family => do
      let work ← ProjectionWork.forChange commit.scope (start + UInt64.ofNat ordinal + 1) commitId
        (UInt64.ofNat ordinal) family
      return work :: (← commitWork commit commitId start rest (ordinal + 1))

end Vyrm.Store
