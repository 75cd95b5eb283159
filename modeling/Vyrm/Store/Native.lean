import Vyrm.Kv.Database.Read
import Vyrm.Store.Native.View

/-!
# The native engine

`NativeEngine` (`crates/vyrm-store/src/native.rs`): the engine over a `vyrm-kv`
database. A write is planned over a view of the database, and the plan is handed to
the database as one batch; a plan that fails has written nothing.
-/

namespace Vyrm.Store
open Lib Vyrm.Core Serde

/-! ## Operations -/

/-- `put` (`native.rs:1300-1305`). -/
def put (space : Keyspace) (key value : Bytes) : Kv.Mutation := .put (storageKey space key) value

/-- `put_sequence` (`native.rs:1307-1314`). -/
def putSequence (key : MetaKey) (sequence : UInt64) : Kv.Mutation :=
  put .metadata key.bytes (Format.nat.print sequence.toNat)

namespace View

variable [Codec]

/-! ## Appending -/

/-- The loop of `append_batch` (`native.rs:288-309`): the last sequence and the operations. -/
def appendOperations : List Claim → UInt64 → Except Error (UInt64 × List Kv.Mutation)
  | [], sequence => .ok (sequence, [])
  | claim :: rest, sequence => do
    let sequence ← checkedSucc sequence
    let encodedClaim := toVec claim
    let (last, operations) ← appendOperations rest sequence
    return (last, put .sequenceIndex (sequenceKey sequence) (encodeSequenceValue encodedClaim) ::
      put .claims claim.key encodedClaim :: operations)

/-- `append_batch` up to its write (`native.rs:273-310`): the outcome, and the operations unless
nothing is written. -/
def planAppend (view : View) (claims : List Claim) :
    Except Error (AppendOutcome × Option (List Kv.Mutation)) := do
  kernel (claims.forM Claim.validate)
  let start ← view.readSequence .sequenceWatermark
  if claims = [] then
    return ({ firstSequence := start, lastSequence := start, count := 0 }, none)
  let (sequence, operations) ← appendOperations claims start
  return ({ firstSequence := start + 1, lastSequence := sequence, count := claims.length },
    some (operations ++ [putSequence .sequenceWatermark sequence]))

/-! ## Commits -/

/-- What the loop over the mutations of a commit carries along (`native.rs:826-853`). -/
structure Lowering where
  claimSequence : UInt64
  cursor : UInt64
  previousDigest : Option String
  outboxCount : Nat

/-- The claim of a mutation (`native.rs:855-881`). -/
def lowerClaim (sequence : UInt64) : RuntimeMutation → Except Error (UInt64 × List Kv.Mutation)
  | .claim claim => do
    kernel claim.validate
    let sequence ← checkedSucc sequence
    return (sequence, [put .sequenceIndex (sequenceKey sequence) claim.key,
      put .claims claim.key (toVec claim)])
  | _ => .ok (sequence, [])

/-- The projection work of a mutation (`native.rs:899-914`). -/
def lowerWork (commit : RuntimeCommit) (commitId : String) (ordinal : Nat) (cursor : UInt64)
    (mutation : RuntimeMutation) : Except Error (List Kv.Mutation) :=
  match projectionFamily mutation with
  | none => .ok []
  | some family => do
    let work ← kernel (ProjectionWork.forChange commit.scope cursor commitId (UInt64.ofNat ordinal) family)
    return [put .runtimeOutbox (be64 cursor) (toVec work)]

/-- What a mutation stores beside the log (`native.rs:915-960`). -/
def lowerState (scope : ScopeId) : RuntimeMutation → List Kv.Mutation
  | .schema registry => [put .runtimeSchemas scope.bytes (toVec registry)]
  | .record record =>
    [put .runtimeRecords (runtimeIdentityKey scope record.reference) (toVec record)]
  | .relation relation =>
    [put .runtimeRelations (runtimeIdentityKey scope relation.reference) (toVec relation)]
  | .vector vector =>
    [put .runtimeVectors (runtimeIdentityKey scope vector.reference) (toVec vector)]
  | .seriesSample sample =>
    [put .runtimeSeries (runtimeIdentityKey scope sample.reference) (toVec sample)]
  | .geo geo => [put .runtimeGeo (runtimeIdentityKey scope geo.reference) (toVec geo)]
  | .object object =>
    [put .runtimeObjects (runtimeIdentityKey scope object.reference) (toVec object)]
  | .claim _ => []
  | .event _ => []

/-- One turn of the loop (`native.rs:854-962`). -/
def lowerMutation (commit : RuntimeCommit) (commitId : String) (ordinal : Nat) (at_ : Lowering)
    (mutation : RuntimeMutation) : Except Error (Lowering × List Kv.Mutation) := do
  let (claimSequence, claimOperations) ← lowerClaim at_.claimSequence mutation
  let cursor ← checkedSucc at_.cursor
  let change := RuntimeChange.committed cursor commit commitId (UInt64.ofNat ordinal) mutation
    at_.previousDigest
  let workOperations ← lowerWork commit commitId ordinal cursor mutation
  return ({ claimSequence, cursor, previousDigest := some change.digest,
            outboxCount := at_.outboxCount + workOperations.length },
    claimOperations ++ put .runtimeChanges (be64 cursor) (toVec change) ::
      (workOperations ++ lowerState commit.scope mutation))

/-- The loop over the mutations of a commit. -/
def lower (commit : RuntimeCommit) (commitId : String) :
    List RuntimeMutation → Nat → Lowering → Except Error (Lowering × List Kv.Mutation)
  | [], _, at_ => .ok (at_, [])
  | mutation :: rest, ordinal, at_ => do
    let (next, operations) ← lowerMutation commit commitId ordinal at_ mutation
    let (last, later) ← lower commit commitId rest (ordinal + 1) next
    return (last, operations ++ later)

/-- The objects of the scope that uniqueness and cardinality are checked against, read only when
some type of the schema asks for it (`native.rs:757-783`). -/
def existingObjects (view : View) (effective : RuntimeSchemaRegistry) (scope : ScopeId) :
    Except Error (List RuntimeRecord × List RuntimeRelation) := do
  let existingRecords ←
    if effective.records.any fun (_, schema) => ¬ schema.uniqueProperties.isEmpty then
      view.valuesForScope .runtimeRecords scope
    else pure []
  let existingRelations ←
    if effective.relations.any fun (_, schema) =>
        schema.uniquePair || schema.maxOutgoing.isSome || schema.maxIncoming.isSome then
      view.valuesForScope .runtimeRelations scope
    else pure []
  return (existingRecords, existingRelations)

/-- The checks of `prepare_native_runtime_commit` (`native.rs:712-823`). -/
def checkCommit (view : View) (commit : RuntimeCommit) : Except Error Unit := do
  kernel commit.validate
  let start ← view.readSequence .runtimeCursor
  if start ≠ commit.expectedCursor then throw (.runtimeConflict commit.expectedCursor start)
  let previousSchema ← view.readJson .runtimeSchemas commit.scope.bytes
  let effective ← effectiveSchema previousSchema commit
  let (existingRecords, existingRelations) ← view.existingObjects effective commit.scope
  kernel (effective.validateObjects commit.mutations existingRecords existingRelations)
  checkReferences (fun reference => do
    return (← view.read .runtimeRecords (runtimeIdentityKey commit.scope reference)).isSome) commit

/-- `prepare_native_runtime_commit` after its checks (`native.rs:825-1004`). -/
def lowerCommit (view : View) (commit : RuntimeCommit) :
    Except Error (RuntimeCommitOutcome × List Kv.Mutation) := do
  let commitId := commit.digest
  let start ← view.readSequence .runtimeCursor
  let claimCount := (commitClaims commit).length
  let claimStart ← view.readSequence .sequenceWatermark
  let previousDigest ← view.readDigest .runtimeLastDigest
  let previousAuditDigest ← view.readDigest .runtimeLastAuditDigest
  let (last, operations) ← lower commit commitId commit.mutations 0
    { claimSequence := claimStart, cursor := start, previousDigest, outboxCount := 0 }
  let audit ← kernel
    (AuditEnvelope.acceptedCommit commit commitId last.cursor previousAuditDigest)
  let outcome : RuntimeCommitOutcome :=
    { commitId
      firstCursor := start + 1
      lastCursor := last.cursor
      count := commit.mutations.length
      firstClaimSequence := if 0 < claimCount then some (claimStart + 1) else none
      lastClaimSequence := if 0 < claimCount then some last.claimSequence else none
      outboxCount := last.outboxCount }
  let watermark :=
    if 0 < claimCount then [putSequence .sequenceWatermark last.claimSequence] else []
  return (outcome, operations ++ watermark ++
    [putSequence .runtimeCursor last.cursor,
      put .metadata MetaKey.runtimeLastDigest.bytes (utf8 (last.previousDigest.getD "")),
      put .runtimeAudit (utf8 commitId) (toVec audit),
      put .metadata MetaKey.runtimeLastAuditDigest.bytes (utf8 audit.digest),
      put .runtimeCommits (utf8 commitId) (toVec outcome)])

/-- `prepare_native_runtime_commit` (`native.rs:708-1004`). -/
def prepareCommit (view : View) (commit : RuntimeCommit) :
    Except Error (RuntimeCommitOutcome × List Kv.Mutation) := do
  view.checkCommit commit
  view.lowerCommit commit

/-- `native_runtime_commit_outcome` (`native.rs:1009-1028`). -/
def commitOutcome (view : View) (commitId : String) : Except Error (Option RuntimeCommitOutcome) := do
  let outcome : Option RuntimeCommitOutcome ← view.readJson .runtimeCommits (utf8 commitId)
  if ∃ found ∈ outcome, found.commitId ≠ commitId then
    throw (.substrate "runtime commit outcome key does not match its content identity")
  return outcome

end View

/-! ## The engine -/

/-- `NativeEngine` (`native.rs:31-34`). -/
structure NativeEngine where
  database : Kv.Database

namespace NativeEngine

variable [Kv.Platform]

/-- What the current snapshot of a database answers. -/
def view (engine : NativeEngine) : View where
  get key := engine.database.get key engine.database.snapshot
  scan start stop := engine.database.scan start stop engine.database.snapshot

/-- A fresh engine: `open` of a path at which there is nothing (`native.rs:40-64`). -/
def create : Kv.Io NativeEngine := do return ⟨← Kv.Database.create⟩

/-- `write` (`native.rs:1289-1298`). -/
def write (engine : NativeEngine) (operations : List Kv.Mutation) :
    Kv.Io (Except Error Unit × NativeEngine) := do
  match Kv.WriteBatch.new operations with
  | .error e => return (.error (.storage e), engine)
  | .ok batch =>
    let (result, database) ← engine.database.writeOwned batch .authoritative
    return (storage (result.map fun _ => ()), ⟨database⟩)

/-- The end of an operation: what was planned is written, and then the outcome is returned. -/
def writing {α : Type} (engine : NativeEngine) (plan : Except Error (α × Option (List Kv.Mutation))) :
    Kv.Io (Except Error α × NativeEngine) := do
  match plan with
  | .error e => return (.error e, engine)
  | .ok (outcome, none) => return (.ok outcome, engine)
  | .ok (outcome, some operations) =>
    let (result, engine) ← engine.write operations
    return (result.map fun _ => outcome, engine)

variable [Codec]

/-- `append_batch` (`native.rs:272-318`). -/
def appendBatch (engine : NativeEngine) (claims : List Claim) :
    Kv.Io (Except Error AppendOutcome × NativeEngine) :=
  engine.writing (engine.view.planAppend claims)

/-- `commit_runtime` (`native.rs:597-603`). -/
def commitRuntime (engine : NativeEngine) (commit : RuntimeCommit) :
    Kv.Io (Except Error RuntimeCommitOutcome × NativeEngine) :=
  engine.writing do
    let (outcome, operations) ← engine.view.prepareCommit commit
    return (outcome, some operations)

end NativeEngine

end Vyrm.Store
