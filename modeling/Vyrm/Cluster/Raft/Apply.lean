import Vyrm.Cluster.Raft
import Vyrm.Store.Native.Rows

/-!
# Applying committed entries

`apply`, `apply_command` and the snapshots of `crates/vyrm-cluster/src/openraft_adapter.rs`. The state
database is what `vyrm-kv` shows at its head: its rows, and how many mutations it has taken. Node-local
storage and the files of a snapshot are left out.
-/

namespace Vyrm.Cluster
open Lib Vyrm.Core Vyrm.Store Serde

/-- The `StorageError`s of the adapter: its own texts, and the errors whose texts it passes on. -/
inductive RaftError where
  | adapter (message : String)
  | cluster (error : ClusterError)
  | runtime (error : Store.Error)
  | batch (error : Kv.Error)
  | codec (message : String)
  deriving DecidableEq

/-! ## The state database -/

/-- The state database at its head. -/
structure Canonical where
  rows : Rows
  sequence : Nat

namespace Canonical

/-- `WriteBatch::new` and `write_owned`, as far as they do not depend on files. -/
def write (db : Canonical) (operations : List Kv.Mutation) : Except Kv.Error Canonical := do
  let batch ← Kv.WriteBatch.new operations
  let _ ← batch.encode
  if Kv.u64Max ≤ db.sequence + operations.length then throw (.invalidBatch "sequence range overflow")
  else return ⟨operations.foldl Rows.apply db.rows, db.sequence + operations.length⟩

end Canonical

/-- `ADAPTER_FORMAT_VERSION` (`openraft_adapter.rs:40`). -/
def adapterFormatVersion : UInt16 := 4

/-- The configuration of a state database (`openraft_adapter.rs:487-491`). -/
def stateConfig (shard : ShardId) : AdapterConfig := ⟨adapterFormatVersion, shard, .canonicalState⟩

/-- `KEY_STATE` (`openraft_adapter.rs:49`). -/
def keyState : Bytes := utf8 "vyrm/raft/v4/state/current"

/-- `KEY_STATE_CONFIG` (`openraft_adapter.rs:44`). -/
def keyStateConfig : Bytes := utf8 "vyrm/raft/v4/state/config"

/-- `KEY_LOCAL_CONFIG` (`openraft_adapter.rs:45`). -/
def keyLocalConfig : Bytes := utf8 "vyrm/raft/v4/local/config"

/-! ## Commands -/

/-- What a command that is seen for the first time comes to. -/
structure Verdict where
  state : StateMachineData
  accepted : Bool
  reason : String
  runtimeOutcome : Option RuntimeCommitOutcome
  operations : List Kv.Mutation

/-- `deterministic_runtime_rejection` (`openraft_adapter.rs:1387-1396`), with the text of what it lets
through (`vyrm-store/src/error.rs:56-109`). -/
def deterministicRuntimeRejection : Store.Error → Option String
  | .kernel e => some ("kernel: " ++ display e)
  | .runtimeConflict expected actual =>
    some s!"runtime commit conflict: expected cursor {expected}, actual cursor {actual}"
  | .danglingRuntimeReference reference => some ("dangling runtime reference: " ++ reference)
  | .runtimeSchemaMissing scope => some ("runtime schema is not installed for scope " ++ scope)
  | .runtimeSchemaConflict expected actual =>
    some s!"runtime schema conflict: expected revision {expected}, actual revision {actual}"
  | _ => none

namespace StateMachineData

/-- `current_index` (`openraft_adapter.rs:1179`). -/
def currentIndex (state : StateMachineData) : UInt64 := (state.lastApplied.map (·.index)).getD 0

/-- `epoch_matches` (`openraft_adapter.rs:1184-1191`). -/
def epochMatches (state : StateMachineData) (command : VyrmRaftCommand) : Bool :=
  match command.operation with
  | .placementTransition placement =>
    (match state.placementEpoch with
      | none => placement.epoch = 1
      | some epoch => epoch ≠ u64Max ∧ epoch + 1 = placement.epoch) && command.placementEpoch = placement.epoch
  | _ => state.placementEpoch = some command.placementEpoch

/-- The digest of the voters of the applied membership. -/
def bindingDigest (state : StateMachineData) : Option String :=
  (membershipBinding state.lastMembership).map membershipBindingDigest

/-- `membership_matches` (`openraft_adapter.rs:1194-1196`). -/
def membershipMatches (state : StateMachineData) (command : VyrmRaftCommand) : Bool :=
  match command.operation with
  | .placementTransition _ => true
  | _ => state.placementMembershipDigest = state.bindingDigest &&
      state.placementMembershipGeneration = some state.voterMembershipGeneration

/-- `commit_index_matches` (`openraft_adapter.rs:1197-1199`). -/
def commitIndexMatches (state : StateMachineData) (command : VyrmRaftCommand) : Bool :=
  command.expectedCommitIndex.all (· = state.currentIndex)

/-- A command passes the three checks. -/
def admits (state : StateMachineData) (command : VyrmRaftCommand) : Bool :=
  state.epochMatches command && state.membershipMatches command && state.commitIndexMatches command

/-- The epoch of the state machine in a text. -/
def shownEpoch (state : StateMachineData) : String := (state.placementEpoch.map toString).getD "uninitialized"

/-- The reason a check is not passed for (`openraft_adapter.rs:1203-1230`). -/
def denial (state : StateMachineData) (command : VyrmRaftCommand) : String :=
  let epoch := command.placementEpoch
  let established := state.shownEpoch
  if ¬ state.epochMatches command then
    match command.operation with
    | .placementTransition _ =>
      s!"placement transition epoch {epoch} is not the successor of state-machine epoch {established}"
    | _ => s!"placement epoch {epoch} does not match established state-machine epoch {established}"
  else if ¬ state.membershipMatches command then
    "applied Raft membership no longer matches the established placement epoch"
  else
    let expected := command.expectedCommitIndex.getD 0
    let current := state.currentIndex
    s!"expected commit index {expected} but state machine was at {current}"

section

variable [RaftCodec] [Store.Codec]

omit [Store.Codec] in
/-- A placement transition that passed the checks (`openraft_adapter.rs:1235-1256`). -/
def transition (state : StateMachineData) (placement : ShardPlacement) : Except RaftError Verdict :=
  match placementMembershipBinding placement state.lastMembership with
  | none => .ok
    { state
      accepted := false
      reason := "placement voters and zones do not match applied Raft membership"
      runtimeOutcome := none
      operations := [] }
  | some voters =>
    match placement.digest with
    | .error e => .error (.cluster e)
    | .ok digest => .ok
      { state := { state with
          placementEpoch := some placement.epoch
          placementDigest := some digest
          placementMembershipDigest := some (membershipBindingDigest voters)
          placementMembershipGeneration := some state.voterMembershipGeneration }
        accepted := true
        reason := "quorum-committed placement epoch transition applied"
        runtimeOutcome := none
        operations := [] }

omit [RaftCodec] in
/-- A runtime commit that passed the checks (`openraft_adapter.rs:1260-1302`). -/
def commitRuntime (state : StateMachineData) (view : View) (commit : RuntimeCommit) : Except RaftError Verdict :=
  match view.commitOutcome commit.digest with
  | .error e => .error (.runtime e)
  | .ok (some outcome) => .ok
    { state
      accepted := true
      reason := "canonical runtime transaction was already committed"
      runtimeOutcome := some outcome
      operations := [] }
  | .ok none =>
    match view.prepareCommit commit with
    | .ok (outcome, operations) =>
      if state.runtimeCommitCount = u64Max then .error (.adapter "runtime commit count overflowed")
      else .ok
        { state := { state with runtimeCommitCount := state.runtimeCommitCount + 1 }
          accepted := true
          reason := "quorum-committed canonical runtime transaction applied"
          runtimeOutcome := some outcome
          operations }
    | .error e =>
      match deterministicRuntimeRejection e with
      | some text => .ok
        { state
          accepted := false
          reason := "canonical runtime transaction denied: " ++ text
          runtimeOutcome := none
          operations := [] }
      | none => .error (.runtime e)

/-- What a command comes to (`openraft_adapter.rs:1200-1304`). -/
def judge (state : StateMachineData) (view : View) (command : VyrmRaftCommand) : Except RaftError Verdict :=
  if ¬ state.admits command then .ok
    { state
      accepted := false
      reason := state.denial command
      runtimeOutcome := none
      operations := [] }
  else
    match command.operation with
    | .placementTransition placement => state.transition placement
    | .probe _ _ => .ok
      { state
        accepted := true
        reason := "quorum-committed probe applied"
        runtimeOutcome := none
        operations := [] }
    | .runtimeCommit commit => state.commitRuntime view commit

omit [Store.Codec] in
/-- The digest of the state after an accepted command (`openraft_adapter.rs:1307-1312`). -/
def transitionDigest (state : StateMachineData) (logId : LogId) (command : VyrmRaftCommand) : String :=
  sha256Hex (tagged "vyrm.raft.state.transition.v1" (utf8 state.stateDigest ++ be64 logId.term ++
    be64 logId.index ++ utf8 command.operation.digest))

omit [Store.Codec] in
/-- What is recorded of a verdict, and the response (`openraft_adapter.rs:1306-1334`). -/
def record (verdict : Verdict) (logId : LogId) (command : VyrmRaftCommand) : StateMachineData × VyrmRaftResponse :=
  let state := verdict.state
  let stateDigest := if verdict.accepted then state.transitionDigest logId command else state.stateDigest
  let response : VyrmRaftResponse :=
    { accepted := verdict.accepted
      duplicate := false
      term := logId.term
      index := logId.index
      stateDigest
      reason := verdict.reason
      runtimeOutcome := verdict.runtimeOutcome }
  let applied : AppliedRequest :=
    { firstAppliedIndex := logId.index
      commandDigest := command.identityDigest
      response }
  ({ state with stateDigest, requests := state.requests.insert command.requestId applied }, response)

/-- `apply_command` (`openraft_adapter.rs:1132-1335`): the state, the response and the operations. -/
def applyCommand (state : StateMachineData) (view : View) (shard : ShardId) (logId : LogId)
    (command : VyrmRaftCommand) : Except RaftError (StateMachineData × VyrmRaftResponse × List Kv.Mutation) :=
  match command.validate with
  | .error e => .error (.cluster e)
  | .ok () =>
    if command.shard ≠ shard then .error (.adapter "replicated command targets a different shard")
    else
      match state.requests[command.requestId]? with
      | some previous =>
        if previous.commandDigest ≠ command.identityDigest then
          .ok (state,
            { accepted := false
              duplicate := false
              term := logId.term
              index := logId.index
              stateDigest := state.stateDigest
              reason := "request id was reused with a different command identity"
              runtimeOutcome := none }, [])
        else
          .ok (state, { previous.response with duplicate := true, term := logId.term, index := logId.index }, [])
      | none => do
        let verdict ← state.judge view command
        let (state, response) := record verdict logId command
        return (state, response, verdict.operations)

end

/-! ## Entries -/

/-- `blank_response` (`openraft_adapter.rs:1413-1423`). -/
def blankResponse (state : StateMachineData) (logId : LogId) : VyrmRaftResponse :=
  { accepted := true
    duplicate := false
    term := logId.term
    index := logId.index
    stateDigest := state.stateDigest
    reason := "raft protocol entry applied"
    runtimeOutcome := none }

/-- An entry with a membership (`openraft_adapter.rs:848-868`). -/
def applyMembership (state : StateMachineData) (logId : LogId) (membership : Membership) :
    Except RaftError StateMachineData :=
  let next := { state with lastMembership := ⟨some logId, membership⟩ }
  if state.bindingDigest = next.bindingDigest then .ok next
  else if state.voterMembershipGeneration = u64Max then .error (.adapter "voter membership generation overflowed")
  else .ok { next with voterMembershipGeneration := state.voterMembershipGeneration + 1 }

/-- `VYRM_RAFT_REQUEST_RETENTION_LOGS` (`openraft_adapter.rs:53`). -/
def requestRetentionLogs : UInt64 := 4096

/-- The oldest index whose requests are kept (`openraft_adapter.rs:1381`). -/
def oldestRetained (through : UInt64) : UInt64 :=
  if through < requestRetentionLogs - 1 then 0 else through - (requestRetentionLogs - 1)

/-- `prune_request_history` (`openraft_adapter.rs:1380-1385`). -/
def pruneRequestHistory (state : StateMachineData) (through : UInt64) : StateMachineData :=
  { state with requests := state.requests.filter fun _ request => oldestRetained through ≤ request.firstAppliedIndex }

/-- What every entry leaves behind (`openraft_adapter.rs:880-881`). -/
def settled (state : StateMachineData) (logId : LogId) : StateMachineData :=
  { state with lastApplied := some logId }.pruneRequestHistory logId.index

section

variable [RaftCodec] [Store.Codec]

/-- The payload of an entry (`openraft_adapter.rs:846-878`). -/
def applyPayload (state : StateMachineData) (view : View) (shard : ShardId) (entry : VyrmRaftEntry) :
    Except RaftError (StateMachineData × VyrmRaftResponse × List Kv.Mutation) :=
  match entry.payload with
  | .blank => .ok (state, state.blankResponse entry.logId, [])
  | .membership membership => do
    let state ← state.applyMembership entry.logId membership
    return (state, state.blankResponse entry.logId, [])
  | .normal command => state.applyCommand view shard entry.logId command

end

end StateMachineData

section

variable [RaftCodec]

/-- What `open` writes to a database that is new (`openraft_adapter.rs:484-494`, `619-632`). -/
def Canonical.create (shard : ShardId) : Canonical :=
  ⟨Rows.ofHistory [.put keyStateConfig (toVec (stateConfig shard)), .put keyState (toVec StateMachineData.initial)], 2⟩

variable [Store.Codec]

/-- One turn of the loop of `apply` (`openraft_adapter.rs:844-898`). -/
def applyEntry (shard : ShardId) (db : Canonical) (state : StateMachineData) (entry : VyrmRaftEntry) :
    Except RaftError (VyrmRaftResponse × StateMachineData × Canonical) := do
  let (state, response, operations) ← state.applyPayload db.rows.view shard entry
  let state := state.settled entry.logId
  match db.write (operations ++ [.put keyState (toVec state)]) with
  | .error e => .error (.batch e)
  | .ok db => return (response, state, db)

/-- The loop of `apply`. What was written before an error stays. -/
def applyEntries (shard : ShardId) (db : Canonical) (state : StateMachineData) :
    List VyrmRaftEntry → Except RaftError (List VyrmRaftResponse) × Canonical
  | [] => (.ok [], db)
  | entry :: rest =>
    match applyEntry shard db state entry with
    | .error e => (.error e, db)
    | .ok (response, state, db) =>
      let (later, db) := applyEntries shard db state rest
      (later.map (response :: ·), db)

omit [Store.Codec] in
/-- `read_state_from_database` (`openraft_adapter.rs:1110-1125`). -/
def Canonical.readState (db : Canonical) : Except RaftError StateMachineData :=
  match db.rows[keyState]? with
  | none => .error (.adapter "state machine key is absent")
  | some bytes =>
    match fromSlice bytes with
    | .ok state => .ok state
    | .error message => .error (.codec message)

/-- `VyrmRaftStateMachine::apply` (`openraft_adapter.rs:828-900`). -/
def apply (shard : ShardId) (db : Canonical) (entries : List VyrmRaftEntry) :
    Except RaftError (List VyrmRaftResponse) × Canonical :=
  match db.readState with
  | .error e => (.error e, db)
  | .ok state => applyEntries shard db state entries

end

end Vyrm.Cluster
