import Mathlib.Data.List.Sort
import Vyrm.Cluster.Contract
import Vyrm.Core.Runtime.Canonical
import Vyrm.Store.Native

/-!
# Commands of the replicated state machine

`crates/vyrm-cluster/src/openraft_adapter.rs`: what is replicated, what the state machine remembers of
it, and the digests the two are compared by. Log ids, entries and memberships are OpenRaft's.
-/

namespace Vyrm.Cluster
open Lib Vyrm.Core Vyrm.Store Serde

/-! ## What OpenRaft delivers -/

/-- `LogId`. -/
structure LogId where
  term : UInt64
  nodeId : UInt64
  index : UInt64
  deriving DecidableEq, Repr

/-- `VyrmRaftNode` (`openraft_adapter.rs:197-201`). -/
structure VyrmRaftNode where
  canonicalId : String
  zone : String
  endpoint : String
  deriving DecidableEq, Repr

/-- `VyrmRaftNode::validate` (`openraft_adapter.rs:204-217`). -/
def VyrmRaftNode.validate (node : VyrmRaftNode) : Except ClusterError Unit :=
  [("canonical id", node.canonicalId), ("zone", node.zone), ("endpoint", node.endpoint)].forM
    fun (label, value) =>
      if value = "" ∨ 512 < (utf8 value).length ∨ (0 : UInt8) ∈ utf8 value then
        .error (.invalid s!"raft node {label} must contain 1..=512 non-NUL bytes")
      else .ok ()

/-- `Membership`: the voters, in as many sets as there are while they change, and all nodes. -/
structure Membership where
  configs : List (List UInt64)
  nodes : OrdMap UInt64 VyrmRaftNode
  deriving DecidableEq

/-- `voter_ids`: the voters of all sets, each once. -/
def Membership.voterIds (membership : Membership) : List UInt64 := membership.configs.flatten.dedup

/-- `StoredMembership`. -/
structure StoredMembership where
  logId : Option LogId
  membership : Membership
  deriving DecidableEq

/-- `VyrmRaftOperation` (`openraft_adapter.rs:222-233`). -/
inductive VyrmRaftOperation where
  | placementTransition (placement : ShardPlacement)
  | probe (payloadDigest : String) (payload : Bytes)
  | runtimeCommit (commit : RuntimeCommit)
  deriving DecidableEq

/-- `VyrmRaftCommand` (`openraft_adapter.rs:276-283`). -/
structure VyrmRaftCommand where
  requestId : String
  shard : ShardId
  placementEpoch : UInt64
  expectedCommitIndex : Option UInt64
  operation : VyrmRaftOperation
  deriving DecidableEq

/-- `EntryPayload`. -/
inductive EntryPayload where
  | blank
  | normal (command : VyrmRaftCommand)
  | membership (membership : Membership)
  deriving DecidableEq

/-- `VyrmRaftEntry`. -/
structure VyrmRaftEntry where
  logId : LogId
  payload : EntryPayload
  deriving DecidableEq

/-! ## What the state machine keeps -/

/-- `VyrmRaftResponse` (`openraft_adapter.rs:370-380`). -/
structure VyrmRaftResponse where
  accepted : Bool
  duplicate : Bool
  term : UInt64
  index : UInt64
  stateDigest : String
  reason : String
  runtimeOutcome : Option RuntimeCommitOutcome
  deriving DecidableEq, Repr

/-- `AppliedRequest` (`openraft_adapter.rs:411-415`). -/
structure AppliedRequest where
  firstAppliedIndex : UInt64
  commandDigest : String
  response : VyrmRaftResponse
  deriving DecidableEq, Repr

/-- `StateMachineData` (`openraft_adapter.rs:419-436`). -/
structure StateMachineData where
  lastApplied : Option LogId
  lastMembership : StoredMembership
  placementEpoch : Option UInt64
  placementDigest : Option String
  placementMembershipDigest : Option String
  voterMembershipGeneration : UInt64
  placementMembershipGeneration : Option UInt64
  runtimeCommitCount : UInt64
  stateDigest : String
  requests : OrdMap String AppliedRequest
  deriving DecidableEq

/-- `StateMachineData::default` (`openraft_adapter.rs:439-452`). -/
def StateMachineData.initial : StateMachineData :=
  { lastApplied := none
    lastMembership := ⟨none, ⟨[], ∅⟩⟩
    placementEpoch := none
    placementDigest := none
    placementMembershipDigest := none
    voterMembershipGeneration := 0
    placementMembershipGeneration := none
    runtimeCommitCount := 0
    stateDigest := sha256Hex (utf8 "vyrm.raft.state.v1")
    requests := ∅ }

/-- `AdapterDomain` (`openraft_adapter.rs:403-406`). -/
inductive AdapterDomain where
  | canonicalState
  | localRaft
  deriving DecidableEq, Repr

/-- `AdapterConfig` (`openraft_adapter.rs:396-400`). -/
structure AdapterConfig where
  formatVersion : UInt16
  shard : ShardId
  domain : AdapterDomain
  deriving DecidableEq, Repr

/-- How the types of the adapter are written and read. -/
class RaftCodec where
  [placement : Serde ShardPlacement]
  [operation : Serde VyrmRaftOperation]
  [entry : Serde VyrmRaftEntry]
  [config : Serde AdapterConfig]
  [data : Serde StateMachineData]

attribute [reducible, instance] RaftCodec.placement RaftCodec.operation RaftCodec.entry RaftCodec.config RaftCodec.data

/-! ## Digests -/

/-- `b"vyrm.raft.operation.v2"` and the like. -/
def tagged (domain : String) (rest : Bytes) : Bytes := utf8 domain ++ rest

/-- The voters of a membership, as names and zones, in the order of a `BTreeSet`. -/
def bindingOf (voters : List (String × String)) : List (String × String) :=
  voters.dedup.insertionSort fun left right => ((compare left.1 right.1).then (compare left.2 right.2)).isLE

/-- `membership_binding` (`openraft_adapter.rs:1349-1367`). -/
def membershipBinding (stored : StoredMembership) : Option (List (String × String)) :=
  let voterIds := stored.membership.voterIds
  match voterIds.mapM fun id => stored.membership.nodes[id]? with
  | none => none
  | some raftVoters =>
    if raftVoters = [] ∨ ∃ node ∈ raftVoters, ¬ node.validate.isOk then none
    else
      let binding := bindingOf (raftVoters.map fun node => (node.canonicalId, node.zone))
      if binding.length = voterIds.length then some binding else none

/-- What `membership_binding_digest` is the digest of (`openraft_adapter.rs:1370-1376`). -/
def bindingBytes (voters : List (String × String)) : Bytes :=
  tagged "vyrm.raft.membership-binding.v1" (voters.flatMap fun (canonicalId, zone) => text canonicalId ++ text zone)

/-- `membership_binding_digest` (`openraft_adapter.rs:1369-1378`). -/
def membershipBindingDigest (voters : List (String × String)) : String := sha256Hex (bindingBytes voters)

/-- `placement_membership_binding` (`openraft_adapter.rs:1337-1347`). -/
def placementMembershipBinding (placement : ShardPlacement) (stored : StoredMembership) :
    Option (List (String × String)) :=
  match membershipBinding stored with
  | none => none
  | some raftVoters =>
    let declaredVoters := bindingOf (placement.voters.map fun replica => (replica.node.asStr, replica.zone.asStr))
    if raftVoters = declaredVoters then some raftVoters else none

section

variable [RaftCodec]

/-- `ShardPlacement::digest` (`contract.rs:210-216`). -/
def ShardPlacement.digest (placement : ShardPlacement) : Except ClusterError String := do
  placement.validate
  return sha256Hex (toVec placement)

/-- What tells an operation apart: its kind, and the digest of its content
(`openraft_adapter.rs:253-272`). A placement that is not valid would panic; commands are validated. -/
def VyrmRaftOperation.content : VyrmRaftOperation → UInt8 × String
  | .placementTransition placement =>
    (1, match placement.digest with
      | .ok digest => digest
      | .error _ => "")
  | .probe payloadDigest _ => (2, payloadDigest)
  | .runtimeCommit commit => (3, commit.digest)

/-- `VyrmRaftOperation::digest` (`openraft_adapter.rs:252-273`). -/
def VyrmRaftOperation.digest (operation : VyrmRaftOperation) : String :=
  sha256Hex (tagged "vyrm.raft.operation.v2" (operation.content.1 :: utf8 operation.content.2))

/-- What `command_identity_digest` is the digest of (`openraft_adapter.rs:1399-1410`). -/
def VyrmRaftCommand.identityBytes (command : VyrmRaftCommand) : Bytes :=
  tagged "vyrm.raft.command.identity.v1" (be64 command.shard.value ++ be64 command.placementEpoch ++
    encodeOptionalU64 command.expectedCommitIndex ++ utf8 command.operation.digest)

/-- `command_identity_digest` (`openraft_adapter.rs:1398-1411`). -/
def VyrmRaftCommand.identityDigest (command : VyrmRaftCommand) : String := sha256Hex command.identityBytes

/-! ## Validation -/

/-- `MAX_COMMAND_BYTES` (`openraft_adapter.rs:56`). -/
def maxCommandBytes : Nat := 1024 * 1024

/-- `Display` of the kernel's errors (`vyrm-core/src/error.rs:38-64`). -/
def display : Core.Error → String
  | .emptyIdentifier kind => s!"{kind} must not be empty"
  | .separatorInIdentifier kind value =>
    let shown := debugText value
    s!"{kind} must not contain the 0x00 separator: {shown}"
  | .invalidValidityWindow validFrom validTo =>
    s!"validity window is empty or inverted: valid_from={validFrom} valid_to={validTo}"
  | .supersessionPairMismatch => "a successor must have the same subject and predicate"
  | .invalidSupersessionOrder => "a successor must begin after and be recorded later than its predecessor"
  | .malformedKey reason => s!"malformed claim key: {reason}"
  | .sequenceOverflow => "sequence allocation overflowed"
  | .invalidRuntime reason => s!"invalid runtime object: {reason}"

/-- `VyrmRaftOperation::validate` (`openraft_adapter.rs:234-250`). -/
def VyrmRaftOperation.validate : VyrmRaftOperation → Except ClusterError Unit
  | .placementTransition placement => placement.validate
  | .probe payloadDigest payload =>
    if payload ≠ [] ∧ payloadDigest = sha256Hex payload then .ok ()
    else .error (.invalid "raft probe payload or digest is invalid")
  | .runtimeCommit commit =>
    match commit.validate with
    | .ok () => .ok ()
    | .error e => .error (.invalid (display e))

omit [RaftCodec] in
/-- A placement transition is for another shard or epoch than its command. -/
def VyrmRaftOperation.Differs (shard : ShardId) (epoch : UInt64) : VyrmRaftOperation → Prop
  | .placementTransition placement => placement.shard ≠ shard ∨ placement.epoch ≠ epoch
  | .probe _ _ => False
  | .runtimeCommit _ => False

instance (shard : ShardId) (epoch : UInt64) :
    (operation : VyrmRaftOperation) → Decidable (operation.Differs shard epoch)
  | .placementTransition _ => inferInstanceAs (Decidable (_ ∨ _))
  | .probe _ _ => .isFalse id
  | .runtimeCommit _ => .isFalse id

/-- `VyrmRaftCommand::validate` (`openraft_adapter.rs:341-368`). -/
def VyrmRaftCommand.validate (command : VyrmRaftCommand) : Except ClusterError Unit :=
  if command.requestId = "" ∨ 256 < (utf8 command.requestId).length ∨ (0 : UInt8) ∈ utf8 command.requestId ∨
      command.placementEpoch = 0 then
    .error (.invalid "raft command identity or placement epoch is invalid")
  else do
    command.operation.validate
    if command.operation.Differs command.shard command.placementEpoch then
      .error (.invalid "placement transition command and placement identity differ")
    else if maxCommandBytes < (toVec command.operation).length then
      .error (.invalid s!"raft command operation exceeds {maxCommandBytes} encoded bytes")
    else .ok ()

end

/-! ## JSON of values whose texts need no escape -/

/-- A value that may be `null`. -/
def nullable (value : Option String) : Option String := some (value.getD "null")

/-- A JSON array. -/
def array (items : List String) : String := "[" ++ String.intercalate "," items ++ "]"

def plainLogId (logId : LogId) : String :=
  object [member "leader_id" (object [member "term" (toString logId.term), member "node_id" (toString logId.nodeId)]),
    member "index" (toString logId.index)]

def plainNode (node : VyrmRaftNode) : String :=
  object [member "canonical_id" (quoted node.canonicalId), member "zone" (quoted node.zone),
    member "endpoint" (quoted node.endpoint)]

def plainMembership (membership : Membership) : String :=
  object [member "configs" (array (membership.configs.map fun voters => array (voters.map toString))),
    member "nodes" (object (membership.nodes.toList.map fun (id, node) => member (toString id) (plainNode node)))]

def plainStoredMembership (stored : StoredMembership) : String :=
  object [member "log_id" (nullable (stored.logId.map plainLogId)),
    member "membership" (plainMembership stored.membership)]

def plainPlacement (placement : ShardPlacement) : String :=
  object [member "contract_version" (toString placement.contractVersion),
    member "cluster" (quoted placement.cluster.asStr), member "shard" (toString placement.shard.value),
    member "epoch" (toString placement.epoch),
    member "policy" (object [member "voter_count" (toString placement.policy.voterCount),
      member "minimum_voter_zones" (toString placement.policy.minimumVoterZones),
      member "maximum_voters_per_zone" (toString placement.policy.maximumVotersPerZone)]),
    member "replicas" (array (placement.replicas.map fun replica =>
      object [member "node" (quoted replica.node.asStr), member "zone" (quoted replica.zone.asStr),
        member "role" (quoted (match replica.role with
          | .voter => "voter"
          | .learner => "learner"))]))]

/-- With how a runtime commit is written. -/
def plainOperation (commitText : RuntimeCommit → String) : VyrmRaftOperation → String
  | .placementTransition placement =>
    object [member "operation" (quoted "placement_transition"), member "placement" (plainPlacement placement)]
  | .probe payloadDigest payload =>
    object [member "operation" (quoted "probe"), member "payload_digest" (quoted payloadDigest),
      member "payload" (array (payload.map toString))]
  | .runtimeCommit commit =>
    object [member "operation" (quoted "runtime_commit"), member "commit" (commitText commit)]

def plainCommand (commitText : RuntimeCommit → String) (command : VyrmRaftCommand) : String :=
  object [member "request_id" (quoted command.requestId), member "shard" (toString command.shard.value),
    member "placement_epoch" (toString command.placementEpoch),
    member "expected_commit_index" (nullable (command.expectedCommitIndex.map toString)),
    member "operation" (plainOperation commitText command.operation)]

def plainEntry (commitText : RuntimeCommit → String) (entry : VyrmRaftEntry) : String :=
  object [member "log_id" (plainLogId entry.logId),
    member "payload" (match entry.payload with
      | .blank => quoted "Blank"
      | .normal command => object [member "Normal" (plainCommand commitText command)]
      | .membership membership => object [member "Membership" (plainMembership membership)])]

def plainOutcome (outcome : RuntimeCommitOutcome) : String :=
  object [member "commit_id" (quoted outcome.commitId), member "first_cursor" (toString outcome.firstCursor),
    member "last_cursor" (toString outcome.lastCursor), member "count" (toString outcome.count),
    member "first_claim_sequence" (nullable (outcome.firstClaimSequence.map toString)),
    member "last_claim_sequence" (nullable (outcome.lastClaimSequence.map toString)),
    member "outbox_count" (toString outcome.outboxCount)]

def plainResponse (response : VyrmRaftResponse) : String :=
  object [member "accepted" (toString response.accepted), member "duplicate" (toString response.duplicate),
    member "term" (toString response.term), member "index" (toString response.index),
    member "state_digest" (quoted response.stateDigest), member "reason" (quoted response.reason),
    member "runtime_outcome" (response.runtimeOutcome.map plainOutcome)]

def plainConfig (config : AdapterConfig) : String :=
  object [member "format_version" (toString config.formatVersion), member "shard" (toString config.shard.value),
    member "domain" (quoted (match config.domain with
      | .canonicalState => "canonical_state"
      | .localRaft => "local_raft"))]

def plainData (state : StateMachineData) : String :=
  object [member "last_applied" (nullable (state.lastApplied.map plainLogId)),
    member "last_membership" (plainStoredMembership state.lastMembership),
    member "placement_epoch" (nullable (state.placementEpoch.map toString)),
    member "placement_digest" (nullable (state.placementDigest.map quoted)),
    member "placement_membership_digest" (nullable (state.placementMembershipDigest.map quoted)),
    member "voter_membership_generation" (toString state.voterMembershipGeneration),
    member "placement_membership_generation" (nullable (state.placementMembershipGeneration.map toString)),
    member "runtime_commit_count" (toString state.runtimeCommitCount),
    member "state_digest" (quoted state.stateDigest),
    member "requests" (object (state.requests.toList.map fun (id, request) =>
      member id (object [member "first_applied_index" (toString request.firstAppliedIndex),
        member "command_digest" (quoted request.commandDigest), member "response" (plainResponse request.response)])))]

/-- The encodings, with how a runtime commit is written; they are read back from tables. -/
@[reducible] def plainRaftCodec (commitText : RuntimeCommit → String) (entries : List VyrmRaftEntry)
    (states : List StateMachineData) (shard : ShardId) : RaftCodec where
  placement := .ofTexts plainPlacement []
  operation := .ofTexts (plainOperation commitText) []
  entry := .ofTexts (plainEntry commitText) entries
  config := .ofTexts plainConfig [⟨4, shard, .canonicalState⟩]
  data := .ofTexts plainData states

end Vyrm.Cluster
