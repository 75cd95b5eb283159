import Vyrm.Cluster.Contract
import Vyrm.Core.Digest
import Mathlib.Data.List.Sort

/-!
# The quorum simulator

`crates/vyrm-cluster/src/sim.rs`: one leader appends to its followers, counts their
acknowledgements and tells them what is committed, while the network and the disks fail. A call
that fails has still done what it did before it failed, so every call returns its result together
with the state after it.
-/

namespace Vyrm.Cluster
open Lib Vyrm.Core

/-- `u64::saturating_add`. -/
def saturatingAdd (a b : Nat) : Nat := min (a + b) (2 ^ 64 - 1)

/-- `LogEntry` (`sim.rs:8-13`). -/
structure LogEntry where
  term : Nat
  index : Nat
  commandDigest : String
  deriving DecidableEq, Repr

/-- `MessageKind` (`sim.rs:15-20`). -/
inductive MessageKind where
  | append (entry : LogEntry)
  | ack (term index : Nat)
  | commit (term index : Nat)
  deriving DecidableEq, Repr

/-- `Message` (`sim.rs:22-29`). -/
structure Message where
  id : Nat
  sender : NodeId
  receiver : NodeId
  deliverAt : Nat
  kind : MessageKind
  deriving DecidableEq

/-- `ReplicaState` (`sim.rs:31-38`). -/
structure ReplicaState where
  online : Bool
  diskPresent : Bool
  clockOffsetMs : Int
  log : OrdMap Nat LogEntry
  commitIndex : Nat

/-- `SimFault` (`sim.rs:40-53`). -/
inductive SimFault where
  | partition (left right : NodeId)
  | heal (left right : NodeId)
  | delay (messageId ticks : Nat)
  | duplicate (messageId : Nat)
  | deliver (messageId : Nat)
  | reorder (messageIds : List Nat)
  | crash (node : NodeId)
  | restart (node : NodeId)
  | clockSkew (node : NodeId) (offsetMs : Int)
  | diskLoss (node : NodeId)
  deriving DecidableEq

/-- `SimCluster` (`sim.rs:73-87`), without its seed and its trace, which nothing but the evidence
reads. -/
structure SimCluster where
  placement : ShardPlacement
  leader : NodeId
  now : Nat
  nextMessageId : Nat
  replicas : OrdMap NodeId ReplicaState
  blocked : Finset (NodeId × NodeId)
  pending : List Message
  acknowledgements : OrdMap Nat (Finset NodeId)
  acknowledged : OrdMap Nat String
  diskLosses : Finset NodeId

/-- `ShardReadStamp` (`contract.rs:234-239`). -/
structure ShardReadStamp where
  term : Nat
  commitIndex : Nat
  placementEpoch : UInt64
  stateDigest : String
  deriving DecidableEq

/-- The replica a node starts as (`sim.rs:104-110`). -/
def ReplicaState.fresh : ReplicaState :=
  { online := true, diskPresent := true, clockOffsetMs := 0, log := ∅, commitIndex := 0 }

/-- A node that can send and receive. -/
def ReplicaState.up (replica : ReplicaState) : Prop := replica.online ∧ replica.diskPresent

instance (replica : ReplicaState) : Decidable replica.up := inferInstanceAs (Decidable (_ ∧ _))

/-- `state_digest` (`sim.rs:533-541`). -/
def stateDigest (log : OrdMap Nat LogEntry) (through : Nat) : String :=
  sha256Hex (utf8 "vyrm.cluster.state.v1" ++ (log.values.filter (·.index ≤ through)).flatMap fun entry =>
    toBE 8 entry.term ++ toBE 8 entry.index ++ utf8 entry.commandDigest)

namespace SimCluster

/-- `SimCluster::new` (`sim.rs:89-129`). -/
def new (placement : ShardPlacement) (leader : NodeId) : Except ClusterError SimCluster := do
  placement.validate
  match placement.replicas.find? (·.node = leader) with
  | none => .error (.invalid "leader is absent from placement")
  | some replica =>
    if replica.role ≠ .voter then .error (.invalid "leader must be a voter")
    else
      .ok
        { placement
          leader
          now := 0
          nextMessageId := 1
          replicas := placement.replicas.foldl (fun replicas replica =>
            replicas.insert replica.node ReplicaState.fresh) ∅
          blocked := ∅
          pending := []
          acknowledgements := ∅
          acknowledged := ∅
          diskLosses := ∅ }

/-- `quorum` (`sim.rs:499-501`). -/
def quorum (sim : SimCluster) : Nat := sim.placement.policy.quorum

/-- The voters but for the leader, in the order of the placement. -/
def followers (sim : SimCluster) : List NodeId :=
  (sim.placement.voters.map (·.node)).filter (· ≠ sim.leader)

/-- `replica` and `replica_mut` (`sim.rs:507-517`). -/
def absent (node : NodeId) : ClusterError := .notFound s!"node {node.asStr}"

/-- A change of a replica that is there. -/
def setReplica (sim : SimCluster) (node : NodeId) (replica : ReplicaState) : SimCluster :=
  { sim with replicas := sim.replicas.insert node replica }

/-- `enqueue` (`sim.rs:452-461`), with `take_message_id`. -/
def enqueue (sim : SimCluster) (sender receiver : NodeId) (kind : MessageKind) : SimCluster :=
  { sim with
    nextMessageId := saturatingAdd sim.nextMessageId 1
    pending := sim.pending ++ [⟨sim.nextMessageId, sender, receiver, sim.now, kind⟩] }

/-- The same message from the leader to every follower. -/
def broadcast (sim : SimCluster) (kind : MessageKind) : SimCluster :=
  sim.followers.foldl (fun sim follower => sim.enqueue sim.leader follower kind) sim

/-- `is_acknowledged` (`sim.rs:262-264`). -/
def isAcknowledged (sim : SimCluster) (index : Nat) : Bool := sim.acknowledged.contains index

/-- The nodes whose acknowledgement of an index has been counted. -/
def ackSet (sim : SimCluster) (index : Nat) : Finset NodeId := (sim.acknowledgements[index]?).getD ∅

/-- An acknowledgement is counted (`sim.rs:145-148`, `423-426`). -/
def countAck (sim : SimCluster) (index : Nat) (node : NodeId) : SimCluster :=
  { sim with acknowledgements := sim.acknowledgements.insert index (insert node (sim.ackSet index)) }

/-- `maybe_commit` (`sim.rs:349-382`). -/
def maybeCommit (sim : SimCluster) (index : Nat) : Except ClusterError Unit × SimCluster :=
  if sim.isAcknowledged index ∨ (sim.ackSet index).card < sim.quorum then (.ok (), sim)
  else
    match sim.replicas[sim.leader]? with
    | none => (.error (absent sim.leader), sim)
    | some leader =>
      match leader.log[index]? with
      | none => (.error (.denied "leader lost proposed entry"), sim)
      | some entry =>
        let sim := { sim with acknowledged := sim.acknowledged.insert index entry.commandDigest }
        let sim := sim.setReplica sim.leader { leader with commitIndex := index }
        (.ok (), sim.broadcast (.commit entry.term index))

/-- `propose` (`sim.rs:131-167`). -/
def propose (sim : SimCluster) (command : Bytes) : Except ClusterError Nat × SimCluster :=
  match sim.replicas[sim.leader]? with
  | none => (.error (absent sim.leader), sim)
  | some leader =>
    if ¬ leader.up then (.error (.unavailable "leader cannot durably accept a proposal"), sim)
    else
      let index := leader.log.keys.getLast?.getD 0 + 1
      let entry : LogEntry := ⟨1, index, sha256Hex command⟩
      let sim := sim.setReplica sim.leader { leader with log := leader.log.insert index entry }
      let sim := (sim.countAck index sim.leader).broadcast (.append entry)
      let (result, sim) := sim.maybeCommit index
      (result.map fun _ => index, sim)

/-- `can_deliver` (`sim.rs:469-482`). -/
def canDeliver (sim : SimCluster) (message : Message) : Prop :=
  message.deliverAt ≤ sim.now ∧ (∃ replica ∈ sim.replicas[message.sender]?, replica.up) ∧
    (∃ replica ∈ sim.replicas[message.receiver]?, replica.up) ∧
    (message.sender, message.receiver) ∉ sim.blocked

instance (sim : SimCluster) (message : Message) : Decidable (sim.canDeliver message) :=
  inferInstanceAs (Decidable (_ ∧ _))

/-- The replicas that store an index. -/
def storedAt (sim : SimCluster) (index : Nat) : List LogEntry :=
  sim.replicas.values.filterMap (·.log[index]?)

/-- `verify_safety` (`sim.rs:266-307`). -/
def verifySafety (sim : SimCluster) : Except ClusterError Unit :=
  let indexes := (sim.replicas.values.flatMap (·.log.keys)).dedup.insertionSort (· ≤ ·)
  let tolerance := sim.placement.policy.toleratedFailures
  if ∃ replica ∈ sim.replicas.values, 0 < replica.commitIndex ∧ replica.commitIndex ∉ replica.log then
    .error (.denied "replica commit index advances beyond its durable log")
  else
    match indexes.find? fun index =>
        1 < ((sim.storedAt index).map fun entry => (entry.term, entry.commandDigest)).dedup.length with
    | some index => .error (.denied s!"replicas diverged at log index {index}")
    | none =>
      match sim.acknowledged.toList.find? fun (index, digest) =>
          sim.diskLosses.card ≤ tolerance ∧ (sim.storedAt index).countP (·.commandDigest = digest) = 0 with
      | some (index, _) =>
        .error (.denied s!"acknowledged entry {index} was lost within configured fault tolerance")
      | none => .ok ()

/-- What follows a change that succeeded. -/
def verified (sim : SimCluster) : Except ClusterError Unit × SimCluster := (sim.verifySafety, sim)

/-- The arms of `deliver` (`sim.rs:396-446`), for a message that is taken off the queue. -/
def receive (sim : SimCluster) (message : Message) : Except ClusterError Unit × SimCluster :=
  match message.kind with
  | .append entry =>
    match sim.replicas[message.receiver]? with
    | none => (.error (absent message.receiver), sim)
    | some target =>
      if 1 < entry.index ∧ entry.index - 1 ∉ target.log then
        (.error (.unavailable
          s!"replica {message.receiver.asStr} rejected out-of-order index {entry.index}"), sim)
      else
        match target.log[entry.index]? with
        | some existing =>
          if existing ≠ entry then
            (.error (.denied s!"conflicting duplicate at index {entry.index}"), sim)
          else (sim.enqueue message.receiver message.sender (.ack entry.term entry.index)).verified
        | none =>
          let sim := sim.setReplica message.receiver { target with log := target.log.insert entry.index entry }
          (sim.enqueue message.receiver message.sender (.ack entry.term entry.index)).verified
  | .ack term index =>
    if term ≠ 1 ∨ message.receiver ≠ sim.leader then (.error (.denied "invalid acknowledgement route"), sim)
    else
      match (sim.countAck index message.sender).maybeCommit index with
      | (.error e, sim) => (.error e, sim)
      | (.ok (), sim) => sim.verified
  | .commit term index =>
    if term ≠ 1 ∨ message.sender ≠ sim.leader then (.error (.denied "invalid commit route"), sim)
    else
      match sim.replicas[message.receiver]? with
      | none => (.error (absent message.receiver), sim)
      | some target =>
        if index ∉ target.log then
          (.error (.unavailable s!"replica {message.receiver.asStr} cannot commit absent index {index}"), sim)
        else
          (sim.setReplica message.receiver { target with commitIndex := max target.commitIndex index }).verified

/-- `deliver` (`sim.rs:384-449`). -/
def deliver (sim : SimCluster) (messageId : Nat) : Except ClusterError Unit × SimCluster :=
  match sim.pending.find? (·.id = messageId) with
  | none => (.error (.notFound s!"message {messageId}"), sim)
  | some message =>
    if ¬ sim.canDeliver message then
      (.error (.unavailable
        s!"message {messageId} is delayed, partitioned, or targets an offline node"), sim)
    else { sim with pending := sim.pending.eraseP (·.id = messageId) }.receive message

/-- The loop of `SimFault::Reorder` (`sim.rs:197-201`). -/
def deliverAll (sim : SimCluster) : List Nat → Except ClusterError Unit × SimCluster
  | [] => (.ok (), sim)
  | messageId :: rest =>
    match sim.deliver messageId with
    | (.error e, sim) => (.error e, sim)
    | (.ok (), sim) => sim.deliverAll rest

/-- A change of the replica of a node, if there is one. -/
def onReplica (sim : SimCluster) (node : NodeId)
    (change : ReplicaState → Except ClusterError Unit × SimCluster) : Except ClusterError Unit × SimCluster :=
  match sim.replicas[node]? with
  | none => (.error (absent node), sim)
  | some replica => change replica

/-- `apply` (`sim.rs:169-231`). -/
def apply (sim : SimCluster) (fault : SimFault) : Except ClusterError Unit × SimCluster :=
  match fault with
  | .partition left right =>
    sim.onReplica left fun _ => sim.onReplica right fun _ =>
      { sim with blocked := insert (right, left) (insert (left, right) sim.blocked) }.verified
  | .heal left right =>
    { sim with blocked := (sim.blocked.erase (left, right)).erase (right, left) }.verified
  | .delay messageId ticks =>
    match sim.pending.findIdx? (·.id = messageId) with
    | none => (.error (.notFound s!"message {messageId}"), sim)
    | some position =>
      { sim with pending := sim.pending.modify position fun message =>
          { message with deliverAt := saturatingAdd message.deliverAt ticks } }.verified
  | .duplicate messageId =>
    match sim.pending.find? (·.id = messageId) with
    | none => (.error (.notFound s!"message {messageId}"), sim)
    | some message =>
      { sim with
        nextMessageId := saturatingAdd sim.nextMessageId 1
        pending := sim.pending ++ [{ message with id := sim.nextMessageId }] }.verified
  | .deliver messageId =>
    match sim.deliver messageId with
    | (.error e, sim) => (.error e, sim)
    | (.ok (), sim) => sim.verified
  | .reorder messageIds =>
    match sim.deliverAll messageIds with
    | (.error e, sim) => (.error e, sim)
    | (.ok (), sim) => sim.verified
  | .crash node =>
    sim.onReplica node fun replica => (sim.setReplica node { replica with online := false }).verified
  | .restart node =>
    sim.onReplica node fun replica =>
      if ¬ replica.diskPresent then
        (.error (.unavailable
          s!"node {node.asStr} cannot restart without a replacement disk and transfer"), sim)
      else (sim.setReplica node { replica with online := true }).verified
  | .clockSkew node offsetMs =>
    sim.onReplica node fun replica => (sim.setReplica node { replica with clockOffsetMs := offsetMs }).verified
  | .diskLoss node =>
    sim.onReplica node fun replica =>
      let sim := sim.setReplica node
        { replica with online := false, diskPresent := false, log := ∅, commitIndex := 0 }
      { sim with diskLosses := insert node sim.diskLosses }.verified

/-- `advance` (`sim.rs:233-236`). -/
def advance (sim : SimCluster) (ticks : Nat) : SimCluster := { sim with now := saturatingAdd sim.now ticks }

/-- The least id of a message that can be delivered (`sim.rs:241-246`). -/
def nextReady (sim : SimCluster) : Option Nat :=
  ((sim.pending.filter fun message => message.deliverAt ≤ sim.now ∧ sim.canDeliver message).map (·.id)).min?

/-! `deliver_ready` ends: what a delivery sends weighs less than the message it takes away. -/

def messageWeight (followers : Nat) (message : Message) : Nat :=
  match message.kind with
  | .append _ => followers + 3
  | .ack _ _ => followers + 2
  | .commit _ _ => 1

def weight (sim : SimCluster) : Nat := (sim.pending.map (messageWeight sim.followers.length)).sum

theorem weight_setReplica (sim : SimCluster) (node : NodeId) (replica : ReplicaState) :
    (sim.setReplica node replica).weight = sim.weight := rfl

theorem weight_countAck (sim : SimCluster) (index : Nat) (node : NodeId) :
    (sim.countAck index node).weight = sim.weight := rfl

theorem weight_enqueue (sim : SimCluster) (sender receiver : NodeId) (kind : MessageKind) :
    (sim.enqueue sender receiver kind).weight =
      sim.weight + messageWeight sim.followers.length ⟨sim.nextMessageId, sender, receiver, sim.now, kind⟩ := by
  show ((sim.pending ++ [_]).map (messageWeight sim.followers.length)).sum = _
  rw [List.map_append, List.sum_append, List.map_singleton, List.sum_singleton, weight]

theorem weight_broadcast_commit (sim : SimCluster) (term index : Nat) :
    (sim.broadcast (.commit term index)).weight = sim.weight + sim.followers.length := by
  suffices each : ∀ (nodes : List NodeId) (sim : SimCluster),
      (nodes.foldl (fun sim node => sim.enqueue sim.leader node (.commit term index)) sim).weight =
        sim.weight + nodes.length from each _ _
  intro nodes
  induction nodes with
  | nil =>
    intro sim
    rfl
  | cons node rest ih =>
    intro sim
    rw [List.foldl_cons, ih, weight_enqueue]
    simp only [messageWeight, List.length_cons]
    omega

theorem weight_maybeCommit_le (sim : SimCluster) (index : Nat) :
    (sim.maybeCommit index).2.weight ≤ sim.weight + sim.followers.length := by
  unfold maybeCommit
  split
  · exact Nat.le_add_right _ _
  · split
    · exact Nat.le_add_right _ _
    · split
      · exact Nat.le_add_right _ _
      · rw [weight_broadcast_commit]
        exact Nat.le_refl _

theorem weight_receive_lt (sim : SimCluster) (message : Message) :
    (sim.receive message).2.weight < sim.weight + messageWeight sim.followers.length message := by
  unfold receive
  cases sent : message.kind with
  | append entry =>
    rw [messageWeight, sent]
    dsimp only
    cases sim.replicas[message.receiver]? with
    | none => dsimp only; omega
    | some target =>
      dsimp only
      split
      · dsimp only; omega
      · cases target.log[entry.index]? with
        | some existing =>
          dsimp only
          split
          · dsimp only; omega
          · rw [verified, weight_enqueue]
            simp only [messageWeight]
            omega
        | none =>
          dsimp only
          have same : (sim.setReplica message.receiver
            { target with log := target.log.insert entry.index entry }).followers = sim.followers := rfl
          rw [verified, weight_enqueue, weight_setReplica, same]
          simp only [messageWeight]
          omega
  | ack term index =>
    rw [messageWeight, sent]
    have bound := weight_maybeCommit_le (sim.countAck index message.sender) index
    rw [weight_countAck] at bound
    have same : (sim.countAck index message.sender).followers = sim.followers := rfl
    rw [same] at bound
    dsimp only
    split
    · dsimp only; omega
    · rcases committed : (sim.countAck index message.sender).maybeCommit index with ⟨_ | _, next⟩
      all_goals
        rw [committed] at bound
        dsimp only [verified] at bound ⊢
        omega
  | commit term index =>
    rw [messageWeight, sent]
    dsimp only
    split
    · dsimp only; omega
    · cases sim.replicas[message.receiver]? with
      | none => dsimp only; omega
      | some target =>
        dsimp only
        split
        · dsimp only; omega
        · rw [verified, weight_setReplica]
          omega

theorem weight_taken {sim : SimCluster} {messageId : Nat} {message : Message}
    (found : sim.pending.find? (·.id = messageId) = some message) :
    ({ sim with pending := sim.pending.eraseP (·.id = messageId) } : SimCluster).weight +
      messageWeight sim.followers.length message = sim.weight := by
  suffices each : ∀ (messages : List Message), messages.find? (·.id = messageId) = some message →
      ((messages.eraseP (·.id = messageId)).map (messageWeight sim.followers.length)).sum +
        messageWeight sim.followers.length message =
          (messages.map (messageWeight sim.followers.length)).sum from each _ found
  intro messages found
  induction messages with
  | nil => cases found
  | cons first rest ih =>
    by_cases same : first.id = messageId
    · rw [List.find?_cons_of_pos (by simpa using same)] at found
      cases found
      rw [List.eraseP_cons_of_pos (by simpa using same), List.map_cons, List.sum_cons]
      omega
    · rw [List.find?_cons_of_neg (by simpa using same)] at found
      have smaller := ih found
      rw [List.eraseP_cons_of_neg (by simpa using same), List.map_cons, List.map_cons, List.sum_cons,
        List.sum_cons]
      omega

theorem weight_deliver_lt {sim next : SimCluster} {messageId : Nat} {result : Unit}
    (delivered : sim.deliver messageId = (.ok result, next)) : next.weight < sim.weight := by
  unfold deliver at delivered
  cases found : sim.pending.find? (·.id = messageId) with
  | none =>
    rw [found] at delivered
    cases delivered
  | some message =>
    rw [found] at delivered
    dsimp only at delivered
    split at delivered
    · cases delivered
    · have taken := weight_taken found
      have less := weight_receive_lt { sim with pending := sim.pending.eraseP (·.id = messageId) } message
      rw [delivered] at less
      change next.weight < _ + messageWeight sim.followers.length message at less
      omega

/-- `deliver_ready` (`sim.rs:238-254`), when so many have been delivered before. -/
def deliverReady (sim : SimCluster) (delivered : Nat) : Except ClusterError Nat × SimCluster :=
  match sim.nextReady with
  | none => (.ok delivered, sim)
  | some messageId =>
    match outcome : sim.deliver messageId with
    | (.error e, sim) => (.error e, sim)
    | (.ok (), next) => next.deliverReady (delivered + 1)
termination_by sim.weight
decreasing_by exact weight_deliver_lt outcome

/-- `reachable_voters` (`sim.rs:484-497`). -/
def reachableVoters (sim : SimCluster) : Nat :=
  sim.placement.voters.countP fun replica =>
    (∃ state ∈ sim.replicas[replica.node]?, state.up) ∧
      (replica.node = sim.leader ∨ (sim.leader, replica.node) ∉ sim.blocked)

/-- `leader_stamp` (`sim.rs:333-347`). -/
def leaderStamp (sim : SimCluster) : Except ClusterError ShardReadStamp :=
  match sim.replicas[sim.leader]? with
  | none => .error (absent sim.leader)
  | some leader =>
    if ¬ leader.up ∨ sim.reachableVoters < sim.quorum then
      .error (.unavailable "linearizable read requires an online leader connected to quorum")
    else
      .ok
        { term := 1
          commitIndex := leader.commitIndex
          placementEpoch := sim.placement.epoch
          stateDigest := stateDigest leader.log leader.commitIndex }

end SimCluster

end Vyrm.Cluster
