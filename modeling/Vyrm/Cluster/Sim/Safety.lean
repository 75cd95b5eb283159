import Vyrm.Cluster.Sim

/-!
# Safety of the simulator

What holds in every state of every run: a log is a run of what was proposed, an index is
acknowledged when a quorum stored it, and so an acknowledged entry outlives the disk losses that the
policy tolerates. `verify_safety`, which looks for the opposite, finds nothing.
-/

namespace Vyrm.Cluster
open Lib Vyrm.Core

/-- The entry that an index has in every log that holds it. -/
def proposed (commands : List Bytes) (index : Nat) : Option LogEntry :=
  if index = 0 then none
  else commands[index - 1]?.map fun command => ⟨1, index, sha256Hex command⟩

/-- A log that holds the first `n` proposals and nothing else. -/
def HoldsFirst (log : OrdMap Nat LogEntry) (commands : List Bytes) (n : Nat) : Prop :=
  n ≤ commands.length ∧ ∀ index, log[index]? = if index ≤ n then proposed commands index else none

theorem proposed_isSome {commands : List Bytes} {index : Nat} :
    (proposed commands index).isSome ↔ 0 < index ∧ index ≤ commands.length := by
  unfold proposed
  by_cases zero : index = 0
  · simp [zero]
  · rw [if_neg zero, Option.isSome_map, isSome_getElem?]
    omega

theorem index_of_proposed {commands : List Bytes} {index : Nat} {entry : LogEntry}
    (is : proposed commands index = some entry) : entry.index = index ∧ entry.term = 1 := by
  unfold proposed at is
  split at is
  · cases is
  · obtain ⟨command, _, rfl⟩ := Option.map_eq_some_iff.mp is
    exact ⟨rfl, rfl⟩

theorem proposed_append {commands : List Bytes} (command : Bytes) {index : Nat}
    (within : index ≤ commands.length) : proposed (commands ++ [command]) index = proposed commands index := by
  unfold proposed
  by_cases zero : index = 0
  · rw [if_pos zero, if_pos zero]
  · rw [if_neg zero, if_neg zero, List.getElem?_append_left (by omega)]

theorem proposed_append_last (commands : List Bytes) (command : Bytes) :
    proposed (commands ++ [command]) (commands.length + 1) =
      some ⟨1, commands.length + 1, sha256Hex command⟩ := by
  simp [proposed]

theorem proposed_append_of_some {commands : List Bytes} {index : Nat} {entry : LogEntry}
    (is : proposed commands index = some entry) (command : Bytes) :
    proposed (commands ++ [command]) index = some entry := by
  rw [proposed_append command (proposed_isSome.mp (by rw [is]; rfl)).2, is]

namespace HoldsFirst

variable {log : OrdMap Nat LogEntry} {commands : List Bytes} {n : Nat}

theorem empty (commands : List Bytes) : HoldsFirst ∅ commands 0 := by
  refine ⟨Nat.zero_le _, fun index => ?_⟩
  by_cases zero : index = 0
  · simp [zero, proposed]
  · rw [if_neg (by omega)]
    simp

theorem mem_iff (holds : HoldsFirst log commands n) {index : Nat} : index ∈ log ↔ 0 < index ∧ index ≤ n := by
  rw [← Std.ExtTreeMap.isSome_getElem?_iff_mem, holds.2 index]
  by_cases within : index ≤ n
  · rw [if_pos within, proposed_isSome]
    have := holds.1
    omega
  · simp [within]

theorem get (holds : HoldsFirst log commands n) {index : Nat} {entry : LogEntry} (stored : log[index]? = some entry) :
    proposed commands index = some entry := by
  rw [holds.2 index] at stored
  split at stored
  · exact stored
  · cases stored

/-- A further command does not touch the entries that are there. -/
theorem append (holds : HoldsFirst log commands n) (command : Bytes) : HoldsFirst log (commands ++ [command]) n := by
  refine ⟨by rw [List.length_append]; have := holds.1; omega, fun index => ?_⟩
  rw [holds.2 index]
  by_cases within : index ≤ n
  · rw [if_pos within, if_pos within, proposed_append command (Nat.le_trans within holds.1)]
  · rw [if_neg within, if_neg within]

/-- The entry that follows the last one. -/
theorem insert (holds : HoldsFirst log commands n) {entry : LogEntry}
    (next : proposed commands (n + 1) = some entry) :
    HoldsFirst (log.insert (n + 1) entry) commands (n + 1) := by
  refine ⟨(proposed_isSome.mp (by rw [next]; rfl)).2, fun index => ?_⟩
  by_cases last : n + 1 = index
  · subst last
    rw [OrdMap.getElem?_insert_self, if_pos (Nat.le_refl _), next]
  · rw [OrdMap.getElem?_insert_of_ne last, holds.2 index]
    by_cases within : index ≤ n
    · rw [if_pos within, if_pos (by omega)]
    · rw [if_neg within, if_neg (by omega)]

theorem last_key (holds : HoldsFirst log commands n) : log.keys.getLast?.getD 0 = n := by
  rw [← Std.ExtTreeMap.maxKey?_eq_getLast?_keys]
  cases greatest : log.maxKey? with
  | none =>
    have none : n ∉ log := by rw [Std.ExtTreeMap.maxKey?_eq_none_iff.mp greatest]; simp
    rw [holds.mem_iff] at none
    simp only [Option.getD_none]
    omega
  | some key =>
    obtain ⟨stored, above⟩ := Std.ExtTreeMap.maxKey?_eq_some_iff_mem_and_forall.mp greatest
    have inside := holds.mem_iff.mp stored
    have last := above n (holds.mem_iff.mpr ⟨by omega, Nat.le_refl _⟩)
    rw [Nat.isLE_compare] at last
    simp only [Option.getD_some]
    omega

end HoldsFirst

/-! ## The invariant -/

namespace SimCluster

def IsVoter (sim : SimCluster) (node : NodeId) : Prop := ∃ replica ∈ sim.placement.voters, replica.node = node

/-- The log of a node holds an index. -/
def Stores (sim : SimCluster) (node : NodeId) (index : Nat) : Prop :=
  ∃ replica, sim.replicas[node]? = some replica ∧ index ∈ replica.log

/-- A node holds an index, or it did before it lost its disk. -/
def Stored (sim : SimCluster) (before : NodeId → Nat → Prop) (node : NodeId) (index : Nat) : Prop :=
  sim.Stores node index ∨ (node ∈ sim.diskLosses ∧ before node index)

end SimCluster

structure ReplicaState.Sound (sim : SimCluster) (commands : List Bytes) (node : NodeId)
    (replica : ReplicaState) : Prop where
  log : ∃ n, HoldsFirst replica.log commands n
  lost : node ∈ sim.diskLosses → replica.log = ∅ ∧ replica.diskPresent = false
  leads : node = sim.leader → node ∉ sim.diskLosses → HoldsFirst replica.log commands commands.length
  committed : replica.commitIndex = 0 ∨
    (replica.commitIndex ∈ replica.log ∧ sim.isAcknowledged replica.commitIndex)

def Message.Sound (sim : SimCluster) (before : NodeId → Nat → Prop) (commands : List Bytes)
    (message : Message) : Prop :=
  match message.kind with
  | .append entry =>
    message.sender = sim.leader ∧ sim.IsVoter message.receiver ∧ proposed commands entry.index = some entry
  | .ack term index =>
    term = 1 ∧ message.receiver = sim.leader ∧ sim.IsVoter message.sender ∧
      (proposed commands index).isSome ∧ sim.Stored before message.sender index
  | .commit term index => term = 1 ∧ message.sender = sim.leader ∧ sim.isAcknowledged index

/-- What every call since `start` keeps. `before` says what was stored at some time, and `commands`
is what was proposed. -/
structure SimCluster.Sound (sim start : SimCluster) (before : NodeId → Nat → Prop) (commands : List Bytes) :
    Prop where
  placed : sim.placement = start.placement ∧ sim.leader = start.leader
  valid : sim.placement.validate = .ok ()
  leader : sim.IsVoter sim.leader
  present : ∀ node, sim.IsVoter node → ∃ replica, sim.replicas[node]? = some replica
  replica : ∀ node (replica : ReplicaState), sim.replicas[node]? = some replica →
    replica.Sound sim commands node
  message : ∀ message ∈ sim.pending, message.Sound sim before commands
  counted : ∀ index, ∀ node ∈ sim.ackSet index,
    sim.IsVoter node ∧ (proposed commands index).isSome ∧ sim.Stored before node index
  acknowledged : ∀ index digest, sim.acknowledged[index]? = some digest →
    sim.quorum ≤ (sim.ackSet index).card ∧
      ∃ entry, proposed commands index = some entry ∧ entry.commandDigest = digest

/-- A call that kept the invariant, and was not denied. -/
def Fine {α : Type} (start : SimCluster) (before : NodeId → Nat → Prop) (commands : List Bytes)
    (outcome : Except ClusterError α × SimCluster) : Prop :=
  outcome.2.Sound start before commands ∧ ∀ reason, outcome.1 ≠ .error (.denied reason)

namespace SimCluster

variable {start sim : SimCluster} {before : NodeId → Nat → Prop} {commands : List Bytes}

theorem mem_acknowledged {index : Nat} :
    sim.isAcknowledged index = true ↔ ∃ digest, sim.acknowledged[index]? = some digest := by
  rw [isAcknowledged, Std.ExtTreeMap.contains_eq_isSome_getElem?, Option.isSome_iff_exists]

/-! ## `verify_safety` -/

/-- An entry that is acknowledged is held by a voter, unless too many disks are lost. -/
theorem Sound.durable (sound : sim.Sound start before commands) {index : Nat} {digest : String}
    (acknowledged : sim.acknowledged[index]? = some digest)
    (tolerated : sim.diskLosses.card ≤ sim.placement.policy.toleratedFailures) :
    ∃ node replica entry, sim.IsVoter node ∧ sim.replicas[node]? = some replica ∧
      replica.log[index]? = some entry ∧ entry.commandDigest = digest := by
  obtain ⟨quorum, entry, is, same⟩ := sound.acknowledged index digest acknowledged
  have fewer := (PlacementPolicy.toleratedFailures_lt_quorum
    (ShardPlacement.policy_of_validate sound.valid)).1
  have less : sim.diskLosses.card < (sim.ackSet index).card := by
    rw [SimCluster.quorum] at quorum
    omega
  obtain ⟨node, counted, kept⟩ := Finset.exists_mem_notMem_of_card_lt_card less
  obtain ⟨voter, _, stored⟩ := sound.counted index node counted
  rcases stored with ⟨replica, found, stored⟩ | ⟨lost, _⟩
  · obtain ⟨n, holds⟩ := (sound.replica node replica found).log
    have held : replica.log[index]? = some entry := by
      rw [holds.2 index, if_pos (holds.mem_iff.mp stored).2, is]
    exact ⟨node, replica, entry, voter, found, held, same⟩
  · exact absurd lost kept

theorem mem_storedAt {index : Nat} {entry : LogEntry} :
    entry ∈ sim.storedAt index ↔
      ∃ (node : NodeId) (replica : ReplicaState), sim.replicas[node]? = some replica ∧
        replica.log[index]? = some entry := by
  rw [storedAt, List.mem_filterMap]
  constructor
  · intro ⟨replica, listed, stored⟩
    obtain ⟨node, found⟩ := OrdMap.mem_values.mp listed
    exact ⟨node, replica, found, stored⟩
  · intro ⟨node, replica, found, stored⟩
    exact ⟨replica, OrdMap.mem_values.mpr ⟨node, found⟩, stored⟩

theorem length_dedup_le_one {α : Type} [DecidableEq α] {items : List α} (a : α) (same : ∀ b ∈ items, b = a) :
    items.dedup.length ≤ 1 := by
  have all : ∀ b ∈ items.dedup, b = a := fun b listed => same b (List.mem_dedup.mp listed)
  have once := items.nodup_dedup
  match items.dedup, all, once with
  | [], _, _ => exact Nat.zero_le _
  | [_], _, _ => exact Nat.le_refl _
  | b :: c :: rest, all, once =>
    have equal : b = c := (all b (by simp)).trans (all c (by simp)).symm
    exact absurd equal (List.ne_of_not_mem_cons (List.nodup_cons.mp once).1)

theorem Sound.verifySafety (sound : sim.Sound start before commands) : sim.verifySafety = .ok () := by
  have committed : ¬ ∃ replica ∈ sim.replicas.values, 0 < replica.commitIndex ∧
      replica.commitIndex ∉ replica.log := by
    intro ⟨replica, listed, positive, missing⟩
    obtain ⟨node, found⟩ := OrdMap.mem_values.mp listed
    rcases (sound.replica node replica found).committed with zero | ⟨stored, _⟩
    · omega
    · exact missing stored
  have agree : ∀ index, ∀ entry ∈ sim.storedAt index, proposed commands index = some entry := by
    intro index entry stored
    obtain ⟨node, replica, found, stored⟩ := mem_storedAt.mp stored
    obtain ⟨n, holds⟩ := (sound.replica node replica found).log
    exact holds.get stored
  have single : ∀ index,
      ¬ 1 < ((sim.storedAt index).map fun entry => (entry.term, entry.commandDigest)).dedup.length := by
    intro index
    rw [Nat.not_lt]
    cases is : proposed commands index with
    | none =>
      have empty : sim.storedAt index = [] := List.eq_nil_iff_forall_not_mem.mpr fun entry stored => by
        cases (agree index entry stored).symm.trans is
      simp [empty]
    | some shared =>
      refine length_dedup_le_one (shared.term, shared.commandDigest) fun pair listed => ?_
      obtain ⟨entry, stored, rfl⟩ := List.mem_map.mp listed
      cases (agree index entry stored).symm.trans is
      rfl
  unfold SimCluster.verifySafety
  rw [if_neg committed]
  rw [List.find?_eq_none.mpr fun index _ => by simpa using single index]
  dsimp only
  rw [List.find?_eq_none.mpr]
  intro ⟨index, digest⟩ listed lost
  rw [decide_eq_true_eq] at lost
  obtain ⟨tolerated, none⟩ := lost
  obtain ⟨node, replica, entry, _, found, stored, same⟩ :=
    sound.durable (Std.ExtTreeMap.mem_toList_iff_getElem?_eq_some.mp listed) tolerated
  rw [List.countP_eq_zero] at none
  exact none entry (mem_storedAt.mpr ⟨node, replica, found, stored⟩) (decide_eq_true same)

theorem Sound.verified (sound : sim.Sound start before commands) : Fine start before commands sim.verified := by
  refine ⟨sound, fun reason => ?_⟩
  rw [SimCluster.verified, sound.verifySafety]
  simp

/-! ## What one change keeps -/

theorem Sound.enqueue (sound : sim.Sound start before commands) {sender receiver : NodeId} {kind : MessageKind}
    (sent : Message.Sound sim before commands ⟨sim.nextMessageId, sender, receiver, sim.now, kind⟩) :
    (sim.enqueue sender receiver kind).Sound start before commands :=
  { sound with
    message := fun message queued => by
      rcases List.mem_append.mp queued with old | new
      · exact sound.message message old
      · rw [List.mem_singleton.mp new]
        exact sent
    replica := fun node replica found =>
      have old := sound.replica node replica found
      ⟨old.log, old.lost, old.leads, old.committed⟩ }

theorem mem_followers {node : NodeId} (follower : node ∈ sim.followers) : sim.IsVoter node := by
  obtain ⟨replica, voter, rfl⟩ := List.mem_map.mp (List.mem_filter.mp follower).1
  exact ⟨replica, voter, rfl⟩

/-- Sending does nothing but send. -/
theorem broadcast_frame (sim : SimCluster) (kind : MessageKind) :
    ∃ pending nextMessageId, sim.broadcast kind = { sim with pending, nextMessageId } := by
  suffices each : ∀ (nodes : List NodeId) (now : SimCluster), ∃ pending nextMessageId,
      nodes.foldl (fun sim node => sim.enqueue sim.leader node kind) now =
        { now with pending, nextMessageId } from each _ _
  intro nodes
  induction nodes with
  | nil => exact fun now => ⟨now.pending, now.nextMessageId, rfl⟩
  | cons node rest ih =>
    intro now
    obtain ⟨pending, nextMessageId, rest⟩ := ih (now.enqueue now.leader node kind)
    exact ⟨pending, nextMessageId, rest⟩

theorem Sound.broadcast (sound : sim.Sound start before commands) (kind : MessageKind)
    (sent : ∀ (id at_ : Nat) (node : NodeId), sim.IsVoter node →
      Message.Sound sim before commands ⟨id, sim.leader, node, at_, kind⟩) :
    (sim.broadcast kind).Sound start before commands := by
  suffices each : ∀ (nodes : List NodeId) (now : SimCluster), (∀ node ∈ nodes, sim.IsVoter node) →
      now.Sound start before commands → now.leader = sim.leader → now.placement = sim.placement →
      (∀ (id at_ : Nat) (node : NodeId), sim.IsVoter node →
        Message.Sound now before commands ⟨id, sim.leader, node, at_, kind⟩) →
      (nodes.foldl (fun sim node => sim.enqueue sim.leader node kind) now).Sound start before commands from
    each _ _ (fun _ follower => mem_followers follower) sound rfl rfl sent
  intro nodes
  induction nodes with
  | nil =>
    intro now _ sound _ _ _
    exact sound
  | cons node rest ih =>
    intro now voters sound leader placement sent
    refine ih _ (fun node listed => voters node (by simp [listed])) ?_ leader placement sent
    refine sound.enqueue ?_
    rw [leader]
    exact sent now.nextMessageId now.now node (voters node (by simp))

/-- A replica takes the place of one whose log was part of its own, while more may be proposed. -/
theorem Sound.replace (sound : sim.Sound start before commands) {longer : List Bytes} {node : NodeId}
    {old : ReplicaState} (there : sim.replicas[node]? = some old) (new : ReplicaState)
    (more : ∀ index, index ∈ old.log → index ∈ new.log)
    (still : ∀ index entry, proposed commands index = some entry → proposed longer index = some entry)
    (others : ∀ other (replica : ReplicaState), other ≠ node → replica.Sound sim commands other →
      replica.Sound sim longer other)
    (kept : new.Sound sim longer node) : (sim.setReplica node new).Sound start before longer := by
  have asked : ∀ index, (proposed commands index).isSome → (proposed longer index).isSome := by
    intro index is
    obtain ⟨entry, is⟩ := Option.isSome_iff_exists.mp is
    rw [still index entry is]
    rfl
  have look : ∀ other : NodeId, (sim.setReplica node new).replicas[other]? =
      if other = node then some new else sim.replicas[other]? := by
    intro other
    by_cases same : other = node
    · rw [if_pos same, same]
      exact OrdMap.getElem?_insert_self _ _ _
    · rw [if_neg same]
      exact OrdMap.getElem?_insert_of_ne (Ne.symm same)
  have stored : ∀ other index, sim.Stored before other index →
      (sim.setReplica node new).Stored before other index := by
    intro other index stored
    rcases stored with ⟨replica, found, stored⟩ | lost
    · refine .inl ?_
      rw [Stores, look other]
      by_cases same : other = node
      · rw [if_pos same]
        subst same
        cases there.symm.trans found
        exact ⟨new, rfl, more index stored⟩
      · rw [if_neg same]
        exact ⟨replica, found, stored⟩
    · exact .inr lost
  exact
    { placed := sound.placed
      valid := sound.valid
      leader := sound.leader
      present := fun other voter => by
        rw [look other]
        by_cases same : other = node
        · exact ⟨new, if_pos same⟩
        · rw [if_neg same]
          exact sound.present other voter
      replica := fun other replica found => by
        rw [look other] at found
        by_cases same : other = node
        · rw [if_pos same, Option.some.injEq] at found
          rw [same, ← found]
          exact ⟨kept.log, kept.lost, kept.leads, kept.committed⟩
        · rw [if_neg same] at found
          have old := others other replica same (sound.replica other replica found)
          exact ⟨old.log, old.lost, old.leads, old.committed⟩
      message := fun message queued => by
        have old := sound.message message queued
        unfold Message.Sound at old ⊢
        cases sent : message.kind with
        | append entry =>
          rw [sent] at old
          exact ⟨old.1, old.2.1, still _ _ old.2.2⟩
        | ack term index =>
          rw [sent] at old
          obtain ⟨term, route, voter, is, held⟩ := old
          exact ⟨term, route, voter, asked _ is, stored _ _ held⟩
        | commit term index => rw [sent] at old; exact old
      counted := fun index other counted =>
        have old := sound.counted index other counted
        ⟨old.1, asked _ old.2.1, stored _ _ old.2.2⟩
      acknowledged := fun index digest acknowledged => by
        obtain ⟨quorum, entry, is, same⟩ := sound.acknowledged index digest acknowledged
        exact ⟨quorum, entry, still index entry is, same⟩ }

theorem Sound.setReplica (sound : sim.Sound start before commands) {node : NodeId} {old : ReplicaState}
    (there : sim.replicas[node]? = some old) (new : ReplicaState) (more : ∀ index, index ∈ old.log → index ∈ new.log)
    (kept : new.Sound sim commands node) : (sim.setReplica node new).Sound start before commands :=
  sound.replace there new more (fun _ _ => id) (fun _ _ _ => id) kept

theorem Sound.countAck (sound : sim.Sound start before commands) {index : Nat} {node : NodeId}
    (voter : sim.IsVoter node) (is : (proposed commands index).isSome)
    (stored : sim.Stored before node index) : (sim.countAck index node).Sound start before commands := by
  have look : ∀ other, (sim.countAck index node).ackSet other =
      if other = index then insert node (sim.ackSet index) else sim.ackSet other := by
    intro other
    by_cases same : other = index
    · rw [if_pos same, same, ackSet, SimCluster.countAck, OrdMap.getElem?_insert_self, Option.getD_some]
    · rw [if_neg same, ackSet, SimCluster.countAck, OrdMap.getElem?_insert_of_ne (Ne.symm same), ackSet]
  exact
    { placed := sound.placed
      valid := sound.valid
      leader := sound.leader
      present := sound.present
      replica := fun node replica found =>
        have old := sound.replica node replica found
        ⟨old.log, old.lost, old.leads, old.committed⟩
      message := sound.message
      counted := fun other node' counted => by
        rw [look other] at counted
        by_cases same : other = index
        · rw [if_pos same, Finset.mem_insert] at counted
          subst same
          rcases counted with new | old
          · rw [new]
            exact ⟨voter, is, stored⟩
          · exact sound.counted other node' old
        · rw [if_neg same] at counted
          exact sound.counted other node' counted
      acknowledged := fun other digest acknowledged => by
        obtain ⟨quorum, entry⟩ := sound.acknowledged other digest acknowledged
        refine ⟨Nat.le_trans quorum ?_, entry⟩
        rw [look other]
        by_cases same : other = index
        · rw [if_pos same, same]
          exact Finset.card_le_card (Finset.subset_insert _ _)
        · rw [if_neg same] }

/-- `maybe_commit`, while the leader has its disk. -/
theorem Sound.maybeCommit (sound : sim.Sound start before commands) (index : Nat)
    (kept : sim.leader ∉ sim.diskLosses) :
    (sim.maybeCommit index).1 = .ok () ∧ (sim.maybeCommit index).2.Sound start before commands := by
  unfold SimCluster.maybeCommit
  by_cases nothing : sim.isAcknowledged index ∨ (sim.ackSet index).card < sim.quorum
  · rw [if_pos nothing]
    exact ⟨rfl, sound⟩
  · rw [if_neg nothing]
    obtain ⟨fresh, quorum⟩ := not_or.mp nothing
    rw [Nat.not_lt] at quorum
    obtain ⟨leader, found⟩ := sound.present _ sound.leader
    have lead := sound.replica _ leader found
    have log := lead.leads rfl kept
    have positive := (PlacementPolicy.toleratedFailures_lt_quorum
      (ShardPlacement.policy_of_validate sound.valid)).2
    obtain ⟨node, counted⟩ : (sim.ackSet index).Nonempty := by
      rw [← Finset.card_pos]
      rw [SimCluster.quorum] at quorum
      omega
    have is := (sound.counted index node counted).2.1
    obtain ⟨entry, is⟩ := Option.isSome_iff_exists.mp is
    have within := proposed_isSome.mp (by rw [is]; rfl)
    have stored : leader.log[index]? = some entry := by
      rw [log.2 index, if_pos within.2, is]
    rw [found]
    dsimp only
    rw [stored]
    dsimp only
    refine ⟨rfl, ?_⟩
    have noted : ({ sim with acknowledged := sim.acknowledged.insert index entry.commandDigest } :
        SimCluster).Sound start before commands := by
      have more : ∀ other, sim.isAcknowledged other →
          SimCluster.isAcknowledged { sim with
            acknowledged := sim.acknowledged.insert index entry.commandDigest } other := by
        intro other old
        simp only [isAcknowledged, Std.ExtTreeMap.contains_insert, Bool.or_eq_true]
        exact .inr old
      exact
        { placed := sound.placed
          valid := sound.valid
          leader := sound.leader
          present := sound.present
          replica := fun node replica found =>
            have old := sound.replica node replica found
            ⟨old.log, old.lost, old.leads, old.committed.imp_right fun old => ⟨old.1, more _ old.2⟩⟩
          message := fun message queued => by
            have old := sound.message message queued
            unfold Message.Sound at old ⊢
            cases sent : message.kind with
            | append entry => rw [sent] at old; exact old
            | ack term index => rw [sent] at old; exact old
            | commit term index =>
              rw [sent] at old
              exact ⟨old.1, old.2.1, more _ old.2.2⟩
          counted := sound.counted
          acknowledged := fun other digest noted => by
            by_cases same : index = other
            · subst same
              rw [OrdMap.getElem?_insert_self, Option.some.injEq] at noted
              exact ⟨quorum, entry, is, noted⟩
            · rw [OrdMap.getElem?_insert_of_ne same] at noted
              exact sound.acknowledged other digest noted }
    have acknowledged : SimCluster.isAcknowledged { sim with
        acknowledged := sim.acknowledged.insert index entry.commandDigest } index := by
      simp [isAcknowledged]
    have marked := noted.setReplica found { leader with commitIndex := index } (fun _ => id)
      ⟨lead.log, lead.lost, lead.leads, .inr ⟨log.mem_iff.mpr within, acknowledged⟩⟩
    refine marked.broadcast _ fun id at_ node voter => ?_
    exact ⟨(index_of_proposed is).2, rfl, acknowledged⟩

/-! ## The calls -/

theorem up_kept (sound : sim.Sound start before commands) {node : NodeId} {replica : ReplicaState}
    (found : sim.replicas[node]? = some replica) (up : replica.up) : node ∉ sim.diskLosses := by
  intro lost
  have gone := ((sound.replica node replica found).lost lost).2
  rw [ReplicaState.up, gone] at up
  exact absurd up.2 (by simp)

theorem Sound.receive (sound : sim.Sound start before commands) {message : Message}
    (sent : message.Sound sim before commands) (free : sim.canDeliver message) :
    Fine start before commands (sim.receive message) := by
  obtain ⟨_, _, ⟨receiver, found, up⟩, _⟩ := free
  have kept := up_kept sound found up
  unfold Message.Sound at sent
  unfold SimCluster.receive
  cases is : message.kind with
  | append entry =>
    rw [is] at sent
    obtain ⟨sender, voter, is⟩ := sent
    have old := sound.replica _ receiver found
    obtain ⟨n, holds⟩ := old.log
    have within := proposed_isSome.mp (by rw [is]; rfl)
    have term := (index_of_proposed is).2
    have acked : ∀ sim' : SimCluster, sim'.Sound start before commands → sim'.leader = sim.leader →
        sim'.placement = sim.placement → sim'.Stores message.receiver entry.index →
        Fine start before commands
          (sim'.enqueue message.receiver message.sender (.ack entry.term entry.index)).verified := by
      intro sim' sound leader placement stores
      refine (sound.enqueue ?_).verified
      refine ⟨term, sender.trans leader.symm, ?_, by rw [is]; rfl, .inl stores⟩
      rw [IsVoter, placement]
      exact voter
    rw [found]
    dsimp only
    by_cases early : 1 < entry.index ∧ entry.index - 1 ∉ receiver.log
    · rw [if_pos early]
      exact ⟨sound, by simp⟩
    · rw [if_neg early]
      cases stored : receiver.log[entry.index]? with
      | some existing =>
        have same : existing = entry := by
          cases (holds.get stored).symm.trans is
          rfl
        dsimp only
        rw [if_neg (not_not.mpr same)]
        refine acked sim sound rfl rfl ⟨receiver, found, ?_⟩
        rw [← Std.ExtTreeMap.isSome_getElem?_iff_mem, stored]
        rfl
      | none =>
        have missing : entry.index ∉ receiver.log := by
          rw [← Std.ExtTreeMap.isSome_getElem?_iff_mem, stored]
          simp
        -- the entry is the one that follows what the log holds
        have next : entry.index = n + 1 := by
          rw [holds.mem_iff] at missing
          by_cases first : 1 < entry.index
          · have before := not_not.mp (fun absent => early ⟨first, absent⟩)
            rw [holds.mem_iff] at before
            omega
          · omega
        have longer : HoldsFirst (receiver.log.insert entry.index entry) commands (n + 1) := by
          rw [next]
          exact holds.insert (by rw [← next]; exact is)
        refine acked (sim.setReplica message.receiver
          { receiver with log := receiver.log.insert entry.index entry })
          (sound.setReplica found _ ?_ ?_) rfl rfl ⟨_, OrdMap.getElem?_insert_self _ _ _, ?_⟩
        · intro index stored
          exact Std.ExtTreeMap.mem_insert.mpr (.inr stored)
        · refine ⟨⟨n + 1, longer⟩, fun lost => absurd lost kept, fun leads _ => ?_, ?_⟩
          · have all := old.leads leads kept
            rw [all.mem_iff] at missing
            omega
          · exact old.committed.imp_right fun old => ⟨Std.ExtTreeMap.mem_insert.mpr (.inr old.1), old.2⟩
        · exact longer.mem_iff.mpr ⟨within.1, by omega⟩
  | ack term index =>
    rw [is] at sent
    obtain ⟨term, route, voter, is, stored⟩ := sent
    dsimp only
    rw [if_neg (by simp [term, route])]
    have counted := sound.countAck voter is stored
    have committed := counted.maybeCommit index (by rw [route] at kept; exact kept)
    rcases result : (sim.countAck index message.sender).maybeCommit index with ⟨_ | _, next⟩
    · rw [result] at committed
      cases committed.1
    · rw [result] at committed
      exact committed.2.verified
  | commit term index =>
    rw [is] at sent
    obtain ⟨term, route, acknowledged⟩ := sent
    dsimp only
    rw [if_neg (by simp [term, route]), found]
    dsimp only
    by_cases absent : index ∉ receiver.log
    · rw [if_pos absent]
      exact ⟨sound, by simp⟩
    · rw [if_neg absent]
      have old := sound.replica _ receiver found
      refine (sound.setReplica found { receiver with commitIndex := max receiver.commitIndex index } (fun _ => id)
        ⟨old.log, old.lost, old.leads, ?_⟩).verified
      rcases Nat.le_total receiver.commitIndex index with less | less
      · rw [Nat.max_eq_right less]
        exact .inr ⟨not_not.mp absent, acknowledged⟩
      · rw [Nat.max_eq_left less]
        exact old.committed

/-- A change of the messages on their way, and of the clock and the network. -/
theorem Sound.reschedule (sound : sim.Sound start before commands) (pending : List Message) (nextMessageId now : Nat)
    (blocked : Finset (NodeId × NodeId)) (sent : ∀ message ∈ pending, message.Sound sim before commands) :
    Sound { sim with pending, nextMessageId, now, blocked } start before commands :=
  { sound with
    message := sent
    replica := fun node replica found =>
      have old := sound.replica node replica found
      ⟨old.log, old.lost, old.leads, old.committed⟩ }

theorem Sound.deliver (sound : sim.Sound start before commands) (messageId : Nat) :
    Fine start before commands (sim.deliver messageId) := by
  unfold SimCluster.deliver
  cases found : sim.pending.find? (·.id = messageId) with
  | none => exact ⟨sound, by simp⟩
  | some message =>
    dsimp only
    by_cases free : sim.canDeliver message
    · rw [if_neg (not_not.mpr free)]
      have taken := sound.reschedule (sim.pending.eraseP (·.id = messageId)) sim.nextMessageId sim.now
        sim.blocked (fun message queued => sound.message message (List.mem_of_mem_eraseP queued))
      exact taken.receive (sound.message message (List.mem_of_find?_eq_some found)) free
    · rw [if_pos free]
      exact ⟨sound, by simp⟩

theorem Sound.deliverAll (sound : sim.Sound start before commands) (messageIds : List Nat) :
    Fine start before commands (sim.deliverAll messageIds) := by
  induction messageIds generalizing sim with
  | nil => exact ⟨sound, by simp [SimCluster.deliverAll]⟩
  | cons messageId rest ih =>
    have first := sound.deliver messageId
    rw [SimCluster.deliverAll]
    rcases result : sim.deliver messageId with ⟨_ | _, next⟩
    · rw [result] at first
      exact ⟨first.1, first.2⟩
    · rw [result] at first
      exact ih first.1

theorem Sound.deliverReady (sound : sim.Sound start before commands) (delivered : Nat) :
    Fine start before commands (sim.deliverReady delivered) := by
  induction sim, delivered using SimCluster.deliverReady.induct with
  | case1 sim delivered idle =>
    rw [SimCluster.deliverReady, idle]
    exact ⟨sound, by simp⟩
  | case2 sim delivered messageId ready e next failed =>
    have first := sound.deliver messageId
    rw [failed] at first
    rw [SimCluster.deliverReady, ready]
    dsimp only
    split
    · rename_i other _ again
      cases failed.symm.trans again
      exact ⟨first.1, fun reason => by simpa using first.2 reason⟩
    · rename_i again
      cases failed.symm.trans again
  | case3 sim delivered messageId ready next done ih =>
    have first := sound.deliver messageId
    rw [done] at first
    rw [SimCluster.deliverReady, ready]
    dsimp only
    split
    · rename_i again
      cases done.symm.trans again
    · rename_i again
      cases done.symm.trans again
      exact ih first.1

theorem Sound.onReplica (sound : sim.Sound start before commands) {node : NodeId}
    {change : ReplicaState → Except ClusterError Unit × SimCluster}
    (fine : ∀ replica, sim.replicas[node]? = some replica → Fine start before commands (change replica)) :
    Fine start before commands (sim.onReplica node change) := by
  unfold SimCluster.onReplica
  cases found : sim.replicas[node]? with
  | none => exact ⟨sound, by simp [absent]⟩
  | some replica => exact fine replica found

/-- A disk is lost, and what it held was stored before. -/
theorem Sound.diskLoss (sound : sim.Sound start before commands) {node : NodeId} {replica : ReplicaState}
    (found : sim.replicas[node]? = some replica) (stored : ∀ index, sim.Stores node index → before node index) :
    Sound { sim.setReplica node
        { replica with online := false, diskPresent := false, log := ∅, commitIndex := 0 } with
      diskLosses := insert node sim.diskLosses } start before commands := by
  have look : ∀ other : NodeId, (sim.setReplica node
      { replica with online := false, diskPresent := false, log := ∅, commitIndex := 0 }).replicas[other]? =
      if other = node then
        some { replica with online := false, diskPresent := false, log := ∅, commitIndex := 0 }
      else sim.replicas[other]? := by
    intro other
    by_cases same : other = node
    · rw [if_pos same, same]
      exact OrdMap.getElem?_insert_self _ _ _
    · rw [if_neg same]
      exact OrdMap.getElem?_insert_of_ne (Ne.symm same)
  have held : ∀ other index, sim.Stored before other index →
      Stored { sim.setReplica node
        { replica with online := false, diskPresent := false, log := ∅, commitIndex := 0 } with
          diskLosses := insert node sim.diskLosses } before other index := by
    intro other index held
    by_cases same : other = node
    · refine .inr ⟨by simp [same], ?_⟩
      rcases held with stores | ⟨_, past⟩
      · subst same
        exact stored index stores
      · exact past
    · rcases held with ⟨state, there, stores⟩ | ⟨lost, past⟩
      · refine .inl ⟨state, ?_, stores⟩
        exact (look other).trans ((if_neg same).trans there)
      · exact .inr ⟨Finset.mem_insert_of_mem lost, past⟩
  exact
    { placed := sound.placed
      valid := sound.valid
      leader := sound.leader
      present := fun other voter => by
        by_cases same : other = node
        · exact ⟨_, (look other).trans (if_pos same)⟩
        · obtain ⟨state, there⟩ := sound.present other voter
          exact ⟨state, (look other).trans ((if_neg same).trans there)⟩
      replica := fun other state there => by
        replace there := (look other).symm.trans there
        by_cases same : other = node
        · rw [if_pos same, Option.some.injEq] at there
          subst there
          refine ⟨⟨0, HoldsFirst.empty commands⟩, fun _ => ⟨rfl, rfl⟩, fun _ kept => ?_, .inl rfl⟩
          exact absurd (by simp [same]) kept
        · rw [if_neg same] at there
          have old := sound.replica other state there
          refine ⟨old.log, fun lost => old.lost ?_, fun leads kept => old.leads leads ?_, old.committed⟩
          · exact (Finset.mem_insert.mp lost).resolve_left same
          · exact fun lost => kept (Finset.mem_insert_of_mem lost)
      message := fun message queued => by
        have old := sound.message message queued
        unfold Message.Sound at old ⊢
        cases sent : message.kind with
        | append entry => rw [sent] at old; exact old
        | ack term index =>
          rw [sent] at old
          obtain ⟨term, route, voter, some, stored⟩ := old
          exact ⟨term, route, voter, some, held _ _ stored⟩
        | commit term index => rw [sent] at old; exact old
      counted := fun index other counted =>
        have old := sound.counted index other counted
        ⟨old.1, old.2.1, held _ _ old.2.2⟩
      acknowledged := sound.acknowledged }

theorem Sound.apply (sound : sim.Sound start before commands)
    (past : ∀ node index, sim.Stores node index → before node index) (fault : SimFault) :
    Fine start before commands (sim.apply fault) := by
  cases fault with
  | partition left right =>
    refine sound.onReplica fun _ _ => sound.onReplica fun _ _ => ?_
    exact (sound.reschedule _ _ _ _ sound.message).verified
  | heal left right => exact (sound.reschedule _ _ _ _ sound.message).verified
  | delay messageId ticks =>
    simp only [SimCluster.apply]
    cases sim.pending.findIdx? (·.id = messageId) with
    | none => exact ⟨sound, by simp⟩
    | some position =>
      refine (sound.reschedule _ _ _ _ fun message queued => ?_).verified
      rw [List.modify_eq_set_getElem?] at queued
      cases there : sim.pending[position]? with
      | none =>
        rw [there] at queued
        exact sound.message message queued
      | some delayed =>
        rw [there] at queued
        rcases List.mem_or_eq_of_mem_set queued with old | rfl
        · exact sound.message message old
        · exact sound.message delayed (List.mem_of_getElem? there)
  | duplicate messageId =>
    simp only [SimCluster.apply]
    cases found : sim.pending.find? (·.id = messageId) with
    | none => exact ⟨sound, by simp⟩
    | some copied =>
      refine (sound.reschedule _ _ _ _ fun message queued => ?_).verified
      rcases List.mem_append.mp queued with old | new
      · exact sound.message message old
      · rw [List.mem_singleton.mp new]
        exact sound.message copied (List.mem_of_find?_eq_some found)
  | deliver messageId =>
    have delivered := sound.deliver messageId
    rw [SimCluster.apply]
    rcases result : sim.deliver messageId with ⟨_ | _, next⟩
    · rw [result] at delivered
      exact delivered
    · rw [result] at delivered
      exact delivered.1.verified
  | reorder messageIds =>
    have delivered := sound.deliverAll messageIds
    rw [SimCluster.apply]
    rcases result : sim.deliverAll messageIds with ⟨_ | _, next⟩
    · rw [result] at delivered
      exact delivered
    · rw [result] at delivered
      exact delivered.1.verified
  | crash node =>
    refine sound.onReplica fun replica found =>
      (sound.setReplica found { replica with online := false } (fun _ => id) ?_).verified
    have old := sound.replica node replica found
    exact ⟨old.log, old.lost, old.leads, old.committed⟩
  | restart node =>
    refine sound.onReplica fun replica found => ?_
    by_cases gone : ¬ replica.diskPresent
    · rw [if_pos gone]
      exact ⟨sound, by simp⟩
    · rw [if_neg gone]
      have old := sound.replica node replica found
      exact (sound.setReplica found { replica with online := true } (fun _ => id)
        ⟨old.log, old.lost, old.leads, old.committed⟩).verified
  | clockSkew node offsetMs =>
    refine sound.onReplica fun replica found =>
      (sound.setReplica found { replica with clockOffsetMs := offsetMs } (fun _ => id) ?_).verified
    have old := sound.replica node replica found
    exact ⟨old.log, old.lost, old.leads, old.committed⟩
  | diskLoss node =>
    exact sound.onReplica fun replica found => (sound.diskLoss found (past node)).verified

/-- A proposal that is accepted is the next of the commands. -/
theorem Sound.propose (sound : sim.Sound start before commands) (command : Bytes) :
    Fine start before (if (sim.propose command).1.isOk then commands ++ [command] else commands)
      (sim.propose command) := by
  obtain ⟨leader, found⟩ := sound.present _ sound.leader
  have old := sound.replica _ leader found
  by_cases down : ¬ leader.up
  · have refused : sim.propose command =
        (.error (.unavailable "leader cannot durably accept a proposal"), sim) := by
      rw [SimCluster.propose, found]
      dsimp only
      rw [if_pos down]
    rw [refused]
    exact ⟨sound, by simp⟩
  · have kept := up_kept sound found (not_not.mp down)
    have log := old.leads rfl kept
    have last := proposed_append_last commands command
    let entry : LogEntry := ⟨1, commands.length + 1, sha256Hex command⟩
    let longer := { leader with log := leader.log.insert (commands.length + 1) entry }
    have holds : HoldsFirst longer.log (commands ++ [command]) (commands.length + 1) :=
      (log.append command).insert last
    have stored : (sim.setReplica sim.leader longer).Sound start before (commands ++ [command]) := by
      refine sound.replace found longer (fun index stored => Std.ExtTreeMap.mem_insert.mpr (.inr stored))
        (fun index entry is => proposed_append_of_some is command) ?_ ?_
      · intro other replica different was
        obtain ⟨n, holds⟩ := was.log
        exact ⟨⟨n, holds.append command⟩, was.lost, fun leads => absurd leads different, was.committed⟩
      · refine ⟨⟨_, holds⟩, fun lost => absurd lost kept, fun _ _ => ?_, ?_⟩
        · rw [List.length_append]
          exact holds
        · exact old.committed.imp_right fun old => ⟨Std.ExtTreeMap.mem_insert.mpr (.inr old.1), old.2⟩
    have stores : (sim.setReplica sim.leader longer).Stores sim.leader (commands.length + 1) :=
      ⟨longer, OrdMap.getElem?_insert_self _ _ _, holds.mem_iff.mpr ⟨by omega, Nat.le_refl _⟩⟩
    have counted := stored.countAck sound.leader (by rw [last]; rfl) (.inl stores)
    have sent := counted.broadcast (.append entry) fun id at_ node voter => ⟨rfl, voter, last⟩
    obtain ⟨pending, nextMessageId, frame⟩ := broadcast_frame
      ((sim.setReplica sim.leader longer).countAck (commands.length + 1) sim.leader) (.append entry)
    have committed := sent.maybeCommit (commands.length + 1) (by rw [frame]; exact kept)
    rcases result : (((sim.setReplica sim.leader longer).countAck (commands.length + 1) sim.leader).broadcast
        (.append entry)).maybeCommit (commands.length + 1) with ⟨_ | _, next⟩
    · rw [result] at committed
      cases committed.1
    · rw [result] at committed
      have accepted : sim.propose command = (.ok (commands.length + 1), next) := by
        rw [SimCluster.propose, found]
        dsimp only
        rw [if_neg down, log.last_key]
        exact congrArg (fun outcome => (outcome.1.map fun _ => commands.length + 1, outcome.2)) result
      rw [accepted]
      exact ⟨committed.2, by simp⟩

end SimCluster

end Vyrm.Cluster
