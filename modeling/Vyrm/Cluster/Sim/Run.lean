import Vyrm.Cluster.Sim.Safety

/-!
# Runs of the simulator
-/

namespace Vyrm.Cluster
open Lib Vyrm.Core

/-- What a test calls. -/
inductive SimCall where
  | propose (command : Bytes)
  | apply (fault : SimFault)
  | advance (ticks : Nat)
  | deliverReady

namespace SimCluster

/-- One call, without the value of what it returns. -/
def call (sim : SimCluster) : SimCall → Except ClusterError Unit × SimCluster
  | .propose command => ((sim.propose command).1.map fun _ => (), (sim.propose command).2)
  | .apply fault => sim.apply fault
  | .advance ticks => (.ok (), sim.advance ticks)
  | .deliverReady => ((sim.deliverReady 0).1.map fun _ => (), (sim.deliverReady 0).2)

/-- The state behind a sequence of calls, those that failed among them. -/
def run (sim : SimCluster) (calls : List SimCall) : SimCluster := calls.foldl (fun sim call => (sim.call call).2) sim

/-- The command that a call adds to the proposals. -/
def accepted (sim : SimCluster) : SimCall → List Bytes
  | .propose command => if (sim.propose command).1.isOk then [command] else []
  | _ => []

/-- The commands whose proposal was accepted. -/
def accepts (sim : SimCluster) : List SimCall → List Bytes
  | [] => []
  | call :: rest => sim.accepted call ++ accepts (sim.call call).2 rest

theorem run_append (sim : SimCluster) (calls more : List SimCall) :
    sim.run (calls ++ more) = (sim.run calls).run more := List.foldl_append

theorem accepts_append (sim : SimCluster) (calls more : List SimCall) :
    sim.accepts (calls ++ more) = sim.accepts calls ++ (sim.run calls).accepts more := by
  induction calls generalizing sim with
  | nil => rfl
  | cons call rest ih =>
    rw [List.cons_append, accepts, ih, accepts, List.append_assoc]
    rfl

/-- A node held an index behind some of the calls. -/
def StoredIn (start : SimCluster) (calls : List SimCall) (node : NodeId) (index : Nat) : Prop :=
  ∃ earlier, earlier <+: calls ∧ (start.run earlier).Stores node index

variable {start sim : SimCluster} {before : NodeId → Nat → Prop} {commands : List Bytes}

theorem Sound.mono (sound : sim.Sound start before commands) {after : NodeId → Nat → Prop}
    (more : ∀ node index, before node index → after node index) : sim.Sound start after commands := by
  have stored : ∀ node index, sim.Stored before node index → sim.Stored after node index :=
    fun node index => Or.imp_right fun lost => ⟨lost.1, more node index lost.2⟩
  exact
    { sound with
      message := fun message queued => by
        have old := sound.message message queued
        unfold Message.Sound at old ⊢
        cases sent : message.kind with
        | append entry => rw [sent] at old; exact old
        | ack term index =>
          rw [sent] at old
          exact ⟨old.1, old.2.1, old.2.2.1, old.2.2.2.1, stored _ _ old.2.2.2.2⟩
        | commit term index => rw [sent] at old; exact old
      counted := fun index node counted =>
        have old := sound.counted index node counted
        ⟨old.1, old.2.1, stored _ _ old.2.2⟩ }

/-- One call keeps the invariant, when what is stored counts as stored before. -/
theorem Sound.call (sound : sim.Sound start before commands)
    (past : ∀ node index, sim.Stores node index → before node index) (call : SimCall) :
    Fine start before (commands ++ sim.accepted call) (sim.call call) := by
  cases call with
  | propose command =>
    have fine := sound.propose command
    rw [SimCluster.call, accepted]
    refine ⟨?_, ?_⟩
    · by_cases ok : (sim.propose command).1.isOk
      · rw [if_pos ok] at fine ⊢
        exact fine.1
      · rw [if_neg ok] at fine ⊢
        rw [List.append_nil]
        exact fine.1
    · intro reason denied
      rcases result : (sim.propose command).1 with e | index
      · rw [result] at denied
        cases denied
        exact fine.2 reason result
      · rw [result] at denied
        cases denied
  | apply fault =>
    rw [SimCluster.accepted.eq_2 _ _ (by simp), List.append_nil]
    exact sound.apply past fault
  | advance ticks =>
    rw [SimCluster.accepted.eq_2 _ _ (by simp), List.append_nil]
    exact ⟨sound.reschedule _ _ _ _ sound.message, by simp [SimCluster.call]⟩
  | deliverReady =>
    have fine := sound.deliverReady 0
    rw [SimCluster.accepted.eq_2 _ _ (by simp), List.append_nil]
    refine ⟨fine.1, fun reason denied => ?_⟩
    rw [SimCluster.call] at denied
    rcases result : (sim.deliverReady 0).1 with e | count
    · rw [result] at denied
      cases denied
      exact fine.2 reason result
    · rw [result] at denied
      cases denied

/-! ## From the start -/

theorem getElem?_fresh (replicas : List ReplicaPlacement) (node : NodeId) :
    (replicas.foldl (fun map replica => map.insert replica.node ReplicaState.fresh)
        (∅ : OrdMap NodeId ReplicaState))[node]? =
      if ∃ replica ∈ replicas, replica.node = node then some .fresh else none := by
  induction replicas using List.reverseRecOn with
  | nil => simp
  | append_singleton replicas replica ih =>
    rw [List.foldl_append, List.foldl_cons, List.foldl_nil]
    by_cases same : replica.node = node
    · subst same
      rw [OrdMap.getElem?_insert_self, if_pos ⟨replica, by simp, rfl⟩]
    · rw [OrdMap.getElem?_insert_of_ne same, ih]
      simp [or_and_right, exists_or, same]

theorem Sound.new {placement : ShardPlacement} {leader : NodeId} {start : SimCluster}
    (made : SimCluster.new placement leader = .ok start) (before : NodeId → Nat → Prop) :
    start.Sound start before [] ∧ start.placement = placement ∧ start.leader = leader := by
  rw [SimCluster.new, except_bind_ok] at made
  obtain ⟨⟨⟩, valid, made⟩ := made
  cases found : placement.replicas.find? (·.node = leader) with
  | none =>
    rw [found] at made
    cases made
  | some replica =>
    rw [found] at made
    obtain ⟨role, made⟩ := except_reject_ok.mp made
    cases made
    have listed := List.mem_of_find?_eq_some found
    have named := List.find?_some found
    refine ⟨?_, rfl, rfl⟩
    exact
      { placed := ⟨rfl, rfl⟩
        valid
        leader := ⟨replica, by
          rw [ShardPlacement.voters, List.mem_filter]
          exact ⟨listed, by simpa using role⟩, by simpa using named⟩
        present := fun node voter => by
          obtain ⟨voter, member, same⟩ := voter
          refine ⟨.fresh, ?_⟩
          rw [getElem?_fresh, if_pos ⟨voter, (List.mem_filter.mp member).1, same⟩]
        replica := fun node replica there => by
          rw [getElem?_fresh] at there
          split at there
          · cases there
            exact ⟨⟨0, HoldsFirst.empty _⟩, fun lost => absurd lost (Finset.notMem_empty _),
              fun _ _ => HoldsFirst.empty _, .inl rfl⟩
          · cases there
        message := fun message queued => absurd queued List.not_mem_nil
        counted := fun index node counted => by simp [ackSet] at counted
        acknowledged := fun index digest acknowledged => by simp at acknowledged }

/-- The invariant holds behind every sequence of calls. -/
theorem Sound.run {placement : ShardPlacement} {leader : NodeId} {start : SimCluster}
    (made : SimCluster.new placement leader = .ok start) (calls : List SimCall) :
    (start.run calls).Sound start (start.StoredIn calls) (start.accepts calls) := by
  induction calls using List.reverseRecOn with
  | nil => exact (Sound.new made _).1
  | append_singleton calls call ih =>
    have now := ih.call (fun node index stores => ⟨calls, List.prefix_refl _, stores⟩) call
    rw [run_append, accepts_append]
    have last : (start.run calls).accepts [call] = (start.run calls).accepted call := by
      rw [accepts, accepts, List.append_nil]
    rw [last]
    refine now.1.mono fun node index past => ?_
    obtain ⟨earlier, isPrefix, stores⟩ := past
    exact ⟨earlier, isPrefix.trans (List.prefix_append _ _), stores⟩

/-! ## Safety -/

/-- Behind every sequence of calls: the log of a voter is a run of the accepted proposals, an index is
acknowledged after a quorum of voters stored it, a commit index names an acknowledged entry of its own
log, and an acknowledged entry is on some voter as long as no more disks are lost than tolerated.
Neither `verify_safety` nor any check within a call finds anything to deny. -/
theorem safe_run {placement : ShardPlacement} {leader : NodeId} {start : SimCluster}
    (made : SimCluster.new placement leader = .ok start) (calls : List SimCall) :
    (start.run calls).placement = placement ∧ (start.run calls).leader = leader ∧
    (∀ node, (start.run calls).IsVoter node → ∃ replica n, (start.run calls).replicas[node]? = some replica ∧
      HoldsFirst replica.log (start.accepts calls) n) ∧
    (∀ (index : Nat) digest, (start.run calls).acknowledged[index]? = some digest →
      ∃ voters : Finset NodeId, placement.policy.quorum ≤ voters.card ∧
        ∀ node ∈ voters, (start.run calls).IsVoter node ∧ start.StoredIn calls node index) ∧
    (∀ (node : NodeId) (replica : ReplicaState), (start.run calls).replicas[node]? = some replica →
      replica.commitIndex = 0 ∨
        (replica.commitIndex ∈ replica.log ∧ (start.run calls).isAcknowledged replica.commitIndex)) ∧
    ((start.run calls).diskLosses.card ≤ placement.policy.toleratedFailures →
      ∀ (index : Nat) digest, (start.run calls).acknowledged[index]? = some digest →
        ∃ (node : NodeId) (replica : ReplicaState) (entry : LogEntry), (start.run calls).IsVoter node ∧
          (start.run calls).replicas[node]? = some replica ∧ replica.log[index]? = some entry ∧
          entry.commandDigest = digest) ∧
    (start.run calls).verifySafety = .ok () ∧
    ∀ call reason, ((start.run calls).call call).1 ≠ .error (.denied reason) := by
  have sound := Sound.run made calls
  obtain ⟨_, placed, led⟩ := Sound.new made (start.StoredIn calls)
  have placed : (start.run calls).placement = placement := sound.placed.1.trans placed
  refine ⟨placed, sound.placed.2.trans led, ?_, ?_, ?_, ?_, sound.verifySafety, ?_⟩
  · intro node voter
    obtain ⟨replica, found⟩ := sound.present node voter
    obtain ⟨n, holds⟩ := (sound.replica node replica found).log
    exact ⟨replica, n, found, holds⟩
  · intro index digest acknowledged
    refine ⟨(start.run calls).ackSet index, ?_, fun node counted => ?_⟩
    · rw [← placed]
      exact (sound.acknowledged index digest acknowledged).1
    · obtain ⟨voter, _, stored⟩ := sound.counted index node counted
      refine ⟨voter, ?_⟩
      rcases stored with stores | ⟨_, past⟩
      · exact ⟨calls, List.prefix_refl _, stores⟩
      · exact past
  · intro node replica found
    exact (sound.replica node replica found).committed
  · intro tolerated index digest acknowledged
    rw [← placed] at tolerated
    exact sound.durable acknowledged tolerated
  · intro call
    exact (sound.call (fun node index stores => ⟨calls, List.prefix_refl _, stores⟩) call).2

/-- Three voters, each in a zone of its own (`tests/model_check.rs:7-23`). -/
def threeZones : ShardPlacement :=
  { contractVersion := clusterContractVersion
    cluster := ⟨"model-check", by decide, by decide, by decide⟩
    shard := ⟨9⟩
    epoch := 1
    policy := ⟨3, 3, 1⟩
    replicas :=
      [⟨⟨"a", by decide, by decide, by decide⟩, ⟨"az-a", by decide, by decide, by decide⟩, .voter⟩,
       ⟨⟨"b", by decide, by decide, by decide⟩, ⟨"az-b", by decide, by decide, by decide⟩, .voter⟩,
       ⟨⟨"c", by decide, by decide, by decide⟩, ⟨"az-c", by decide, by decide, by decide⟩, .voter⟩] }

def nodeA : NodeId := ⟨"a", by decide, by decide, by decide⟩

theorem new_threeZones : ∃ start, SimCluster.new threeZones nodeA = .ok start := by
  rcases made : SimCluster.new threeZones nodeA with e | start
  · have ok : (SimCluster.new threeZones nodeA).isOk = true := by decide +kernel
    rw [made] at ok
    cases ok
  · exact ⟨start, rfl⟩

theorem safe_run_threeZones : ∃ start, SimCluster.new threeZones nodeA = .ok start ∧
    (start.run [.propose [1], .apply (.deliver 1), .apply (.diskLoss nodeA)]).verifySafety = .ok () := by
  obtain ⟨start, made⟩ := new_threeZones
  have safe := safe_run made [.propose [1], .apply (.deliver 1), .apply (.diskLoss nodeA)]
  obtain ⟨_, _, _, _, _, _, verified, _⟩ := safe
  exact ⟨start, made, verified⟩

end SimCluster

end Vyrm.Cluster
