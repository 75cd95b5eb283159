import Vyrm.Cluster.Sim.Run

/-!
# The leader's commit index

`maybe_commit` sets the commit index of the leader to the index that has its quorum, whatever it was
before (`sim.rs:363`), while a follower takes the greater of the two (`sim.rs:441`). Acknowledgements
arrive in any order, so the commit index goes back when a later index has its quorum first. It does
not as long as each quorum is completed after those of all earlier indexes.
-/

namespace Vyrm.Cluster
open Lib Vyrm.Core

namespace SimCluster

/-- The commit index of the leader. -/
def leaderCommit (sim : SimCluster) : Nat :=
  match sim.replicas[sim.leader]? with
  | some leader => leader.commitIndex
  | none => 0

/-- A delivery that completes a quorum does so when every earlier index is acknowledged. -/
def InOrder (sim : SimCluster) (messageId : Nat) : Prop :=
  ∀ message term index, sim.pending.find? (·.id = messageId) = some message → message.kind = .ack term index →
    sim.canDeliver message → ¬ sim.isAcknowledged index →
    sim.quorum ≤ (insert message.sender (sim.ackSet index)).card →
    ∀ earlier, 0 < earlier → earlier < index → sim.isAcknowledged earlier

/-- The states of a `reorder` in which a message is delivered. -/
inductive DeliversAll : SimCluster → List Nat → SimCluster → Nat → Prop
  | first (sim : SimCluster) (messageId : Nat) (rest : List Nat) : DeliversAll sim (messageId :: rest) sim messageId
  | later {sim next state : SimCluster} {messageId delivered : Nat} {rest : List Nat}
      (done : sim.deliver messageId = (.ok (), next)) (more : DeliversAll next rest state delivered) :
      DeliversAll sim (messageId :: rest) state delivered

/-- The states of a `deliver_ready` in which a message is delivered. -/
inductive DeliversReady : SimCluster → SimCluster → Nat → Prop
  | first {sim : SimCluster} {messageId : Nat} (ready : sim.nextReady = some messageId) :
      DeliversReady sim sim messageId
  | later {sim next state : SimCluster} {messageId delivered : Nat} (ready : sim.nextReady = some messageId)
      (done : sim.deliver messageId = (.ok (), next)) (more : DeliversReady next state delivered) :
      DeliversReady sim state delivered

/-- A call delivers a message in a state. -/
def Delivers (sim : SimCluster) : SimCall → SimCluster → Nat → Prop
  | .apply (.deliver messageId), state, delivered => state = sim ∧ delivered = messageId
  | .apply (.reorder messageIds), state, delivered => DeliversAll sim messageIds state delivered
  | .deliverReady, state, delivered => DeliversReady sim state delivered
  | _, _, _ => False

/-- The acknowledged indexes are the first `n`, and the leader, if it has its disk, commits them all. -/
structure Contiguous (sim : SimCluster) (n : Nat) : Prop where
  acknowledged : ∀ index, sim.isAcknowledged index ↔ 0 < index ∧ index ≤ n
  kept : sim.leader ∉ sim.diskLosses → sim.leaderCommit = n
  lost : sim.leader ∈ sim.diskLosses → sim.leaderCommit = 0

/-- No disk is lost, and what is acknowledged grows without a gap. -/
def Advances (sim next : SimCluster) : Prop :=
  next.diskLosses = sim.diskLosses ∧ ∀ n, sim.Contiguous n → ∃ m, n ≤ m ∧ next.Contiguous m

variable {start sim : SimCluster} {before : NodeId → Nat → Prop} {commands : List Bytes}

theorem Advances.refl (sim : SimCluster) : Advances sim sim := ⟨rfl, fun n contiguous => ⟨n, Nat.le_refl n, contiguous⟩⟩

theorem Advances.trans {sim next last : SimCluster} (first : Advances sim next) (second : Advances next last) :
    Advances sim last := by
  refine ⟨second.1.trans first.1, fun n contiguous => ?_⟩
  obtain ⟨m, more, contiguous⟩ := first.2 n contiguous
  obtain ⟨k, again, contiguous⟩ := second.2 m contiguous
  exact ⟨k, Nat.le_trans more again, contiguous⟩

theorem Advances.of_same {sim next : SimCluster} (leader : next.leader = sim.leader)
    (lost : next.diskLosses = sim.diskLosses) (acknowledged : next.acknowledged = sim.acknowledged)
    (committed : next.leaderCommit = sim.leaderCommit) : Advances sim next := by
  refine ⟨lost, fun n contiguous => ⟨n, Nat.le_refl n, ?_⟩⟩
  have same : ∀ index, next.isAcknowledged index = sim.isAcknowledged index := fun index => by
    rw [isAcknowledged, isAcknowledged, acknowledged]
  refine ⟨fun index => ?_, ?_, ?_⟩
  · rw [same index]
    exact contiguous.acknowledged index
  · rw [leader, lost, committed]
    exact contiguous.kept
  · rw [leader, lost, committed]
    exact contiguous.lost

theorem leaderCommit_setReplica (sim : SimCluster) (node : NodeId) (replica : ReplicaState) :
    (sim.setReplica node replica).leaderCommit =
      if node = sim.leader then replica.commitIndex else sim.leaderCommit := by
  by_cases same : node = sim.leader
  · subst same
    rw [if_pos rfl, leaderCommit]
    have look : (sim.setReplica sim.leader replica).replicas[(sim.setReplica sim.leader replica).leader]? =
        some replica := OrdMap.getElem?_insert_self _ _ _
    rw [look]
  · rw [if_neg same, leaderCommit]
    have look : (sim.setReplica node replica).replicas[(sim.setReplica node replica).leader]? =
        sim.replicas[sim.leader]? := OrdMap.getElem?_insert_of_ne same
    rw [look, leaderCommit]

/-- A replica changes, but not its commit index. -/
theorem Advances.setReplica {node : NodeId} {old : ReplicaState} (there : sim.replicas[node]? = some old)
    (new : ReplicaState) (same : new.commitIndex = old.commitIndex) : Advances sim (sim.setReplica node new) := by
  refine .of_same rfl rfl rfl ?_
  rw [leaderCommit_setReplica]
  by_cases leader : node = sim.leader
  · rw [if_pos leader, leaderCommit, ← leader, there, same]
  · rw [if_neg leader]

theorem Advances.broadcast (sim : SimCluster) (kind : MessageKind) : Advances sim (sim.broadcast kind) := by
  obtain ⟨pending, nextMessageId, frame⟩ := broadcast_frame sim kind
  rw [frame]
  exact .of_same rfl rfl rfl rfl

theorem ackSet_countAck (sim : SimCluster) (index : Nat) (node : NodeId) :
    (sim.countAck index node).ackSet index = insert node (sim.ackSet index) := by
  rw [ackSet, countAck, OrdMap.getElem?_insert_self, Option.getD_some]

/-- A quorum that is completed behind those of all earlier indexes moves the commit index by one. -/
theorem Sound.advances_maybeCommit (sound : sim.Sound start before commands) (index : Nat)
    (kept : sim.leader ∉ sim.diskLosses)
    (ordered : ¬ sim.isAcknowledged index → sim.quorum ≤ (sim.ackSet index).card →
      ∀ earlier, 0 < earlier → earlier < index → sim.isAcknowledged earlier) :
    Advances sim (sim.maybeCommit index).2 := by
  unfold SimCluster.maybeCommit
  by_cases nothing : sim.isAcknowledged index ∨ (sim.ackSet index).card < sim.quorum
  · rw [if_pos nothing]
    exact .refl sim
  · rw [if_neg nothing]
    obtain ⟨fresh, quorum⟩ := not_or.mp nothing
    rw [Nat.not_lt] at quorum
    cases found : sim.replicas[sim.leader]? with
    | none => exact .refl sim
    | some leader =>
      dsimp only
      cases stored : leader.log[index]? with
      | none => exact .refl sim
      | some entry =>
        dsimp only
        refine Advances.trans ?_ (Advances.broadcast _ _)
        refine ⟨rfl, fun n contiguous => ⟨n + 1, Nat.le_succ n, ?_⟩⟩
        have positive : 0 < index := by
          obtain ⟨n, holds⟩ := (sound.replica _ leader found).log
          have member : index ∈ leader.log := by
            rw [← Std.ExtTreeMap.isSome_getElem?_iff_mem, stored]
            rfl
          exact (holds.mem_iff.mp member).1
        -- everything below is acknowledged, and nothing above
        have next : index = n + 1 := by
          have above := mt (contiguous.acknowledged index).mpr fresh
          have below : index ≤ n + 1 := by
            by_contra far
            have := (contiguous.acknowledged (n + 1)).mp (ordered fresh quorum (n + 1) (by omega) (by omega))
            omega
          omega
        refine ⟨fun other => ?_, fun _ => ?_, fun lost => absurd lost kept⟩
        · have grown : ∀ index', isAcknowledged ({ sim with
              acknowledged := sim.acknowledged.insert index entry.commandDigest }.setReplica sim.leader
                { leader with commitIndex := index }) index' ↔ index = index' ∨ sim.isAcknowledged index' := by
            intro index'
            simp only [isAcknowledged, SimCluster.setReplica, Std.ExtTreeMap.contains_insert, Bool.or_eq_true,
              beq_iff_eq, Std.LawfulEqOrd.compare_eq_iff_eq]
          rw [grown, contiguous.acknowledged]
          omega
        · rw [leaderCommit_setReplica, if_pos rfl]
          exact next

/-- One message off the queue. -/
theorem Sound.advances_receive (sound : sim.Sound start before commands) {message : Message}
    (sent : message.Sound sim before commands) (free : sim.canDeliver message)
    (ordered : ∀ term index, message.kind = .ack term index → ¬ sim.isAcknowledged index →
      sim.quorum ≤ (insert message.sender (sim.ackSet index)).card →
      ∀ earlier, 0 < earlier → earlier < index → sim.isAcknowledged earlier) :
    Advances sim (sim.receive message).2 := by
  obtain ⟨_, _, ⟨receiver, found, up⟩, _⟩ := free
  have kept := up_kept sound found up
  unfold Message.Sound at sent
  unfold SimCluster.receive
  cases is : message.kind with
  | append entry =>
    rw [found]
    dsimp only
    by_cases early : 1 < entry.index ∧ entry.index - 1 ∉ receiver.log
    · rw [if_pos early]
      exact .refl sim
    · rw [if_neg early]
      cases receiver.log[entry.index]? with
      | some existing =>
        dsimp only
        by_cases other : existing ≠ entry
        · rw [if_pos other]
          exact .refl sim
        · rw [if_neg other]
          exact .of_same rfl rfl rfl rfl
      | none =>
        refine Advances.trans (Advances.setReplica found { receiver with
          log := receiver.log.insert entry.index entry } rfl) ?_
        exact .of_same rfl rfl rfl rfl
  | ack term index =>
    rw [is] at sent
    obtain ⟨term, route, voter, is', stored⟩ := sent
    dsimp only
    rw [if_neg (by simp [term, route])]
    have counted := sound.countAck voter is' stored
    have committed := counted.advances_maybeCommit index (by rw [route] at kept; exact kept) fun fresh quorum => by
      rw [ackSet_countAck] at quorum
      exact ordered _ index is fresh quorum
    have same : Advances sim (sim.countAck index message.sender) := .of_same rfl rfl rfl rfl
    rcases result : (sim.countAck index message.sender).maybeCommit index with ⟨_ | _, next⟩
    · rw [result] at committed
      exact same.trans committed
    · rw [result] at committed
      exact same.trans committed
  | commit term index =>
    rw [is] at sent
    obtain ⟨term, route, acknowledged⟩ := sent
    dsimp only
    rw [if_neg (by simp [term, route]), found]
    dsimp only
    by_cases absent : index ∉ receiver.log
    · rw [if_pos absent]
      exact .refl sim
    · rw [if_neg absent]
      refine ⟨rfl, fun n contiguous => ⟨n, Nat.le_refl n, contiguous.acknowledged, fun kept => ?_, fun lost => ?_⟩⟩
      · -- what is committed is acknowledged, and the leader commits all of that
        have below := ((contiguous.acknowledged index).mp acknowledged).2
        refine (leaderCommit_setReplica _ _ _).trans ?_
        by_cases leader : message.receiver = sim.leader
        · have all := contiguous.kept kept
          rw [leaderCommit, ← leader, found] at all
          rw [if_pos leader]
          exact (congrArg (max · index) all).trans (Nat.max_eq_left below)
        · rw [if_neg leader]
          exact contiguous.kept kept
      · refine (leaderCommit_setReplica _ _ _).trans ?_
        rw [if_neg fun leader => kept (by rw [leader]; exact lost)]
        exact contiguous.lost lost

theorem Sound.advances_deliver (sound : sim.Sound start before commands) {messageId : Nat}
    (ordered : sim.InOrder messageId) : Advances sim (sim.deliver messageId).2 := by
  unfold SimCluster.deliver
  cases found : sim.pending.find? (·.id = messageId) with
  | none => exact .refl sim
  | some message =>
    dsimp only
    by_cases free : sim.canDeliver message
    · rw [if_neg (not_not.mpr free)]
      have taken := sound.reschedule (sim.pending.eraseP (·.id = messageId)) sim.nextMessageId sim.now
        sim.blocked (fun message queued => sound.message message (List.mem_of_mem_eraseP queued))
      have same : Advances sim { sim with pending := sim.pending.eraseP (·.id = messageId) } :=
        .of_same rfl rfl rfl rfl
      exact same.trans (taken.advances_receive (sound.message message (List.mem_of_find?_eq_some found)) free
        fun term index is => ordered message term index found is free)
    · rw [if_pos free]
      exact .refl sim

theorem Sound.advances_deliverAll (sound : sim.Sound start before commands) (messageIds : List Nat)
    (ordered : ∀ state delivered, DeliversAll sim messageIds state delivered → state.InOrder delivered) :
    Advances sim (sim.deliverAll messageIds).2 := by
  induction messageIds generalizing sim with
  | nil => exact .refl sim
  | cons messageId rest ih =>
    have first := sound.advances_deliver (ordered sim messageId (.first sim messageId rest))
    have fine := sound.deliver messageId
    rw [SimCluster.deliverAll]
    rcases result : sim.deliver messageId with ⟨_ | _, next⟩
    · rw [result] at first
      exact first
    · rw [result] at first fine
      exact first.trans (ih fine.1 fun state delivered more => ordered state delivered (.later result more))

theorem Sound.advances_deliverReady (sound : sim.Sound start before commands) (delivered : Nat)
    (ordered : ∀ state messageId, DeliversReady sim state messageId → state.InOrder messageId) :
    Advances sim (sim.deliverReady delivered).2 := by
  induction sim, delivered using SimCluster.deliverReady.induct with
  | case1 sim delivered idle =>
    rw [SimCluster.deliverReady, idle]
    exact .refl sim
  | case2 sim delivered messageId ready e next failed =>
    have first := sound.advances_deliver (ordered sim messageId (.first ready))
    rw [failed] at first
    rw [SimCluster.deliverReady, ready]
    dsimp only
    split
    · rename_i again
      cases failed.symm.trans again
      exact first
    · rename_i again
      cases failed.symm.trans again
  | case3 sim delivered messageId ready next done ih =>
    have first := sound.advances_deliver (ordered sim messageId (.first ready))
    have fine := sound.deliver messageId
    rw [done] at first fine
    rw [SimCluster.deliverReady, ready]
    dsimp only
    split
    · rename_i again
      cases done.symm.trans again
    · rename_i again
      cases done.symm.trans again
      exact first.trans (ih fine.1 fun state messageId more => ordered state messageId (.later ready done more))

/-- One voter is no quorum, so a proposal commits nothing. -/
theorem Sound.advances_propose (sound : sim.Sound start before commands) (command : Bytes) :
    Advances sim (sim.propose command).2 := by
  obtain ⟨leader, found⟩ := sound.present _ sound.leader
  by_cases down : ¬ leader.up
  · have refused : (sim.propose command).2 = sim := by
      rw [SimCluster.propose, found]
      dsimp only
      rw [if_pos down]
    rw [refused]
    exact .refl sim
  · have kept := up_kept sound found (not_not.mp down)
    have log := (sound.replica _ leader found).leads rfl kept
    let entry : LogEntry := ⟨1, commands.length + 1, sha256Hex command⟩
    let stored := sim.setReplica sim.leader { leader with log := leader.log.insert (commands.length + 1) entry }
    have first : Advances sim stored := Advances.setReplica found _ rfl
    have counted : Advances stored (stored.countAck (commands.length + 1) sim.leader) := .of_same rfl rfl rfl rfl
    have sent := Advances.broadcast (stored.countAck (commands.length + 1) sim.leader) (.append entry)
    obtain ⟨pending, nextMessageId, frame⟩ :=
      broadcast_frame (stored.countAck (commands.length + 1) sim.leader) (.append entry)
    -- nobody has acknowledged an index that was not proposed
    have alone : (stored.countAck (commands.length + 1) sim.leader).ackSet (commands.length + 1) = {sim.leader} := by
      rw [ackSet_countAck]
      have nobody : sim.ackSet (commands.length + 1) = ∅ := by
        refine Finset.eq_empty_of_forall_notMem fun node counted => ?_
        have := proposed_isSome.mp (sound.counted _ node counted).2.1
        omega
      have same : stored.ackSet (commands.length + 1) = sim.ackSet (commands.length + 1) := rfl
      rw [same, nobody]
      rfl
    have few : ((stored.countAck (commands.length + 1) sim.leader).ackSet (commands.length + 1)).card <
        sim.quorum := by
      rw [alone, Finset.card_singleton]
      exact (PlacementPolicy.toleratedFailures_lt_quorum (ShardPlacement.policy_of_validate sound.valid)).2
    have nothing : ((stored.countAck (commands.length + 1) sim.leader).broadcast (.append entry)).maybeCommit
          (commands.length + 1) =
        (.ok (), (stored.countAck (commands.length + 1) sim.leader).broadcast (.append entry)) := by
      rw [frame, SimCluster.maybeCommit, if_pos]
      exact .inr few
    have accepted : (sim.propose command).2 =
        (stored.countAck (commands.length + 1) sim.leader).broadcast (.append entry) := by
      rw [SimCluster.propose, found]
      dsimp only
      rw [if_neg down, log.last_key]
      exact congrArg (fun outcome => outcome.2) nothing
    rw [accepted]
    exact (first.trans counted).trans sent

theorem Advances.onReplica {node : NodeId} {change : ReplicaState → Except ClusterError Unit × SimCluster}
    (advances : ∀ replica, sim.replicas[node]? = some replica → Advances sim (change replica).2) :
    Advances sim (sim.onReplica node change).2 := by
  unfold SimCluster.onReplica
  cases found : sim.replicas[node]? with
  | none => exact .refl sim
  | some replica => exact advances replica found

/-- The loss of a disk takes the commit index of the leader with it, and nothing of the others. -/
theorem Contiguous.diskLoss {n : Nat} (contiguous : sim.Contiguous n) {node : NodeId} {replica : ReplicaState} :
    Contiguous { sim.setReplica node
        { replica with online := false, diskPresent := false, log := ∅, commitIndex := 0 } with
      diskLosses := insert node sim.diskLosses } n := by
  refine ⟨contiguous.acknowledged, fun kept => ?_, fun lost => ?_⟩
  · obtain ⟨other, kept⟩ := not_or.mp (mt Finset.mem_insert.mpr kept)
    have other : node ≠ sim.leader := Ne.symm other
    refine (leaderCommit_setReplica _ _ _).trans ?_
    rw [if_neg other]
    exact contiguous.kept kept
  · refine (leaderCommit_setReplica _ _ _).trans ?_
    by_cases leader : node = sim.leader
    · rw [if_pos leader]
    · rw [if_neg leader]
      exact contiguous.lost ((Finset.mem_insert.mp lost).resolve_left (Ne.symm leader))

/-- A call, unless it takes the disk of the leader. -/
theorem Sound.advances_call (sound : sim.Sound start before commands) {n : Nat} (contiguous : sim.Contiguous n)
    (call : SimCall) (ordered : ∀ state delivered, sim.Delivers call state delivered → state.InOrder delivered) :
    (∃ m, n ≤ m ∧ (sim.call call).2.Contiguous m) ∧
      (call ≠ .apply (.diskLoss sim.leader) → sim.leader ∉ sim.diskLosses →
        sim.leader ∉ (sim.call call).2.diskLosses) := by
  have step : Advances sim (sim.call call).2 → (∃ m, n ≤ m ∧ (sim.call call).2.Contiguous m) ∧
      (call ≠ .apply (.diskLoss sim.leader) → sim.leader ∉ sim.diskLosses →
        sim.leader ∉ (sim.call call).2.diskLosses) := by
    intro advances
    refine ⟨advances.2 n contiguous, fun _ kept => ?_⟩
    rw [advances.1]
    exact kept
  cases call with
  | propose command => exact step (sound.advances_propose command)
  | advance ticks => exact step (.of_same rfl rfl rfl rfl)
  | deliverReady => exact step (sound.advances_deliverReady 0 ordered)
  | apply fault =>
    cases fault with
    | partition left right =>
      exact step (Advances.onReplica fun _ _ => Advances.onReplica fun _ _ => .of_same rfl rfl rfl rfl)
    | heal left right => exact step (.of_same rfl rfl rfl rfl)
    | delay messageId ticks =>
      refine step ?_
      simp only [SimCluster.call, SimCluster.apply]
      cases sim.pending.findIdx? (·.id = messageId) with
      | none => exact .refl sim
      | some position => exact .of_same rfl rfl rfl rfl
    | duplicate messageId =>
      refine step ?_
      simp only [SimCluster.call, SimCluster.apply]
      cases sim.pending.find? (·.id = messageId) with
      | none => exact .refl sim
      | some copied => exact .of_same rfl rfl rfl rfl
    | deliver messageId =>
      refine step ?_
      have delivered := sound.advances_deliver (ordered sim messageId ⟨rfl, rfl⟩)
      rw [SimCluster.call, SimCluster.apply]
      rcases result : sim.deliver messageId with ⟨_ | _, next⟩
      · rw [result] at delivered
        exact delivered
      · rw [result] at delivered
        exact delivered
    | reorder messageIds =>
      refine step ?_
      have delivered := sound.advances_deliverAll messageIds ordered
      rw [SimCluster.call, SimCluster.apply]
      rcases result : sim.deliverAll messageIds with ⟨_ | _, next⟩
      · rw [result] at delivered
        exact delivered
      · rw [result] at delivered
        exact delivered
    | crash node =>
      exact step (Advances.onReplica fun replica found => Advances.setReplica found { replica with online := false } rfl)
    | restart node =>
      refine step (Advances.onReplica fun replica found => ?_)
      by_cases gone : ¬ replica.diskPresent
      · rw [if_pos gone]
        exact .refl sim
      · rw [if_neg gone]
        exact Advances.setReplica found { replica with online := true } rfl
    | clockSkew node offsetMs =>
      exact step (Advances.onReplica fun replica found =>
        Advances.setReplica found { replica with clockOffsetMs := offsetMs } rfl)
    | diskLoss node =>
      rw [SimCluster.call, SimCluster.apply, SimCluster.onReplica]
      cases found : sim.replicas[node]? with
      | none => exact ⟨⟨n, Nat.le_refl n, contiguous⟩, fun _ kept => kept⟩
      | some replica =>
        refine ⟨⟨n, Nat.le_refl n, contiguous.diskLoss⟩, fun other kept lost => ?_⟩
        rcases Finset.mem_insert.mp lost with same | old
        · exact other (by rw [same])
        · exact kept old

/-! ## Runs -/

/-- Every delivery of every call is in order. -/
def AllInOrder (start : SimCluster) (calls : List SimCall) : Prop :=
  ∀ earlier call, earlier ++ [call] <+: calls →
    ∀ state delivered, (start.run earlier).Delivers call state delivered → state.InOrder delivered

theorem AllInOrder.of_prefix {calls earlier : List SimCall} (ordered : start.AllInOrder calls)
    (isPrefix : earlier <+: calls) : start.AllInOrder earlier :=
  fun first call within => ordered first call (within.trans isPrefix)

section

variable {placement : ShardPlacement} {leader : NodeId}

theorem Contiguous.new (made : SimCluster.new placement leader = .ok start) : start.Contiguous 0 := by
  obtain ⟨sound, _⟩ := Sound.new made fun _ _ => False
  have none : ∀ index, ¬ start.isAcknowledged index := by
    intro index acknowledged
    obtain ⟨digest, acknowledged⟩ := mem_acknowledged.mp acknowledged
    obtain ⟨_, entry, is, _⟩ := sound.acknowledged index digest acknowledged
    cases index <;> cases is
  have zero : start.leaderCommit = 0 := by
    rw [leaderCommit]
    cases found : start.replicas[start.leader]? with
    | none => rfl
    | some replica =>
      exact (sound.replica _ replica found).committed.resolve_right fun committed => none _ committed.2
  exact ⟨fun index => ⟨fun acknowledged => absurd acknowledged (none index), by omega⟩, fun _ => zero, fun _ => zero⟩

theorem Contiguous.run (made : SimCluster.new placement leader = .ok start) {earlier more : List SimCall}
    (ordered : start.AllInOrder (earlier ++ more)) {n : Nat} (contiguous : (start.run earlier).Contiguous n) :
    ∃ m, n ≤ m ∧ (start.run (earlier ++ more)).Contiguous m := by
  induction more using List.reverseRecOn with
  | nil =>
    rw [List.append_nil]
    exact ⟨n, Nat.le_refl n, contiguous⟩
  | append_singleton more call ih =>
    rw [← List.append_assoc] at ordered ⊢
    obtain ⟨m, less, contiguous⟩ := ih (ordered.of_prefix (List.prefix_append _ _))
    obtain ⟨⟨k, again, contiguous⟩, _⟩ := (Sound.run made (earlier ++ more)).advances_call contiguous call
      (ordered (earlier ++ more) call (List.prefix_refl _))
    rw [run_append]
    exact ⟨k, Nat.le_trans less again, contiguous⟩

theorem Contiguous.of_run (made : SimCluster.new placement leader = .ok start) {calls : List SimCall}
    (ordered : start.AllInOrder calls) : ∃ n, (start.run calls).Contiguous n := by
  obtain ⟨n, _, contiguous⟩ := Contiguous.run made (show start.AllInOrder ([] ++ calls) from ordered) (Contiguous.new made)
  exact ⟨n, contiguous⟩

theorem leaderStamp_commit (made : SimCluster.new placement leader = .ok start) {calls : List SimCall}
    {stamp : ShardReadStamp} (stamped : (start.run calls).leaderStamp = .ok stamp) :
    stamp.commitIndex = (start.run calls).leaderCommit ∧
      (start.run calls).leader ∉ (start.run calls).diskLosses := by
  have sound := Sound.run made calls
  rw [leaderStamp] at stamped
  cases found : (start.run calls).replicas[(start.run calls).leader]? with
  | none =>
    rw [found] at stamped
    cases stamped
  | some replica =>
    rw [found] at stamped
    obtain ⟨able, stamped⟩ := except_reject_ok.mp stamped
    cases stamped
    refine ⟨?_, up_kept sound found (not_not.mp (not_or.mp able).1)⟩
    rw [leaderCommit, found]

end

/-- The first follower stores two entries, and the acknowledgement of the second arrives first. -/
def laterFirst : List SimCall :=
  [.propose [1], .propose [2], .apply (.deliver 1), .apply (.deliver 3), .apply (.deliver 6)]

end SimCluster

end Vyrm.Cluster
