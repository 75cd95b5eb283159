import Vyrm.Cluster.Raft.Run

/-!
# Placement fencing

A placement is established under the epoch that follows the last one, for the voters of the membership
that is applied. Probes and runtime commits are accepted under it as long as no membership changes the
voters, not even when another one restores them.
-/

namespace Vyrm.Cluster
open Lib Vyrm.Core Vyrm.Store

/-! ## Digests of bindings -/

theorem text_append_inj {a b : String} {x y : Bytes} (short : (utf8 a).length < 2 ^ 64)
    (short' : (utf8 b).length < 2 ^ 64) (same : text a ++ x = text b ++ y) : a = b ∧ x = y := by
  unfold text prefixed at same
  rw [List.append_assoc, List.append_assoc] at same
  obtain ⟨lengths, rest⟩ := toBE_split short short' same
  obtain ⟨texts, rest⟩ := List.append_inj rest lengths
  exact ⟨utf8_inj.mp texts, rest⟩

/-- The names of a binding fit a length. -/
def Short (voters : List (String × String)) : Prop :=
  ∀ voter ∈ voters, (utf8 voter.1).length < 2 ^ 64 ∧ (utf8 voter.2).length < 2 ^ 64

theorem bindingBytes_inj {a b : List (String × String)} (short : Short a) (short' : Short b)
    (same : bindingBytes a = bindingBytes b) : a = b := by
  replace same := List.append_cancel_left same
  induction a generalizing b with
  | nil =>
    cases b with
    | nil => rfl
    | cons voter rest =>
      have lengths := congrArg List.length same
      rw [List.flatMap_cons] at lengths
      simp [text, prefixed] at lengths
      omega
  | cons voter rest ih =>
    cases b with
    | nil =>
      have lengths := congrArg List.length same
      simp [text, prefixed] at lengths
    | cons voter' rest' =>
      rw [List.flatMap_cons, List.flatMap_cons, List.append_assoc, List.append_assoc] at same
      obtain ⟨fits, fits₂⟩ := short voter List.mem_cons_self
      obtain ⟨fits', fits₂'⟩ := short' voter' List.mem_cons_self
      obtain ⟨names, same⟩ := text_append_inj fits fits' same
      obtain ⟨zones, same⟩ := text_append_inj fits₂ fits₂' same
      have tails := ih (fun v listed => short v (List.mem_cons_of_mem _ listed))
        (fun v listed => short' v (List.mem_cons_of_mem _ listed)) same
      rw [tails, Prod.ext names zones]

theorem mem_bindingOf {voters : List (String × String)} {voter : String × String} :
    voter ∈ bindingOf voters ↔ voter ∈ voters := by
  rw [bindingOf, List.mem_insertionSort, List.mem_dedup]

/-- The nodes of a binding are valid, so their names are short. -/
theorem short_of_membershipBinding {stored : StoredMembership} {voters : List (String × String)}
    (bound : membershipBinding stored = some voters) : Short voters := by
  unfold membershipBinding at bound
  cases found : stored.membership.voterIds.mapM fun id => stored.membership.nodes[id]? with
  | none =>
    simp only [found] at bound
    cases bound
  | some raftVoters =>
    simp only [found] at bound
    split at bound
    · cases bound
    · rename_i valid
      split at bound
      · cases bound
        intro voter listed
        obtain ⟨node, member, rfl⟩ := List.mem_map.mp (mem_bindingOf.mp listed)
        rw [not_or] at valid
        have isValid : node.validate.isOk := by
          by_contra invalid
          exact valid.2 ⟨node, member, invalid⟩
        have checks : node.validate = .ok () := by
          cases ok : node.validate with
          | ok _ => rfl
          | error e =>
            rw [ok] at isValid
            cases isValid
        have each := except_forM_ok.mp checks
        have first := each ("canonical id", node.canonicalId) (by simp)
        have second := each ("zone", node.zone) (by simp)
        obtain ⟨first, -⟩ := except_reject_ok.mp first
        obtain ⟨second, -⟩ := except_reject_ok.mp second
        rw [not_or, not_or] at first second
        have small : (512 : Nat) < 2 ^ 64 := by decide
        exact ⟨Nat.lt_of_le_of_lt (Nat.not_lt.mp first.2.1) small,
          Nat.lt_of_le_of_lt (Nat.not_lt.mp second.2.1) small⟩
      · cases bound

/-- Memberships whose bindings have one digest have one binding, unless the hash collides. -/
theorem binding_of_digest {inputs : Set Bytes} (free : Set.InjOn sha256Hex inputs) {stored other : StoredMembership}
    (hashed : ∀ voters ∈ membershipBinding stored, bindingBytes voters ∈ inputs)
    (hashed' : ∀ voters ∈ membershipBinding other, bindingBytes voters ∈ inputs)
    (same : (membershipBinding stored).map membershipBindingDigest =
      (membershipBinding other).map membershipBindingDigest) :
    membershipBinding stored = membershipBinding other := by
  cases bound : membershipBinding stored with
  | none =>
    rw [bound, Option.map_none, eq_comm, Option.map_eq_none_iff] at same
    exact same.symm
  | some voters =>
    rw [bound, Option.map_some, eq_comm, Option.map_eq_some_iff] at same
    obtain ⟨voters', bound', same⟩ := same
    have bytes := free (hashed' _ bound') (hashed _ bound) same
    rw [bound', bindingBytes_inj (short_of_membershipBinding bound') (short_of_membershipBinding bound) bytes]

/-! ## Logs -/

/-- The membership after an entry. -/
def Applied.membershipAfter (stored : StoredMembership) (event : Applied) : StoredMembership :=
  match event.entry.payload with
  | .membership membership => ⟨some event.entry.logId, membership⟩
  | .blank => stored
  | .normal _ => stored

/-- The membership in force after a log. -/
def inForce (log : List Applied) : StoredMembership :=
  log.foldl Applied.membershipAfter StateMachineData.initial.lastMembership

/-- A command is accepted, and not as a repetition. -/
def Applied.accepts (event : Applied) : Bool := event.response.accepted && !event.response.duplicate

/-- The placement that an accepted transition establishes. -/
def Applied.transition (event : Applied) : Option ShardPlacement :=
  match event.entry.payload with
  | .normal ⟨_, _, _, _, .placementTransition placement⟩ => if event.accepts then some placement else none
  | _ => none

/-- The epoch under which a probe or a runtime commit is accepted. -/
def Applied.epoch (event : Applied) : Option UInt64 :=
  match event.entry.payload with
  | .normal ⟨_, _, epoch, _, .probe _ _⟩ => if event.accepts then some epoch else none
  | .normal ⟨_, _, epoch, _, .runtimeCommit _⟩ => if event.accepts then some epoch else none
  | _ => none

/-- The placements a log establishes. -/
def transitions (log : List Applied) : List ShardPlacement := log.filterMap Applied.transition

/-- The digest of the voters of a membership. -/
def digestOf (stored : StoredMembership) : Option String := (membershipBinding stored).map membershipBindingDigest

/-- How many entries change the digest of the voters. -/
def changes : StoredMembership → List Applied → Nat
  | _, [] => 0
  | stored, event :: rest =>
    (if digestOf stored = digestOf (event.membershipAfter stored) then 0 else 1) +
      changes (event.membershipAfter stored) rest

theorem inForce_append (log more : List Applied) :
    inForce (log ++ more) = more.foldl Applied.membershipAfter (inForce log) := List.foldl_append

theorem changes_append (stored : StoredMembership) (log more : List Applied) :
    changes stored (log ++ more) = changes stored log + changes (log.foldl Applied.membershipAfter stored) more := by
  induction log generalizing stored with
  | nil => simp [changes]
  | cons event log ih => simp [changes, ih, Nat.add_assoc]

/-- Where nothing changes, no entry does. -/
theorem digestOf_of_no_changes {stored : StoredMembership} {log before after : List Applied} {event : Applied}
    (still : changes stored log = 0) (split : log = before ++ event :: after) :
    digestOf ((before ++ [event]).foldl Applied.membershipAfter stored) =
      digestOf (before.foldl Applied.membershipAfter stored) := by
  rw [split, changes_append] at still
  rw [List.foldl_append, List.foldl_cons, List.foldl_nil]
  by_contra differs
  have one : changes (before.foldl Applied.membershipAfter stored) (event :: after) ≠ 0 := by
    rw [changes, if_neg fun same => differs same.symm]
    omega
  omega

theorem transitions_append (log more : List Applied) :
    transitions (log ++ more) = transitions log ++ transitions more := List.filterMap_append

/-- A log with a transition, cut at the last one. -/
theorem exists_last_transition {log : List Applied} (some_ : transitions log ≠ []) :
    ∃ before event after placement, log = before ++ event :: after ∧ event.transition = some placement ∧
      transitions after = [] ∧ (transitions log).getLast? = some placement := by
  induction log using List.reverseRecOn with
  | nil => exact absurd rfl some_
  | append_singleton log event ih =>
    cases placed : event.transition with
    | some placement =>
      refine ⟨log, event, [], placement, rfl, placed, rfl, ?_⟩
      rw [transitions_append]
      simp [transitions, placed]
    | none =>
      have same : transitions (log ++ [event]) = transitions log := by
        rw [transitions_append]
        simp [transitions, placed]
      rw [same] at some_
      obtain ⟨before, last, after, placement, split, isLast, none_, tail⟩ := ih some_
      refine ⟨before, last, after ++ [event], placement, by simp [split], isLast, ?_, by rw [same, tail]⟩
      rw [transitions_append, none_]
      simp [transitions, placed]

/-! ## What an entry does to the fence -/

/-- The fields of the fence stay. -/
structure SameFence (state next : StateMachineData) : Prop where
  membership : next.lastMembership = state.lastMembership
  epoch : next.placementEpoch = state.placementEpoch
  digest : next.placementMembershipDigest = state.placementMembershipDigest
  generation : next.voterMembershipGeneration = state.voterMembershipGeneration
  placed : next.placementMembershipGeneration = state.placementMembershipGeneration

/-- The epoch that a placement has to have. -/
def Succeeds (established : Option UInt64) (epoch : UInt64) : Prop :=
  match established with
  | none => epoch = 1
  | some current => current ≠ u64Max ∧ current + 1 = epoch

/-- A placement is established. -/
structure Establishes (state next : StateMachineData) (placement : ShardPlacement) : Prop where
  membership : next.lastMembership = state.lastMembership
  epoch : next.placementEpoch = some placement.epoch
  succeeds : Succeeds state.placementEpoch placement.epoch
  voters : ∃ voters, placementMembershipBinding placement state.lastMembership = some voters ∧
    next.placementMembershipDigest = some (membershipBindingDigest voters)
  generation : next.voterMembershipGeneration = state.voterMembershipGeneration
  placed : next.placementMembershipGeneration = some state.voterMembershipGeneration

/-- The fence lets an epoch through. -/
structure Passes (state : StateMachineData) (epoch : UInt64) : Prop where
  epoch : state.placementEpoch = some epoch
  digest : state.placementMembershipDigest = state.bindingDigest
  generation : state.placementMembershipGeneration = some state.voterMembershipGeneration

section

variable [RaftCodec] [Store.Codec] {view : View} {shard : ShardId} {state next : StateMachineData} {event : Applied}
  {command : VyrmRaftCommand} {verdict : Verdict}

omit [RaftCodec] [Store.Codec] in
/-- A probe or a runtime commit that is admitted passes the fence. -/
theorem passes_of_admits (admitted : state.admits command = true)
    (other : ∀ placement, command.operation ≠ .placementTransition placement) : Passes state command.placementEpoch := by
  unfold StateMachineData.admits at admitted
  rw [Bool.and_eq_true, Bool.and_eq_true] at admitted
  obtain ⟨⟨epoch, membership⟩, -⟩ := admitted
  unfold StateMachineData.epochMatches at epoch
  unfold StateMachineData.membershipMatches at membership
  cases operation : command.operation with
  | placementTransition placement => exact absurd operation (other placement)
  | probe payloadDigest payload =>
    rw [operation] at epoch membership
    obtain ⟨digest, generation⟩ := Bool.and_eq_true_iff.mp membership
    exact ⟨of_decide_eq_true epoch, of_decide_eq_true digest, of_decide_eq_true generation⟩
  | runtimeCommit commit =>
    rw [operation] at epoch membership
    obtain ⟨digest, generation⟩ := Bool.and_eq_true_iff.mp membership
    exact ⟨of_decide_eq_true epoch, of_decide_eq_true digest, of_decide_eq_true generation⟩

omit [RaftCodec] [Store.Codec] in
theorem succeeds_of_admits {placement : ShardPlacement} (admitted : state.admits command = true)
    (operation : command.operation = .placementTransition placement) :
    Succeeds state.placementEpoch placement.epoch := by
  unfold StateMachineData.admits at admitted
  rw [Bool.and_eq_true, Bool.and_eq_true] at admitted
  obtain ⟨⟨epoch, -⟩, -⟩ := admitted
  unfold StateMachineData.epochMatches at epoch
  rw [operation] at epoch
  obtain ⟨epoch, -⟩ := Bool.and_eq_true_iff.mp epoch
  unfold Succeeds
  cases established : state.placementEpoch with
  | none =>
    simp only [established] at epoch
    exact of_decide_eq_true epoch
  | some current =>
    simp only [established] at epoch
    exact of_decide_eq_true epoch

/-- The fields of the fence stay, and only what passes it is accepted. -/
def Keeps (state next : StateMachineData) (event : Applied) : Prop :=
  SameFence state next ∧ event.transition = none ∧ ∀ epoch, event.epoch = some epoch → Passes state epoch

omit [RaftCodec] [Store.Codec] in
/-- An answer that is no acceptance establishes nothing and passes nothing. -/
theorem keeps_of_not_accepted (refused : event.accepts = false) (same : SameFence state next) :
    Keeps state next event := by
  refine ⟨same, ?_, fun epoch passed => ?_⟩
  · unfold Applied.transition
    split <;> simp [refused]
  · unfold Applied.epoch at passed
    split at passed <;> simp [refused] at passed

omit [RaftCodec] [Store.Codec] in
/-- A probe or a runtime commit that is admitted passes the fence. -/
theorem keeps_of_admitted (payload : event.entry.payload = .normal command) (admitted : state.admits command = true)
    (same : SameFence state next) (other : ∀ placement, command.operation ≠ .placementTransition placement) :
    Keeps state next event := by
  refine ⟨same, ?_, fun epoch passed => ?_⟩
  · unfold Applied.transition
    rw [payload]
    split
    · rename_i is
      cases is
      exact absurd rfl (other _)
    · rfl
  · have isEpoch : epoch = command.placementEpoch := by
      unfold Applied.epoch at passed
      rw [payload] at passed
      split at passed
      · rename_i is
        cases is
        split at passed <;> cases passed
        rfl
      · rename_i is
        cases is
        split at passed <;> cases passed
        rfl
      · cases passed
    rw [isEpoch]
    exact passes_of_admits admitted other

omit [RaftCodec] [Store.Codec] in
theorem Applied.transition_of_accepts {placement : ShardPlacement} (payload : event.entry.payload = .normal command)
    (operation : command.operation = .placementTransition placement) (accepted : event.accepts = true) :
    event.transition = some placement ∧ event.epoch = none := by
  obtain ⟨requestId, shard, epoch, expected, op⟩ := command
  cases operation
  simp [Applied.transition, Applied.epoch, payload, accepted]

omit [RaftCodec] [Store.Codec] in
theorem Applied.membershipAfter_of_normal (payload : event.entry.payload = .normal command)
    (stored : StoredMembership) : event.membershipAfter stored = stored := by
  unfold Applied.membershipAfter
  rw [payload]

omit [RaftCodec] [Store.Codec] in
theorem SameFence.refl (state : StateMachineData) : SameFence state state := ⟨rfl, rfl, rfl, rfl, rfl⟩

omit [Store.Codec] in
/-- The record of a verdict has the fence of the verdict. -/
theorem SameFence.record (same : SameFence state verdict.state) (logId : LogId) :
    SameFence state (StateMachineData.record verdict logId command).1 :=
  ⟨same.membership, same.epoch, same.digest, same.generation, same.placed⟩

/-- An entry changes the membership, establishes a placement, or leaves the fence as it is. -/
theorem fence_of_effect (effect : Effect view shard state event.entry.logId event.entry.payload next event.response
    event.operations) :
    (∃ membership, event.entry.payload = .membership membership ∧
        state.applyMembership event.entry.logId membership = .ok next ∧ event.transition = none ∧
        event.epoch = none) ∨
      ((∀ stored, event.membershipAfter stored = stored) ∧ (Keeps state next event ∨
        ∃ placement, event.transition = some placement ∧ event.epoch = none ∧ Establishes state next placement)) := by
  obtain ⟨⟨logId, payload⟩, response, operations, first⟩ := event
  change Effect view shard state logId payload next response operations at effect
  cases effect with
  | blank => exact .inr ⟨fun _ => rfl, .inl ⟨.refl _, rfl, fun epoch passed => nomatch passed⟩⟩
  | membership changed => exact .inl ⟨_, rfl, changed, rfl, rfl⟩
  | reused valid own kept other =>
    exact .inr ⟨Applied.membershipAfter_of_normal rfl, .inl (keeps_of_not_accepted rfl (.refl _))⟩
  | repeated valid own kept same =>
    exact .inr ⟨Applied.membershipAfter_of_normal rfl, .inl (keeps_of_not_accepted (Bool.and_false _) (.refl _))⟩
  | executed valid own fresh judged =>
    refine .inr ⟨Applied.membershipAfter_of_normal rfl, ?_⟩
    cases judged with
    | denied refused => exact .inl (keeps_of_not_accepted rfl (SameFence.record (.refl state) logId))
    | mismatched admitted operation other => exact .inl (keeps_of_not_accepted rfl (SameFence.record (.refl state) logId))
    | rejected admitted operation unknown failed deterministic =>
      exact .inl (keeps_of_not_accepted rfl (SameFence.record (.refl state) logId))
    | transitioned admitted operation matched isDigest =>
      refine .inr ⟨_, and_assoc.mp ⟨Applied.transition_of_accepts rfl operation rfl, ?_⟩⟩
      exact ⟨rfl, rfl, succeeds_of_admits admitted operation, ⟨_, matched, rfl⟩, rfl, rfl⟩
    | probed admitted operation =>
      refine .inl (keeps_of_admitted rfl admitted (.record ?_ logId) ?_)
      · exact .refl state
      · rw [operation]
        intro placement is
        cases is
    | known admitted operation found =>
      refine .inl (keeps_of_admitted rfl admitted (.record ?_ logId) ?_)
      · exact .refl state
      · rw [operation]
        intro placement is
        cases is
    | committed admitted operation unknown prepared counts =>
      refine .inl (keeps_of_admitted rfl admitted (.record ?_ logId) ?_)
      · exact ⟨rfl, rfl, rfl, rfl, rfl⟩
      · rw [operation]
        intro placement is
        cases is

end

/-! ## What a log and the state after it have to do with each other -/

section

variable {state next : StateMachineData} {event : Applied}

/-- The last transition of a log is for a placement, and no entry after it changes the digest of the voters. -/
def Holds (log : List Applied) (placement : ShardPlacement) : Prop :=
  ∃ before event after, log = before ++ event :: after ∧ event.transition = some placement ∧
    transitions after = [] ∧ changes (inForce before) (event :: after) = 0

/-- What is accepted was due after the log before it. -/
structure Due (log : List Applied) (event : Applied) : Prop where
  matched : ∀ placement ∈ event.transition,
    (placementMembershipBinding placement (inForce log)).isSome = true
  held : ∀ epoch ∈ event.epoch, ∃ placement, Holds log placement ∧ placement.epoch = epoch

/-- The state after a log has the fence of the log. -/
structure Fenced (log : List Applied) (state : StateMachineData) : Prop where
  membership : state.lastMembership = inForce log
  generation : state.voterMembershipGeneration.toNat = changes StateMachineData.initial.lastMembership log
  epochs : (transitions log).map (fun placement => placement.epoch.toNat) = List.range' 1 (transitions log).length
  epoch : state.placementEpoch = (transitions log).getLast?.map (·.epoch)
  placed : ∀ before event after, log = before ++ event :: after → event.transition ≠ none → transitions after = [] →
    state.placementMembershipDigest = digestOf (inForce before) ∧
      state.placementMembershipGeneration.map UInt64.toNat =
        some (changes StateMachineData.initial.lastMembership before)
  due : ∀ before event after, log = before ++ event :: after → Due before event

/-- A log with one more entry is cut at that entry or before it. -/
theorem eq_append_cons_of_append_singleton {log before after : List Applied} {last event : Applied}
    (split : log ++ [last] = before ++ event :: after) :
    (before = log ∧ event = last ∧ after = []) ∨ ∃ rest, after = rest ++ [last] ∧ log = before ++ event :: rest := by
  rcases after.eq_nil_or_concat' with rfl | ⟨rest, final, rfl⟩
  · obtain ⟨same, one⟩ := List.append_inj' split rfl
    cases one
    exact .inl ⟨same.symm, rfl, rfl⟩
  · rw [← List.cons_append, ← List.append_assoc] at split
    obtain ⟨same, one⟩ := List.append_inj' split rfl
    cases one
    exact .inr ⟨rest, rfl, same⟩

theorem Fenced.initial : Fenced [] .initial := by
  refine ⟨rfl, rfl, rfl, rfl, fun before event after split => ?_, fun before event after split => ?_⟩
  · exact absurd split (by simp)
  · exact absurd split (by simp)

/-- Settling an entry leaves the fence alone. -/
theorem Fenced.settled {log : List Applied} (fenced : Fenced log state) (logId : LogId) :
    Fenced log (state.settled logId) :=
  ⟨fenced.membership, fenced.generation, fenced.epochs, fenced.epoch, fenced.placed, fenced.due⟩

/-- What passes the fence is due. -/
theorem Fenced.holds_of_passes {log : List Applied} {epoch : UInt64} (fenced : Fenced log state)
    (passes : Passes state epoch) : ∃ placement, Holds log placement ∧ placement.epoch = epoch := by
  have isLast : (transitions log).getLast?.map (·.epoch) = some epoch := fenced.epoch.symm.trans passes.epoch
  have some_ : transitions log ≠ [] := by
    intro none_
    rw [none_] at isLast
    cases isLast
  obtain ⟨before, event, after, placement, split, isTransition, none_, tail⟩ := exists_last_transition some_
  rw [tail, Option.map_some, Option.some.injEq] at isLast
  refine ⟨placement, ⟨before, event, after, split, isTransition, none_, ?_⟩, isLast⟩
  obtain ⟨-, generation⟩ := fenced.placed before event after split (by simp [isTransition]) none_
  -- The generation of the placement is that of the state, so nothing was counted in between.
  rw [passes.generation, Option.map_some, Option.some.injEq, fenced.generation] at generation
  rw [split, changes_append] at generation
  exact Nat.add_eq_left.mp generation

/-- An entry that establishes nothing adds nothing to the transitions. -/
theorem transitions_append_singleton (log : List Applied) (noTransition : event.transition = none) :
    transitions (log ++ [event]) = transitions log := by
  rw [transitions_append]
  simp [transitions, noTransition]

/-- Entries that establish nothing keep the placement of the log. -/
theorem Fenced.placed_append {log : List Applied} (fenced : Fenced log state)
    (digest : next.placementMembershipDigest = state.placementMembershipDigest)
    (generation : next.placementMembershipGeneration = state.placementMembershipGeneration)
    (noTransition : event.transition = none) (before : List Applied) (placing : Applied) (after : List Applied)
    (split : log ++ [event] = before ++ placing :: after) (isTransition : placing.transition ≠ none)
    (none_ : transitions after = []) :
    next.placementMembershipDigest = digestOf (inForce before) ∧
      next.placementMembershipGeneration.map UInt64.toNat =
        some (changes StateMachineData.initial.lastMembership before) := by
  rw [digest, generation]
  rcases eq_append_cons_of_append_singleton split with ⟨-, rfl, -⟩ | ⟨rest, rfl, cut⟩
  · exact absurd noTransition isTransition
  · rw [transitions_append_singleton rest noTransition] at none_
    exact fenced.placed before placing rest cut isTransition none_

theorem Fenced.due_append {log : List Applied} (fenced : Fenced log state) (due : Due log event)
    (before : List Applied) (other : Applied) (after : List Applied)
    (split : log ++ [event] = before ++ other :: after) : Due before other := by
  rcases eq_append_cons_of_append_singleton split with ⟨rfl, rfl, -⟩ | ⟨rest, -, cut⟩
  · exact due
  · exact fenced.due before other rest cut

/-- `checked_add(1)`. -/
theorem toNat_add_one {n : UInt64} (room : n ≠ u64Max) : (n + 1).toNat = n.toNat + 1 := by
  have below : n.toNat ≠ u64Max.toNat := fun same => room (UInt64.toNat.inj same)
  have bound := n.toNat_lt
  have max : u64Max.toNat = 2 ^ 64 - 1 := by decide
  rw [UInt64.toNat_add]
  show (n.toNat + 1) % 2 ^ 64 = n.toNat + 1
  omega

/-- A membership is counted when the digest of the voters is another one. -/
theorem applyMembership_ok {logId : LogId} {membership : Membership}
    (changed : state.applyMembership logId membership = .ok next) :
    next.lastMembership = ⟨some logId, membership⟩ ∧ next.placementEpoch = state.placementEpoch ∧
      next.placementMembershipDigest = state.placementMembershipDigest ∧
      next.placementMembershipGeneration = state.placementMembershipGeneration ∧
      next.voterMembershipGeneration.toNat = state.voterMembershipGeneration.toNat +
        if digestOf state.lastMembership = digestOf ⟨some logId, membership⟩ then 0 else 1 := by
  simp only [StateMachineData.applyMembership, StateMachineData.bindingDigest] at changed
  split at changed
  · rename_i same
    cases changed
    have same : digestOf state.lastMembership = digestOf ⟨some logId, membership⟩ := same
    refine ⟨rfl, rfl, rfl, rfl, ?_⟩
    rw [if_pos same, Nat.add_zero]
  · rename_i differs
    obtain ⟨room, changed⟩ := except_reject_ok.mp changed
    cases changed
    refine ⟨rfl, rfl, rfl, rfl, ?_⟩
    have differs : digestOf state.lastMembership ≠ digestOf ⟨some logId, membership⟩ := differs
    rw [if_neg differs]
    exact toNat_add_one room

/-- An entry with a membership changes the membership in force and what is counted. -/
theorem Fenced.membership_step {log : List Applied} {membership : Membership} (fenced : Fenced log state)
    (payload : event.entry.payload = .membership membership)
    (changed : state.applyMembership event.entry.logId membership = .ok next) (noTransition : event.transition = none)
    (noEpoch : event.epoch = none) : Fenced (log ++ [event]) next := by
  obtain ⟨isMembership, epoch, digest, placed, generation⟩ := applyMembership_ok changed
  have after : event.membershipAfter (inForce log) = ⟨some event.entry.logId, membership⟩ := by
    unfold Applied.membershipAfter
    rw [payload]
  have sameEpochs := transitions_append_singleton log noTransition
  refine ⟨?_, ?_, ?_, ?_, fenced.placed_append digest placed noTransition, fenced.due_append ?_⟩
  · rw [isMembership, inForce_append, List.foldl_cons, List.foldl_nil, after]
  · rw [generation, fenced.generation, fenced.membership, changes_append]
    simp only [changes, Nat.add_zero]
    show _ = _ + if digestOf (inForce log) = digestOf (event.membershipAfter (inForce log)) then 0 else 1
    rw [after]
  · rw [sameEpochs]
    exact fenced.epochs
  · rw [sameEpochs, epoch]
    exact fenced.epoch
  · refine ⟨fun placement is => ?_, fun epoch is => ?_⟩
    · cases noTransition.symm.trans is
    · cases noEpoch.symm.trans is

/-- An entry that keeps the fence is due when it passes. -/
theorem Fenced.keeps_step {log : List Applied} (fenced : Fenced log state) (keeps : Keeps state next event)
    (still : ∀ stored, event.membershipAfter stored = stored) : Fenced (log ++ [event]) next := by
  obtain ⟨same, noTransition, passes⟩ := keeps
  have sameEpochs := transitions_append_singleton log noTransition
  refine ⟨?_, ?_, ?_, ?_, fenced.placed_append same.digest same.placed noTransition, fenced.due_append ?_⟩
  · rw [same.membership, inForce_append, List.foldl_cons, List.foldl_nil, still]
    exact fenced.membership
  · rw [same.generation, changes_append, fenced.generation, changes, still, if_pos rfl, changes]
    rfl
  · rw [sameEpochs]
    exact fenced.epochs
  · rw [sameEpochs, same.epoch]
    exact fenced.epoch
  · refine ⟨fun placement is => ?_, fun epoch is => fenced.holds_of_passes (passes epoch is)⟩
    cases noTransition.symm.trans is

theorem binding_of_placement {placement : ShardPlacement} {stored : StoredMembership}
    {voters : List (String × String)} (matched : placementMembershipBinding placement stored = some voters) :
    membershipBinding stored = some voters ∧
      voters = bindingOf (placement.voters.map fun replica => (replica.node.asStr, replica.zone.asStr)) := by
  unfold placementMembershipBinding at matched
  split at matched
  · cases matched
  · rename_i raftVoters bound
    by_cases same : raftVoters = bindingOf (placement.voters.map fun replica => (replica.node.asStr, replica.zone.asStr))
    · rw [if_pos same] at matched
      cases matched
      exact ⟨bound, same⟩
    · rw [if_neg same] at matched
      cases matched

/-- The epoch that follows is one more than the transitions so far. -/
theorem Fenced.toNat_of_succeeds {log : List Applied} {epoch : UInt64} (fenced : Fenced log state)
    (succeeds : Succeeds state.placementEpoch epoch) : epoch.toNat = 1 + (transitions log).length := by
  have isLast := congrArg List.getLast? fenced.epochs
  rw [List.getLast?_map, List.getLast?_range'] at isLast
  unfold Succeeds at succeeds
  rw [fenced.epoch] at succeeds
  cases last : (transitions log).getLast? with
  | none =>
    rw [last] at succeeds
    rw [show epoch = 1 from succeeds, List.getLast?_eq_none_iff.mp last]
    rfl
  | some placement =>
    rw [last] at succeeds isLast
    obtain ⟨room, succeeds⟩ := succeeds
    rw [← succeeds, toNat_add_one room]
    split at isLast
    · cases isLast
    · rw [Option.map_some, Option.some.injEq] at isLast
      show placement.epoch.toNat + 1 = _
      omega

/-- A placement is established under the epoch that follows, for the voters in force. -/
theorem Fenced.establishes_step {log : List Applied} {placement : ShardPlacement} (fenced : Fenced log state)
    (establishes : Establishes state next placement) (isTransition : event.transition = some placement)
    (noEpoch : event.epoch = none) (still : ∀ stored, event.membershipAfter stored = stored) :
    Fenced (log ++ [event]) next := by
  obtain ⟨voters, matched, digest⟩ := establishes.voters
  rw [fenced.membership] at matched
  have more : transitions (log ++ [event]) = transitions log ++ [placement] := by
    rw [transitions_append]
    simp [transitions, isTransition]
  refine ⟨?_, ?_, ?_, ?_, ?_, fenced.due_append ?_⟩
  · rw [establishes.membership, inForce_append, List.foldl_cons, List.foldl_nil, still]
    exact fenced.membership
  · rw [establishes.generation, changes_append, fenced.generation, changes, still, if_pos rfl, changes]
    rfl
  · rw [more, List.map_append, List.length_append, List.length_singleton, List.range'_1_concat, fenced.epochs,
      List.map_singleton, fenced.toNat_of_succeeds establishes.succeeds]
  · rw [more, List.getLast?_append]
    exact establishes.epoch
  · intro before placing after split placed none_
    rcases eq_append_cons_of_append_singleton split with ⟨rfl, rfl, -⟩ | ⟨rest, rfl, cut⟩
    · rw [digest, establishes.placed, Option.map_some, fenced.generation]
      refine ⟨?_, rfl⟩
      rw [digestOf, (binding_of_placement matched).1, Option.map_some]
    · rw [transitions_append] at none_
      simp [transitions, isTransition] at none_
  · refine ⟨fun other is => ?_, fun epoch is => ?_⟩
    · cases isTransition.symm.trans is
      rw [matched]
      rfl
    · cases noEpoch.symm.trans is

end

section

variable [RaftCodec] [Store.Codec] {shard : ShardId} {state : StateMachineData} {log : List Applied} {db : Canonical}

/-- Every run keeps the fence. -/
theorem Fenced.run (run : Replicated shard log state db) : Fenced log state := by
  induction run with
  | opened => exact .initial
  | @applied log state next db after entry response operations before increasing payload written ih =>
    refine Fenced.settled ?_ entry.logId
    let event : Applied := ⟨entry, response, operations, state.isFirst entry.payload⟩
    have effect : Effect db.rows.view shard state event.entry.logId event.entry.payload next event.response
        event.operations := effect_of_applyPayload payload
    rcases fence_of_effect effect with ⟨membership, isMembership, changed, noTransition, noEpoch⟩ | ⟨still, rest⟩
    · exact ih.membership_step isMembership changed noTransition noEpoch
    · rcases rest with keeps | ⟨placement, isTransition, noEpoch, establishes⟩
      · exact ih.keeps_step keeps still
      · exact ih.establishes_step establishes isTransition noEpoch still

omit [RaftCodec] [Store.Codec] in
/-- What is hashed of the memberships in force along a log. -/
def hashedBindings (log : List Applied) : Set Bytes :=
  {bytes | ∃ before voters, before <+: log ∧ membershipBinding (inForce before) = some voters ∧
    bytes = bindingBytes voters}

/-- Along every log the transitions that are accepted have the epochs 1, 2, 3 and so on, each for the
voters and zones of the membership in force. A probe or a runtime commit is accepted for the first time
only under the epoch of the last transition, and only if no entry since then has changed the voters and
zones, whatever they are now. Where the hash does not collide, that is said of the voters and zones
themselves, not only of their digest. -/
theorem placement_fencing (run : Replicated shard log state db) :
    (transitions log).map (fun placement => placement.epoch.toNat) = List.range' 1 (transitions log).length ∧
      ∀ before event after, log = before ++ event :: after →
        (∀ placement, event.transition = some placement → membershipBinding (inForce before) =
          some (bindingOf (placement.voters.map fun replica => (replica.node.asStr, replica.zone.asStr)))) ∧
        ∀ epoch, event.epoch = some epoch → ∃ earlier transition later placement,
          before = earlier ++ transition :: later ∧ transition.transition = some placement ∧
          transitions later = [] ∧ placement.epoch = epoch ∧
          ∀ unchanged entry rest, later = unchanged ++ entry :: rest →
            digestOf (inForce (earlier ++ transition :: (unchanged ++ [entry]))) =
              digestOf (inForce (earlier ++ transition :: unchanged)) ∧
            (Set.InjOn sha256Hex (hashedBindings log) →
              membershipBinding (inForce (earlier ++ transition :: (unchanged ++ [entry]))) =
                membershipBinding (inForce (earlier ++ transition :: unchanged))) := by
  have fenced := Fenced.run run
  refine ⟨fenced.epochs, fun before event after split => ⟨fun placement is => ?_, fun epoch is => ?_⟩⟩
  · obtain ⟨voters, matched⟩ := Option.isSome_iff_exists.mp ((fenced.due before event after split).matched _ is)
    obtain ⟨bound, same⟩ := binding_of_placement matched
    rw [bound, same]
  · obtain ⟨placement, ⟨earlier, transition, later, cut, isTransition, none_, still⟩, isEpoch⟩ :=
      (fenced.due before event after split).held epoch is
    refine ⟨earlier, transition, later, placement, cut, isTransition, none_, isEpoch, ?_⟩
    intro unchanged entry rest piece
    have cutLater : transition :: later = (transition :: unchanged) ++ entry :: rest := by
      rw [piece, List.cons_append]
    have same := digestOf_of_no_changes still cutLater
    rw [inForce_append, inForce_append]
    refine ⟨same, fun free => ?_⟩
    rw [← inForce_append, ← inForce_append]
    have within : earlier ++ transition :: (unchanged ++ [entry]) <+: log :=
      ⟨rest ++ event :: after, by rw [split, cut, piece]; simp⟩
    have within' : earlier ++ transition :: unchanged <+: log :=
      ⟨entry :: (rest ++ event :: after), by rw [split, cut, piece]; simp⟩
    refine binding_of_digest free (fun voters bound => ⟨_, voters, within, bound, rfl⟩)
      (fun voters bound => ⟨_, voters, within', bound, rfl⟩) ?_
    rw [inForce_append, inForce_append]
    exact same

end

/-- A probe is accepted under the placement that was established for the three nodes. -/
theorem placement_fencing_probed :
    ∃ log state db, @Replicated sevenCodec bareCodec seven log state db ∧
      log.map (·.response.accepted) = [true, true, true] ∧ log.map (·.entry) = probed ∧
      (transitions log).map (fun placement => placement.epoch.toNat) =
        List.range' 1 (transitions log).length := by
  obtain ⟨log, state, db, run, accepted, entries⟩ := replicated_probed
  exact ⟨log, state, db, run, accepted, entries, (@placement_fencing sevenCodec bareCodec _ _ _ _ run).1⟩

end Vyrm.Cluster
