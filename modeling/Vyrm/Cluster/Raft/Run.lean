import Vyrm.Cluster.Raft.Apply

/-!
# Runs of the state machine

What one entry can do to the state machine, and the states it is in after the entries of a log.
-/

namespace Vyrm.Cluster
open Lib Vyrm.Core Vyrm.Store Serde

variable [RaftCodec] [Store.Codec]

/-! ## What a command comes to -/

/-- What a command that is seen for the first time comes to, case by case. -/
inductive Judged (view : View) (state : StateMachineData) (command : VyrmRaftCommand) : Verdict → Prop where
  | denied (refused : state.admits command = false) :
      Judged view state command ⟨state, false, state.denial command, none, []⟩
  | mismatched {placement : ShardPlacement} (admitted : state.admits command = true)
      (operation : command.operation = .placementTransition placement)
      (other : placementMembershipBinding placement state.lastMembership = none) :
      Judged view state command
        ⟨state, false, "placement voters and zones do not match applied Raft membership", none, []⟩
  | transitioned {placement : ShardPlacement} {voters : List (String × String)} {digest : String}
      (admitted : state.admits command = true)
      (operation : command.operation = .placementTransition placement)
      (matched : placementMembershipBinding placement state.lastMembership = some voters)
      (isDigest : placement.digest = .ok digest) :
      Judged view state command
        ⟨{ state with
            placementEpoch := some placement.epoch
            placementDigest := some digest
            placementMembershipDigest := some (membershipBindingDigest voters)
            placementMembershipGeneration := some state.voterMembershipGeneration },
          true, "quorum-committed placement epoch transition applied", none, []⟩
  | probed {payloadDigest : String} {payload : Bytes} (admitted : state.admits command = true)
      (operation : command.operation = .probe payloadDigest payload) :
      Judged view state command ⟨state, true, "quorum-committed probe applied", none, []⟩
  | known {commit : RuntimeCommit} {outcome : RuntimeCommitOutcome} (admitted : state.admits command = true)
      (operation : command.operation = .runtimeCommit commit)
      (found : view.commitOutcome commit.digest = .ok (some outcome)) :
      Judged view state command
        ⟨state, true, "canonical runtime transaction was already committed", some outcome, []⟩
  | committed {commit : RuntimeCommit} {outcome : RuntimeCommitOutcome} {operations : List Kv.Mutation}
      (admitted : state.admits command = true) (operation : command.operation = .runtimeCommit commit)
      (unknown : view.commitOutcome commit.digest = .ok none)
      (prepared : view.prepareCommit commit = .ok (outcome, operations))
      (counts : state.runtimeCommitCount ≠ u64Max) :
      Judged view state command
        ⟨{ state with runtimeCommitCount := state.runtimeCommitCount + 1 }, true,
          "quorum-committed canonical runtime transaction applied", some outcome, operations⟩
  | rejected {commit : RuntimeCommit} {e : Store.Error} {text : String} (admitted : state.admits command = true)
      (operation : command.operation = .runtimeCommit commit)
      (unknown : view.commitOutcome commit.digest = .ok none) (failed : view.prepareCommit commit = .error e)
      (deterministic : deterministicRuntimeRejection e = some text) :
      Judged view state command ⟨state, false, "canonical runtime transaction denied: " ++ text, none, []⟩

variable {view : View} {shard : ShardId} {state next : StateMachineData} {command : VyrmRaftCommand} {logId : LogId}
  {entry : VyrmRaftEntry} {response : VyrmRaftResponse} {operations : List Kv.Mutation} {verdict : Verdict}

theorem judged_of_judge (judged : state.judge view command = .ok verdict) : Judged view state command verdict := by
  unfold StateMachineData.judge at judged
  cases admitted : state.admits command with
  | false =>
    rw [admitted, if_pos (by decide)] at judged
    cases judged
    exact .denied admitted
  | true =>
    rw [admitted, if_neg (by decide)] at judged
    cases operation : command.operation with
    | placementTransition placement =>
      rw [operation] at judged
      simp only [StateMachineData.transition] at judged
      cases matched : placementMembershipBinding placement state.lastMembership with
      | none =>
        rw [matched] at judged
        cases judged
        exact .mismatched admitted operation matched
      | some voters =>
        rw [matched] at judged
        cases isDigest : placement.digest with
        | error e =>
          rw [isDigest] at judged
          cases judged
        | ok digest =>
          rw [isDigest] at judged
          cases judged
          exact .transitioned admitted operation matched isDigest
    | probe payloadDigest payload =>
      rw [operation] at judged
      cases judged
      exact .probed admitted operation
    | runtimeCommit commit =>
      rw [operation] at judged
      simp only [StateMachineData.commitRuntime] at judged
      cases known : view.commitOutcome commit.digest with
      | error e =>
        rw [known] at judged
        cases judged
      | ok outcome =>
        rw [known] at judged
        cases outcome with
        | some outcome =>
          cases judged
          exact .known admitted operation known
        | none =>
          cases prepared : view.prepareCommit commit with
          | ok plan =>
            simp only [prepared] at judged
            obtain ⟨counts, judged⟩ := except_reject_ok.mp judged
            cases judged
            exact .committed admitted operation known prepared counts
          | error e =>
            simp only [prepared] at judged
            cases deterministic : deterministicRuntimeRejection e with
            | none =>
              rw [deterministic] at judged
              cases judged
            | some text =>
              rw [deterministic] at judged
              cases judged
              exact .rejected admitted operation known prepared deterministic

/-! ## What an entry does -/

/-- What the payload of an entry does, case by case. -/
inductive Effect (view : View) (shard : ShardId) (state : StateMachineData) (logId : LogId) :
    EntryPayload → StateMachineData → VyrmRaftResponse → List Kv.Mutation → Prop where
  | blank : Effect view shard state logId .blank state (state.blankResponse logId) []
  | membership {membership : Membership} {next : StateMachineData}
      (changed : state.applyMembership logId membership = .ok next) :
      Effect view shard state logId (.membership membership) next (next.blankResponse logId) []
  | reused {command : VyrmRaftCommand} {previous : AppliedRequest} (valid : command.validate = .ok ())
      (own : command.shard = shard) (kept : state.requests[command.requestId]? = some previous)
      (other : previous.commandDigest ≠ command.identityDigest) :
      Effect view shard state logId (.normal command) state
        ⟨false, false, logId.term, logId.index, state.stateDigest,
          "request id was reused with a different command identity", none⟩ []
  | repeated {command : VyrmRaftCommand} {previous : AppliedRequest} (valid : command.validate = .ok ())
      (own : command.shard = shard) (kept : state.requests[command.requestId]? = some previous)
      (same : previous.commandDigest = command.identityDigest) :
      Effect view shard state logId (.normal command) state
        { previous.response with duplicate := true, term := logId.term, index := logId.index } []
  | executed {command : VyrmRaftCommand} {verdict : Verdict} (valid : command.validate = .ok ())
      (own : command.shard = shard) (fresh : state.requests[command.requestId]? = none)
      (judged : Judged view state command verdict) :
      Effect view shard state logId (.normal command) (StateMachineData.record verdict logId command).1
        (StateMachineData.record verdict logId command).2 verdict.operations

theorem effect_of_applyPayload (applied : state.applyPayload view shard entry = .ok (next, response, operations)) :
    Effect view shard state entry.logId entry.payload next response operations := by
  unfold StateMachineData.applyPayload at applied
  cases payload : entry.payload with
  | blank =>
    rw [payload] at applied
    cases applied
    exact .blank
  | membership membership =>
    rw [payload] at applied
    obtain ⟨changed, isChanged, applied⟩ := except_bind_ok.mp applied
    cases applied
    exact .membership isChanged
  | normal command =>
    rw [payload] at applied
    simp only [StateMachineData.applyCommand] at applied
    cases valid : command.validate with
    | error e =>
      rw [valid] at applied
      cases applied
    | ok _ =>
      rw [valid] at applied
      obtain ⟨own, applied⟩ := except_reject_ok.mp applied
      have own := not_not.mp own
      cases kept : state.requests[command.requestId]? with
      | none =>
        rw [kept] at applied
        obtain ⟨verdict, judged, applied⟩ := except_bind_ok.mp applied
        cases applied
        exact .executed valid own kept (judged_of_judge judged)
      | some previous =>
        rw [kept] at applied
        by_cases same : previous.commandDigest = command.identityDigest
        · simp only [if_neg (not_not.mpr same)] at applied
          cases applied
          exact .repeated valid own kept same
        · simp only [if_pos same] at applied
          cases applied
          exact .reused valid own kept same

/-! ## Runs -/

omit [RaftCodec] [Store.Codec] in
theorem write_ok {db after : Canonical} {operations : List Kv.Mutation} (written : db.write operations = .ok after) :
    after.rows = operations.foldl Rows.apply db.rows ∧ after.sequence = db.sequence + operations.length := by
  obtain ⟨batch, -, written⟩ := except_bind_ok.mp written
  obtain ⟨_, -, written⟩ := except_bind_ok.mp written
  obtain ⟨-, written⟩ := except_reject_ok.mp written
  cases written
  exact ⟨rfl, rfl⟩

/-- What became of an entry. It is a first application when no request with its id is kept. -/
structure Applied where
  entry : VyrmRaftEntry
  response : VyrmRaftResponse
  operations : List Kv.Mutation
  first : Bool

omit [RaftCodec] [Store.Codec] in
/-- No request with the id of a command is kept. -/
def StateMachineData.isFirst (state : StateMachineData) : EntryPayload → Bool
  | .normal command => (state.requests[command.requestId]?).isNone
  | .blank => false
  | .membership _ => false

/-- The state machine after the entries of a log with increasing indices. -/
inductive Replicated (shard : ShardId) : List Applied → StateMachineData → Canonical → Prop where
  | opened : Replicated shard [] .initial (.create shard)
  | applied {log : List Applied} {state next : StateMachineData} {db after : Canonical} {entry : VyrmRaftEntry}
      {response : VyrmRaftResponse} {operations : List Kv.Mutation} (before : Replicated shard log state db)
      (increasing : ∀ last ∈ state.lastApplied, last.index < entry.logId.index)
      (payload : state.applyPayload db.rows.view shard entry = .ok (next, response, operations))
      (written : db.write (operations ++ [.put keyState (toVec (next.settled entry.logId))]) = .ok after) :
      Replicated shard (log ++ [⟨entry, response, operations, state.isFirst entry.payload⟩])
        (next.settled entry.logId) after

/-- A turn of the loop of `apply` is a step of a run. -/
theorem Replicated.applyEntry {log : List Applied} {db after : Canonical} (before : Replicated shard log state db)
    (increasing : ∀ last ∈ state.lastApplied, last.index < entry.logId.index)
    (done : Cluster.applyEntry shard db state entry = .ok (response, next, after)) :
    ∃ operations, Replicated shard (log ++ [⟨entry, response, operations, state.isFirst entry.payload⟩]) next after := by
  obtain ⟨⟨changed, answered, operations⟩, payload, done⟩ := except_bind_ok.mp done
  cases written : db.write (operations ++ [.put keyState (toVec (changed.settled entry.logId))]) with
  | error e =>
    simp only [written] at done
    cases done
  | ok db' =>
    simp only [written] at done
    cases done
    exact ⟨operations, before.applied increasing payload written⟩

/-- The entries have increasing indices, all above the last one that was applied. -/
def Follows : Option LogId → List VyrmRaftEntry → Prop
  | _, [] => True
  | last, entry :: rest => (∀ applied ∈ last, applied.index < entry.logId.index) ∧ Follows (some entry.logId) rest

theorem lastApplied_of_applyEntry {db after : Canonical}
    (done : Cluster.applyEntry shard db state entry = .ok (response, next, after)) :
    next.lastApplied = some entry.logId := by
  obtain ⟨⟨changed, answered, operations⟩, payload, done⟩ := except_bind_ok.mp done
  cases written : db.write (operations ++ [.put keyState (toVec (changed.settled entry.logId))]) with
  | error e =>
    simp only [written] at done
    cases done
  | ok db' =>
    simp only [written] at done
    cases done
    rfl

/-- The loop of `apply` is a run. -/
theorem Replicated.applyEntries {log : List Applied} {db after : Canonical} {entries : List VyrmRaftEntry}
    {responses : List VyrmRaftResponse} (before : Replicated shard log state db)
    (follows : Follows state.lastApplied entries)
    (done : Cluster.applyEntries shard db state entries = (.ok responses, after)) :
    ∃ more next, Replicated shard (log ++ more) next after ∧ more.map (·.entry) = entries ∧
      more.map (·.response) = responses := by
  induction entries generalizing log state db responses with
  | nil =>
    cases done
    exact ⟨[], state, by rwa [List.append_nil], rfl, rfl⟩
  | cons entry rest ih =>
    obtain ⟨increasing, follows⟩ := follows
    unfold Cluster.applyEntries at done
    cases turn : Cluster.applyEntry shard db state entry with
    | error e =>
      rw [turn] at done
      cases done
    | ok turned =>
      obtain ⟨response, next, db'⟩ := turned
      cases rested : Cluster.applyEntries shard db' next rest with
      | mk result last =>
        simp only [turn, rested] at done
        cases result with
        | error e => cases done
        | ok responses' =>
          cases done
          obtain ⟨operations, one⟩ := before.applyEntry increasing turn
          rw [← lastApplied_of_applyEntry turn] at follows
          obtain ⟨more, final, run, same, answers⟩ := ih one follows rested
          refine ⟨⟨entry, response, operations, state.isFirst entry.payload⟩ :: more, final, ?_, ?_, ?_⟩
          · rw [List.append_assoc] at run
            exact run
          · rw [List.map_cons, same]
          · rw [List.map_cons, answers]

/-! ## A shard of three nodes -/

def seven : ShardId := ⟨7⟩

def threeNodes : Membership :=
  ⟨[[1, 2, 3]], (((∅ : OrdMap UInt64 VyrmRaftNode).insert 1 ⟨"n1", "a", "h1"⟩).insert 2 ⟨"n2", "b", "h2"⟩).insert 3
    ⟨"n3", "c", "h3"⟩⟩

def threeReplicas : ShardPlacement :=
  { contractVersion := 1
    cluster := .lit "c" (Eq.refl true)
    shard := seven
    epoch := 1
    policy := ⟨3, 2, 1⟩
    replicas := [⟨.lit "n1" (Eq.refl true), .lit "a" (Eq.refl true), .voter⟩,
      ⟨.lit "n2" (Eq.refl true), .lit "b" (Eq.refl true), .voter⟩,
      ⟨.lit "n3" (Eq.refl true), .lit "c" (Eq.refl true), .voter⟩] }

/-- A membership, a placement for it, and a probe under that placement. -/
def probed : List VyrmRaftEntry :=
  [⟨⟨1, 1, 1⟩, .membership threeNodes⟩,
    ⟨⟨1, 1, 2⟩, .normal ⟨"place", seven, 1, none, .placementTransition threeReplicas⟩⟩,
    ⟨⟨1, 1, 3⟩, .normal ⟨"probe", seven, 1, none, .probe (sha256Hex [1]) [1]⟩⟩]

/-- No runtime commit is written here. -/
@[reducible] def sevenCodec : RaftCodec := plainRaftCodec (fun _ => "") [] [] seven

/-- Nothing of the engine is encoded here. -/
@[reducible] def bareCodec : Store.Codec where
  claim := .ofTexts (fun _ => "") []
  change := .ofTexts (fun _ => "") []
  work := .ofTexts (fun _ => "") []
  registry := .ofTexts (fun _ => "") []
  record := .ofTexts (fun _ => "") []
  relation := .ofTexts (fun _ => "") []
  vector := .ofTexts (fun _ => "") []
  sample := .ofTexts (fun _ => "") []
  geo := .ofTexts (fun _ => "") []
  object := .ofTexts (fun _ => "") []
  audit := .ofTexts (fun _ => "") []
  outcome := .ofTexts (fun _ => "") []

omit [RaftCodec] [Store.Codec] in
theorem replicated_probed :
    ∃ log state db, @Replicated sevenCodec bareCodec seven log state db ∧
      log.map (·.response.accepted) = [true, true, true] ∧ log.map (·.entry) = probed := by
  let _ := sevenCodec
  let _ := bareCodec
  have accepted : (applyEntries seven (.create seven) .initial probed).1.toOption.map
      (fun responses => responses.map (·.accepted)) = some [true, true, true] := by decide +kernel
  cases done : applyEntries seven (.create seven) .initial probed with
  | mk result db =>
    rw [done] at accepted
    cases result with
    | error e => cases accepted
    | ok responses =>
      have follows : Follows StateMachineData.initial.lastApplied probed := by
        refine ⟨nofun, ?_, ?_, trivial⟩ <;> (rintro applied ⟨⟩; decide)
      obtain ⟨log, state, run, entries, answers⟩ := Replicated.opened.applyEntries follows done
      refine ⟨log, state, db, run, ?_, entries⟩
      rw [← Option.some.inj accepted, ← answers]
      exact List.map_map.symm

end Vyrm.Cluster
