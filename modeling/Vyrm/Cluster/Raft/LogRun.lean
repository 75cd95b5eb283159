import Vyrm.Cluster.Raft.LogReference
import Vyrm.Cluster.Raft.Run
import Vyrm.Kv.Reference
import Vyrm.Store.Projection.Fold

/-!
# Runs of the log store

The log store over its database: what a call leaves in the multi-version store, what opening it again
reads from its segments and its replayed log, and the refinement of the log in every run.
-/

namespace Vyrm.Cluster
open Lib Lib.FaultFs Mvcc Vyrm.Core Vyrm.Store Serde

variable [Kv.Platform] [RaftCodec] [LogCodec]

/-! ## Steps -/

/-- An error of a file operation, as against a refusal. -/
def RaftError.isIo : RaftError → Bool
  | .batch e => e.isIo
  | _ => false

/-- A log store in use: its directory, its process, its database, and the log that the calls have made. -/
structure LogUse where
  files : Files Kv.Path
  process : Kv.Process
  store : VyrmRaftLogStore
  log : LogReference

/-- The world in which a call starts. -/
def LogUse.world (use : LogUse) (oracle : Oracle Kv.Path Kv.Directory) (tick : Nat) :
    World Kv.Path Kv.Directory Kv.Process := ⟨use.files, use.process, oracle, tick⟩

/-- One step: a call that OpenRaft may make, one that is refused, or the store being closed and opened
again by some process. The log takes the calls that return `Ok`. -/
inductive LogStep (shard : ShardId) (use : LogUse) : LogUse → Prop where
  | called {oracle : Oracle Kv.Path Kv.Directory} {tick : Nat} {logCall : LogCall} {store : VyrmRaftLogStore}
      {w : World Kv.Path Kv.Directory Kv.Process} (allows : use.log.Allows logCall)
      (ran : use.store.call logCall (use.world oracle tick) = .ok (.ok (), store) w) :
      LogStep shard use ⟨w.files, w.process, store, use.log.after logCall⟩
  | refused {oracle : Oracle Kv.Path Kv.Directory} {tick : Nat} {logCall : LogCall} {store : VyrmRaftLogStore}
      {w : World Kv.Path Kv.Directory Kv.Process} {e : RaftError}
      (ran : use.store.call logCall (use.world oracle tick) = .ok (.error e, store) w) (refusal : e.isIo = false) :
      LogStep shard use ⟨w.files, w.process, store, use.log⟩
  | reopened {oracle : Oracle Kv.Path Kv.Directory} {tick : Nat} {process : Kv.Process} {store : VyrmRaftLogStore}
      {w : World Kv.Path Kv.Directory Kv.Process} {result : Except RaftError Unit}
      (ran : VyrmRaftLogStore.open shard ⟨use.files, process, oracle, tick⟩ = .ok (result, store) w) :
      LogStep shard use ⟨w.files, w.process, store, use.log⟩

/-- A log store that was opened where there was none, and then used. -/
inductive LogRun (shard : ShardId) : LogUse → Prop where
  | opened {files : Files Kv.Path} {process : Kv.Process} {oracle : Oracle Kv.Path Kv.Directory} {tick : Nat}
      {store : VyrmRaftLogStore} {w : World Kv.Path Kv.Directory Kv.Process} (new : .current ∉ files)
      (ran : VyrmRaftLogStore.open shard ⟨files, process, oracle, tick⟩ = .ok (.ok (), store) w) :
      LogRun shard ⟨w.files, w.process, store, .empty⟩
  | step {use next : LogUse} (before : LogRun shard use) (step : LogStep shard use next) : LogRun shard next

/-! ## The store on its database -/

section

variable {files : Files Kv.Path} {store after : VyrmRaftLogStore} {stored : List Kv.Segment}
  {pending : List Kv.WriteBatch} {operations more : List Kv.Mutation}
  {w w' : World Kv.Path Kv.Directory Kv.Process} {e : RaftError}

namespace VyrmRaftLogStore

omit [RaftCodec] [LogCodec] in
theorem view_eq (records : Kv.Records files store.localDatabase stored pending operations) :
    store.view = (Rows.ofHistory operations).view := by
  have reads := Rows.view_get records
  have scans := Rows.view_scan records
  exact congrArg₂ View.mk (funext reads) (funext fun start => funext fun stop => scans start stop)

omit [RaftCodec] [LogCodec] in
/-- A write that returns `Ok` adds its operations to the history of the database. -/
theorem writeOperations_ok (records : Kv.Records w.files store.localDatabase stored pending operations)
    (ran : store.writeOperations more w = .ok (.ok (), after) w') :
    ∃ stored' pending', Kv.Records w'.files after.localDatabase stored' pending' (operations ++ more) := by
  unfold writeOperations at ran
  cases made : Kv.WriteBatch.new more with
  | error e =>
    rw [made] at ran
    cases ran
  | ok batch =>
    rw [made] at ran
    obtain ⟨⟨result, db⟩, w₁, wrote, returned⟩ := Kv.bind_ok ran
    cases result with
    | error e => cases returned
    | ok receipt =>
      cases returned
      rw [Kv.writeOwned_eq] at wrote
      obtain ⟨-, -, rfl, live, -, -, others⟩ := (Kv.write_wp records.live).run_ok wrote
      obtain ⟨-, -, same⟩ := except_bind_ok.mp made
      cases same
      exact ⟨_, _, records.wrote live others⟩

omit [RaftCodec] [LogCodec] in
/-- A write that is refused leaves everything as it was. -/
theorem writeOperations_error (records : Kv.Records w.files store.localDatabase stored pending operations)
    (ran : store.writeOperations more w = .ok (.error e, after) w') (refusal : e.isIo = false) :
    after = store ∧ w'.files = w.files := by
  unfold writeOperations at ran
  cases made : Kv.WriteBatch.new more with
  | error e =>
    rw [made] at ran
    cases ran
    exact ⟨rfl, rfl⟩
  | ok batch =>
    rw [made] at ran
    obtain ⟨⟨result, db⟩, w₁, wrote, returned⟩ := Kv.bind_ok ran
    cases result with
    | ok receipt => cases returned
    | error e =>
      cases returned
      rw [Kv.writeOwned_eq] at wrote
      rcases ((Kv.write_wp records.live).run_ok wrote).2 with ⟨rfl, same, -⟩ | ⟨io, -⟩
      · exact ⟨rfl, same⟩
      · rw [RaftError.isIo, io] at refusal
        cases refusal

/-- A call that returns `Ok` adds what it has planned to the history of the database. -/
theorem call_ok {logCall : LogCall}
    (records : Kv.Records w.files store.localDatabase stored pending operations)
    (ran : store.call logCall w = .ok (.ok (), after) w') :
    ∃ more, logCall.operations (Rows.ofHistory operations).view = .ok more ∧
      ∃ stored' pending', Kv.Records w'.files after.localDatabase stored' pending' (operations ++ more) := by
  unfold call at ran
  rw [view_eq records] at ran
  cases planned : logCall.operations (Rows.ofHistory operations).view with
  | error e =>
    rw [planned] at ran
    cases ran
  | ok more =>
    rw [planned] at ran
    refine ⟨more, rfl, ?_⟩
    cases more with
    | nil =>
      cases ran
      exact ⟨_, _, (List.append_nil operations).symm ▸ records⟩
    | cons first rest => exact writeOperations_ok records ran

/-- A call that is refused leaves everything as it was. -/
theorem call_error {logCall : LogCall}
    (records : Kv.Records w.files store.localDatabase stored pending operations)
    (ran : store.call logCall w = .ok (.error e, after) w') (refusal : e.isIo = false) :
    after = store ∧ w'.files = w.files := by
  unfold call at ran
  cases planned : logCall.operations store.view with
  | error e =>
    rw [planned] at ran
    cases ran
    exact ⟨rfl, rfl⟩
  | ok more =>
    rw [planned] at ran
    cases more with
    | nil => cases ran
    | cons first rest => exact writeOperations_error records ran refusal

omit [RaftCodec] [LogCodec] in
/-- Where there is a `CURRENT`, opening reads the history of the database back. -/
theorem openAdapterDatabase_ok {db : Kv.Database}
    (records : Kv.Records w.files store.localDatabase stored pending operations)
    (ran : openAdapterDatabase w = .ok db w') :
    ∃ stored' pending', Kv.Records w'.files db stored' pending' operations := by
  have there : .current ∈ w.files := mem_of_lookup records.live.disk.published.current
  obtain ⟨found, w₁, looked, ran⟩ := Kv.bind_ok ran
  cases looked
  rw [if_pos (decide_eq_true there)] at ran
  obtain ⟨rfl, locked⟩ := records.live.reopened ran
  exact ⟨_, _, records.reopened locked⟩

omit [RaftCodec] [LogCodec] in
/-- Where there is none, opening creates an empty database. -/
theorem openAdapterDatabase_new {db : Kv.Database} (new : .current ∉ w.files)
    (ran : openAdapterDatabase w = .ok db w') : ∃ stored pending, Kv.Records w'.files db stored pending [] := by
  obtain ⟨found, w₁, looked, ran⟩ := Kv.bind_ok ran
  cases looked
  rw [if_neg (by simpa using new)] at ran
  exact (Kv.Run.create ran).records

end VyrmRaftLogStore

/-! ## What holds in every run -/

/-- The database of a store holds the rows of its log. -/
def LogUse.Refines (shard : ShardId) (use : LogUse) : Prop :=
  ∃ stored pending operations, Kv.Records use.files use.store.localDatabase stored pending operations ∧
    LogRows shard (Rows.ofHistory operations) use.log

end

section

variable {shard : ShardId} {use next : LogUse}

omit [Kv.Platform] in
/-- The rows that a new store starts with are those of the empty log. -/
theorem keeps_config : LogRows shard (Rows.ofHistory [putJson keyLocalConfig (localConfig shard)]) .empty := by
  have ⟨distinct, beside⟩ := keys_apart
  simp only [List.nodup_cons, List.mem_cons, List.not_mem_nil, or_false, not_or, not_false_eq_true,
    List.nodup_nil, and_true] at distinct
  obtain ⟨⟨configVote, configCommitted, configPurged⟩, -⟩ := distinct
  have rows : Rows.ofHistory [putJson keyLocalConfig (localConfig shard)] =
      Rows.apply ∅ (putJson keyLocalConfig (localConfig shard)) := rfl
  have none_ : IsGraph ([].map logRow) (logOf ∅) := ⟨.nil, fun key value => by simp [logOf]⟩
  rw [rows]
  refine ⟨?_, ?_, ⟨none, ?_, rfl⟩, ?_, graph_put (beside keyLocalConfig (by simp)) _ none_⟩
  · simp [LogRows.getElem?_putJson]
  · simp [LogRows.getElem?_putJson, configVote, LogReference.empty]
  · simp [LogRows.getElem?_putJson, configCommitted]
  · simp [LogRows.getElem?_putJson, configPurged, LogReference.empty]

theorem refines_step (back : ReadsBackIds shard) (refines : use.Refines shard) (step : LogStep shard use next) :
    next.Refines shard := by
  obtain ⟨stored, pending, operations, records, keeps⟩ := refines
  cases step with
  | called allows ran =>
    obtain ⟨more, planned, stored', pending', records'⟩ := VyrmRaftLogStore.call_ok records ran
    refine ⟨stored', pending', operations ++ more, records', ?_⟩
    rw [Rows.ofHistory_append]
    exact keeps.after allows planned
  | refused ran refusal =>
    obtain ⟨rfl, same⟩ := VyrmRaftLogStore.call_error records ran refusal
    refine ⟨stored, pending, operations, ?_, keeps⟩
    rw [same]
    exact records
  | reopened ran =>
    rename_i oracle tick process store w result
    obtain ⟨db, w₁, opened, ran⟩ := Kv.bind_ok ran
    obtain ⟨stored', pending', records'⟩ := VyrmRaftLogStore.openAdapterDatabase_ok records opened
    unfold VyrmRaftLogStore.ensureAdapterDatabase at ran
    have view : (VyrmRaftLogStore.mk db).view = (Rows.ofHistory operations).view := VyrmRaftLogStore.view_eq records'
    rw [view] at ran
    rw [show (Rows.ofHistory operations).view.get keyLocalConfig = .ok (Rows.ofHistory operations)[keyLocalConfig]?
      from rfl, keeps.config] at ran
    dsimp only at ran
    rw [back.config] at ran
    dsimp only at ran
    rw [if_neg (not_not.mpr rfl)] at ran
    cases ran
    exact ⟨_, _, _, records', keeps⟩

theorem refines_run (back : ReadsBackIds shard) (run : LogRun shard use) : use.Refines shard := by
  induction run with
  | opened new ran =>
    obtain ⟨db, w₁, opened, ran⟩ := Kv.bind_ok ran
    obtain ⟨stored, pending, records⟩ := VyrmRaftLogStore.openAdapterDatabase_new new opened
    have absent : (Rows.ofHistory []).view.get keyLocalConfig = .ok none := by simp [Rows.ofHistory, Rows.view]
    have start : (VyrmRaftLogStore.mk db).localDatabase.snapshot.sequence = 0 := records.length
    unfold VyrmRaftLogStore.ensureAdapterDatabase at ran
    have view : (VyrmRaftLogStore.mk db).view = (Rows.ofHistory []).view := VyrmRaftLogStore.view_eq records
    rw [view, absent] at ran
    dsimp only at ran
    rw [if_neg (not_not.mpr start)] at ran
    have records : Kv.Records w₁.files (VyrmRaftLogStore.mk db).localDatabase stored pending [] := records
    obtain ⟨stored', pending', records'⟩ := VyrmRaftLogStore.writeOperations_ok records ran
    exact ⟨_, _, _, records', keeps_config⟩
  | step _ step ih => exact refines_step back ih step

/-! ## Votes -/

namespace Vote

omit [Kv.Platform] [RaftCodec] [LogCodec]

theorem regresses_iff {vote current : Vote} :
    vote.regresses current = true ↔ vote.term < current.term ∨ vote.term = current.term ∧
      (vote.nodeId < current.nodeId ∨ vote.nodeId = current.nodeId ∧
        (vote.committed = false ∧ current.committed = true)) := by
  have bools : ∀ a b : Bool, compare a b = .lt ↔ a = false ∧ b = true := by decide
  rw [regresses, partialCmp, Option.all_some, Ordering.isLT_iff_eq_lt, Ordering.then_eq_lt, Ordering.then_eq_lt,
    Ordering.then_eq_eq, bools]
  simp only [Std.compare_eq_lt, Std.compare_eq_iff_eq]
  grind

theorem not_regresses_self (vote : Vote) : vote.regresses vote = false := by
  rw [Bool.eq_false_iff, ne_eq, regresses_iff]
  simp

/-- Votes that do not regress one after the other do not regress at all. -/
theorem not_regresses_trans {first second third : Vote} (forth : second.regresses first = false)
    (further : third.regresses second = false) : third.regresses first = false := by
  rw [Bool.eq_false_iff, ne_eq, regresses_iff] at forth further ⊢
  simp only [UInt64.lt_iff_toNat_lt, ← UInt64.toNat_inj] at forth further ⊢
  grind

end Vote

/-- A step keeps the vote, or puts one in its place that does not regress. -/
theorem vote_step (back : ReadsBackIds shard) (refines : use.Refines shard) (step : LogStep shard use next)
    {vote : Vote} (cast : use.log.vote = some vote) :
    ∃ later, next.log.vote = some later ∧ later.regresses vote = false := by
  obtain ⟨stored, pending, operations, records, keeps⟩ := refines
  cases step with
  | refused | reopened => exact ⟨vote, cast, vote.not_regresses_self⟩
  | called allows ran =>
    rename_i oracle tick logCall store w
    obtain ⟨more, planned, -⟩ := VyrmRaftLogStore.call_ok records ran
    cases logCall with
    | saveCommitted | append | truncate | purge => exact ⟨vote, cast, vote.not_regresses_self⟩
    | saveVote later =>
      obtain ⟨current, read, planned⟩ := except_bind_ok.mp planned
      obtain ⟨accepted, -⟩ := except_reject_ok.mp planned
      rw [keeps.readVote back] at read
      cases read
      rw [cast, Option.any_some, Bool.not_eq_true] at accepted
      exact ⟨later, rfl, accepted⟩

theorem vote_steps (back : ReadsBackIds shard) (run : LogRun shard use)
    (steps : Relation.ReflTransGen (LogStep shard) use next) {vote : Vote} (cast : use.log.vote = some vote) :
    LogRun shard next ∧ ∃ later, next.log.vote = some later ∧ later.regresses vote = false := by
  induction steps with
  | refl => exact ⟨run, vote, cast, vote.not_regresses_self⟩
  | tail _ step ih =>
    obtain ⟨before, later, cast, kept⟩ := ih
    obtain ⟨last, cast, kept'⟩ := vote_step back (refines_run back before) step cast
    exact ⟨before.step step, last, cast, Vote.not_regresses_trans kept kept'⟩

/-! ## The refinement -/

/-- What a log store shows is its log, and its vote never goes back. -/
structure LogUse.Faithful (shard : ShardId) (use : LogUse) : Prop where
  entries : ∀ range, tryGetLogEntries use.store.view range = .ok (use.log.entriesIn range)
  logState : getLogState use.store.view = .ok { lastPurgedLogId := use.log.purged, lastLogId := use.log.last }
  vote : readVote use.store.view = .ok use.log.vote
  committed : readCommitted use.store.view = .ok use.log.committed
  monotone : ∀ later, Relation.ReflTransGen (LogStep shard) use later → ∀ vote, use.log.vote = some vote →
    ∃ vote', readVote later.store.view = .ok (some vote') ∧ vote'.regresses vote = false

/-- In every run, a log store shows its log just when each of its entries is read back from its JSON as it
was written. -/
theorem log_store_faithful_iff (back : ReadsBackIds shard) (run : LogRun shard use) :
    use.Faithful shard ↔ ∀ entry ∈ use.log.entries, fromSlice (toVec entry) = .ok entry := by
  obtain ⟨stored, pending, operations, records, keeps⟩ := refines_run back run
  have view := VyrmRaftLogStore.view_eq records
  constructor
  · intro faithful entry member
    have all := faithful.entries .full
    rw [view, keeps.tryGetLogEntries_iff] at all
    exact all entry member rfl
  · intro readable
    refine ⟨fun range => ?_, ?_, ?_, ?_, fun later steps vote cast => ?_⟩
    · rw [view, keeps.tryGetLogEntries_iff]
      exact fun entry member _ => readable entry member
    · rw [view]
      exact keeps.getLogState back readable
    · rw [view]
      exact keeps.readVote back
    · rw [view]
      exact keeps.readCommitted back
    · obtain ⟨run', vote', cast', kept⟩ := vote_steps back run steps cast
      obtain ⟨_, _, _, records', keeps'⟩ := refines_run back run'
      refine ⟨vote', ?_, kept⟩
      rw [VyrmRaftLogStore.view_eq records', ← cast']
      exact keeps'.readVote back

end

/-! ## Logs that were played -/

/-- Plays calls, as long as every one of them returns `Ok`. -/
def playCalls : List LogCall → LogUse → Option LogUse
  | [], use => some use
  | logCall :: rest, use =>
    match use.store.call logCall (use.world noFaults 0) with
    | .ok (.ok (), store) w => playCalls rest ⟨w.files, w.process, store, use.log.after logCall⟩
    | _ => none

/-- Plays calls on a new log store. -/
def playLog (shard : ShardId) (calls : List LogCall) : Option LogUse :=
  match VyrmRaftLogStore.open shard ⟨∅, Kv.Process.start 7, noFaults, 0⟩ with
  | .ok (.ok (), store) w => playCalls calls ⟨w.files, w.process, store, .empty⟩
  | _ => none

omit [Kv.Platform] [RaftCodec] [LogCodec] in
/-- Calls that a log allows one after the other. -/
def LogReference.AllowsAll : LogReference → List LogCall → Prop
  | _, [] => True
  | log, logCall :: rest => log.Allows logCall ∧ AllowsAll (log.after logCall) rest

theorem run_of_playCalls {shard : ShardId} {calls : List LogCall} {use last : LogUse} (run : LogRun shard use)
    (allows : use.log.AllowsAll calls) (played : playCalls calls use = some last) :
    LogRun shard last ∧ last.log = calls.foldl LogReference.after use.log := by
  induction calls generalizing use with
  | nil =>
    cases played
    exact ⟨run, rfl⟩
  | cons logCall rest ih =>
    obtain ⟨allowed, later⟩ := allows
    rw [playCalls] at played
    split at played
    · next store w ran => exact ih (run.step (.called allowed ran)) later played
    · cases played

theorem exists_run_of_playLog {shard : ShardId} {calls : List LogCall}
    (allows : LogReference.empty.AllowsAll calls) (plays : (playLog shard calls).isSome = true) :
    ∃ use, LogRun shard use ∧ use.log = calls.foldl LogReference.after .empty := by
  obtain ⟨last, played⟩ := Option.isSome_iff_exists.mp plays
  rw [playLog] at played
  split at played
  · next store w ran => exact ⟨last, run_of_playCalls (.opened (AList.notMem_empty _) ran) allows played⟩
  · cases played

end Vyrm.Cluster

namespace Vyrm.Cluster
open Lib Lib.FaultFs Vyrm.Core Vyrm.Store Serde Kv.Reference

/-! ## JSON of what OpenRaft passes -/

def leaderFormat : Format (Nat × Nat) := .braced (label "term") (before .nat "node_id" .nat)

def logIdFormat : Format LogId :=
  (Format.braced (label "leader_id") (before leaderFormat "index" .nat)).iso
    (fun ((term, nodeId), index) => ⟨.ofNat term, .ofNat nodeId, .ofNat index⟩)
    (fun logId => ((logId.term.toNat, logId.nodeId.toNat), logId.index.toNat))
    (fun logId => by simp)

def voteFormat : Format Vote :=
  (Format.braced (label "leader_id") (before leaderFormat "committed" .bool)).iso
    (fun ((term, nodeId), committed) => ⟨.ofNat term, .ofNat nodeId, committed⟩)
    (fun vote => ((vote.term.toNat, vote.nodeId.toNat), vote.committed))
    (fun vote => by simp)

/-- A value as a format has it. -/
@[reducible] def jsonSerde {α : Type} (format : Format α) : Serde α where
  toVec := format.print
  fromSlice bytes :=
    match format.parseAll bytes with
    | some a => .ok a
    | none => .error "expected value at line 1 column 1"

theorem fromSlice_jsonSerde {α : Type} (format : Format α) (a : α) :
    (jsonSerde format).fromSlice ((jsonSerde format).toVec a) = .ok a := by
  show (match format.parseAll (format.print a) with
    | some a => _
    | none => _) = _
  rw [format.parseAll_print]

@[reducible] def jsonLogCodec : LogCodec where
  vote := jsonSerde voteFormat
  logId := jsonSerde logIdFormat
  committed := jsonSerde (logIdFormat.nullable (fun _ => by rintro ⟨⟩))

/-! ## Entries of the shard of three nodes -/

/-- The JSON of a commit of claims. -/
def plainClaimCommit (commit : RuntimeCommit) : String :=
  object [member "scope" (quoted commit.scope.asStr), member "at" (toString commit.at_),
    member "actor" (quoted commit.actor), member "expected_cursor" (toString commit.expectedCursor),
    member "mutations" (array (commit.mutations.map fun
      | .claim claim => object [member "mutation" (quoted "claim"), member "claim" (plainClaim claim)]
      | _ => ""))]

/-- An encoding that reads some entries back. -/
@[reducible] def entryCodec (entries : List VyrmRaftEntry) : RaftCodec :=
  { plainRaftCodec plainClaimCommit entries [] seven with config := .ofTexts plainConfig [localConfig seven] }

def blankEntry (index : UInt64) : VyrmRaftEntry := ⟨⟨1, 1, index⟩, .blank⟩

/-- What a sensor says about a door, and how sure it is. -/
def sureCommand (confidence : Option F32) : VyrmRaftCommand :=
  { requestId := "r1", shard := seven, placementEpoch := 1, expectedCommitIndex := none
    operation := .runtimeCommit
      { scope := .lit "house" (Eq.refl true), at_ := 5, actor := "sensor", expectedCursor := 0
        mutations := [.claim (sureDoor confidence)] } }

def sureEntry (confidence : Option F32) : VyrmRaftEntry := ⟨⟨1, 1, 1⟩, .normal (sureCommand confidence)⟩

theorem readsBackIds (entries : List VyrmRaftEntry) :
    @ReadsBackIds (entryCodec entries) jsonLogCodec seven := by
  have config : (Serde.ofTexts plainConfig [localConfig seven]).fromSlice
      ((Serde.ofTexts plainConfig [localConfig seven]).toVec (localConfig seven)) = .ok (localConfig seven) := by
    decide +kernel
  let _ := entryCodec entries
  let _ := jsonLogCodec
  exact ⟨fromSlice_jsonSerde _, fromSlice_jsonSerde _, fromSlice_jsonSerde _, config⟩

/-! ## Logs of one entry -/

/-- A vote, two entries of which the second is cut off again, and a committed id. -/
def blankCalls : List LogCall :=
  [.saveVote ⟨1, 1, true⟩, .append [blankEntry 1, blankEntry 2], .truncate ⟨1, 1, 2⟩, .saveCommitted (some ⟨1, 1, 1⟩)]

theorem log_store_faithful_iff_blank : ∃ use, @LogRun Kv.Reference.platform (entryCodec [blankEntry 1]) jsonLogCodec seven use ∧
    use.log.entries = [blankEntry 1] ∧
    @LogUse.Faithful Kv.Reference.platform (entryCodec [blankEntry 1]) jsonLogCodec seven use := by
  let _ := entryCodec [blankEntry 1]
  let _ := jsonLogCodec
  have allows : LogReference.empty.AllowsAll blankCalls := by
    refine ⟨trivial, ⟨nofun, ?_, trivial⟩, trivial, trivial, trivial⟩
    rintro logId ⟨⟩
    rfl
  have plays : (playLog seven blankCalls).isSome = true := by decide +kernel
  obtain ⟨use, run, log⟩ := exists_run_of_playLog allows plays
  have entries : use.log.entries = [blankEntry 1] := by
    rw [log]
    rfl
  refine ⟨use, run, entries, (log_store_faithful_iff (readsBackIds _) run).mpr ?_⟩
  rw [entries]
  decide +kernel

/-- The entry of a valid command, of a claim with an infinite confidence, comes back without one. -/
theorem log_store_loses_infinite :
    @VyrmRaftCommand.validate (entryCodec [sureEntry none]) (sureCommand (some infinite)) = .ok () ∧
    ∃ use, @LogRun Kv.Reference.platform (entryCodec [sureEntry none]) jsonLogCodec seven use ∧
      use.log.entries = [sureEntry (some infinite)] ∧
      @tryGetLogEntries (entryCodec [sureEntry none]) use.store.view .full = .ok [sureEntry none] ∧
      ¬ @LogUse.Faithful Kv.Reference.platform (entryCodec [sureEntry none]) jsonLogCodec seven use := by
  let _ := entryCodec [sureEntry none]
  let _ := jsonLogCodec
  have allows : LogReference.empty.AllowsAll [.append [sureEntry (some infinite)]] := ⟨⟨nofun, trivial⟩, trivial⟩
  have plays : (playLog seven [.append [sureEntry (some infinite)]]).isSome = true := by decide +kernel
  obtain ⟨use, run, log⟩ := exists_run_of_playLog allows plays
  have entries : use.log.entries = [sureEntry (some infinite)] := by
    rw [log]
    rfl
  have reread : fromSlice (toVec (sureEntry (some infinite))) = .ok (sureEntry none) := by decide +kernel
  obtain ⟨_, _, operations, records, keeps⟩ := refines_run (readsBackIds _) run
  have read : tryGetLogEntries use.store.view .full = .ok [sureEntry none] := by
    rw [VyrmRaftLogStore.view_eq records, tryGetLogEntries, scanLog_of_graph keeps.entries, entries]
    simp [entriesOfRows, logRow, decodeLogKey_logKey, decodeJson, reread, IndexRange.contains, IndexRange.full]
  refine ⟨by decide +kernel, use, run, entries, read, fun faithful => ?_⟩
  have shown := faithful.entries .full
  rw [read, LogReference.entriesIn, entries] at shown
  have same : sureEntry none = sureEntry (some infinite) := by simpa [IndexRange.contains, IndexRange.full] using shown
  exact absurd same (by decide)

end Vyrm.Cluster
