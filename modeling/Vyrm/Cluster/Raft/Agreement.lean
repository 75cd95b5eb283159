import Vyrm.Cluster.Raft.Run

/-!
# Replicas agree

Snapshots of the state database, and replicas that apply the entries of one log in any portions, reopen
their database in between, and take over each other's snapshots.
-/

namespace Vyrm.Cluster
open Lib Vyrm.Core Vyrm.Store Serde

/-! ## Snapshots -/

/-- `SnapshotMeta`. -/
structure SnapshotMeta where
  lastLogId : Option LogId
  lastMembership : StoredMembership
  snapshotId : String
  deriving DecidableEq

/-- A bundle: the rows of its segments, the sequence and the segments of its manifest, and its digest. -/
structure Bundle where
  rows : Rows
  sequence : Nat
  segments : List String
  digest : String

/-- `export_snapshot_file`. The flush before it names the segments, which hold all rows then. -/
def Canonical.exportSnapshotFile (db : Canonical) (segments : List String) (digest : String) : Bundle :=
  ⟨db.rows, db.sequence, segments, digest⟩

/-- `install_snapshot_file`, into a database whose manifest names `segments`. -/
def Canonical.installSnapshotFile (db : Canonical) (segments : List String) (bundle : Bundle) :
    Except Kv.Error Canonical :=
  let source := bundle.sequence
  let current := db.sequence
  if source = current ∧ segments = bundle.segments then .ok db
  else if source ≤ current then
    .error (.invalidManifest s!"snapshot sequence {source} does not advance local sequence {current}")
  else if source = Kv.u64Max then .error (.invalidManifest "snapshot sequence overflowed")
  else .ok ⟨bundle.rows, source⟩

/-- `expected_snapshot_file_id` (`openraft_adapter.rs:1065-1071`). -/
def expectedSnapshotFileId (state : StateMachineData) (bundle : Bundle) : String :=
  let index := state.currentIndex
  s!"v4-{index}-{bundle.digest}"

section

variable [RaftCodec]

/-- `build_snapshot` (`openraft_adapter.rs:768-813`), without the publication of the file. -/
def buildSnapshot (db : Canonical) (segments : List String) (digest : String) :
    Except RaftError (SnapshotMeta × Bundle) := do
  let state ← db.readState
  let bundle := db.exportSnapshotFile segments digest
  return (⟨state.lastApplied, state.lastMembership, expectedSnapshotFileId state bundle⟩, bundle)

/-- `state_from_snapshot_file` (`openraft_adapter.rs:1019-1063`). -/
def stateFromSnapshotFile (bundle : Bundle) (shard : ShardId) : Except RaftError StateMachineData :=
  match bundle.rows[keyStateConfig]? with
  | none => .error (.adapter "snapshot bundle has no canonical-state adapter config")
  | some configBytes =>
    match fromSlice configBytes with
    | .error message => .error (.codec message)
    | .ok config =>
      if config ≠ stateConfig shard then
        .error (.adapter "snapshot bundle adapter format, shard, or storage domain does not match")
      else if bundle.rows[keyLocalConfig]?.isSome then
        .error (.adapter "snapshot bundle illegally contains node-local Raft configuration")
      else
        match bundle.rows[keyState]? with
        | none => .error (.adapter "snapshot bundle has no state-machine record")
        | some stateBytes =>
          match fromSlice stateBytes with
          | .error message => .error (.codec message)
          | .ok state => .ok state

/-- `install_snapshot` (`openraft_adapter.rs:925-967`), without the publication of the file. -/
def installSnapshot (shard : ShardId) (db : Canonical) (segments : List String) (meta_ : SnapshotMeta)
    (bundle : Bundle) : Except RaftError Canonical := do
  let state ← stateFromSnapshotFile bundle shard
  if state.lastApplied ≠ meta_.lastLogId ∨ state.lastMembership ≠ meta_.lastMembership then
    throw (.adapter "snapshot metadata does not match its state bytes")
  if meta_.snapshotId ≠ expectedSnapshotFileId state bundle then
    throw (.adapter "snapshot id does not bind the exact VyrmKV bundle")
  match db.installSnapshotFile segments bundle with
  | .error e => throw (.batch e)
  | .ok db => return db

/-- `ensure_adapter_database` of the state database (`openraft_adapter.rs:580-625`): what is there is
checked, and a new database gets its configuration and its first state. -/
def openStore (shard : ShardId) (db : Canonical) : Except RaftError Canonical :=
  match db.rows[keyStateConfig]? with
  | some bytes =>
    match fromSlice bytes with
    | .error message => .error (.cluster (.denied message))
    | .ok (actual : AdapterConfig) =>
      if actual ≠ stateConfig shard then
        .error (.cluster (.denied "raft adapter format, shard binding, or storage domain does not match"))
      else if db.rows[keyState]? = none then
        .error (.cluster (.denied "canonical Raft state database has no state-machine record"))
      else .ok db
  | none =>
    if db.sequence ≠ 0 then
      .error (.cluster (.denied "existing database is not a Vyrm OpenRaft v4 storage domain"))
    else
      match db.write [.put keyStateConfig (toVec (stateConfig shard)), .put keyState (toVec StateMachineData.initial)] with
      | .error e => .error (.batch e)
      | .ok db => .ok db

end

/-! ## Replicas -/

section

variable [RaftCodec] [Store.Codec] (shard : ShardId)

/-- A replica: the entries its state stands for, its answers to them, as far as it applied them itself,
and its database. -/
inductive Replica : List VyrmRaftEntry → List (Option VyrmRaftResponse) → Canonical → Prop where
  | opened {db : Canonical} (opened : openStore shard ⟨∅, 0⟩ = .ok db) : Replica [] [] db
  | applied {entries chunk : List VyrmRaftEntry} {answers : List (Option VyrmRaftResponse)}
      {responses : List VyrmRaftResponse} {db after : Canonical} (before : Replica entries answers db)
      (applied : apply shard db chunk = (.ok responses, after)) :
      Replica (entries ++ chunk) (answers ++ responses.map some) after
  | reopened {entries : List VyrmRaftEntry} {answers : List (Option VyrmRaftResponse)} {db after : Canonical}
      (before : Replica entries answers db) (opened : openStore shard db = .ok after) :
      Replica entries answers after
  | installed {entries more : List VyrmRaftEntry} {answers others : List (Option VyrmRaftResponse)}
      {db source after : Canonical} {segments here : List String} {digest : String} {meta_ : SnapshotMeta}
      {bundle : Bundle} (before : Replica entries answers db) (other : Replica (entries ++ more) others source)
      (built : buildSnapshot source segments digest = .ok (meta_, bundle))
      (installed : installSnapshot shard db here meta_ bundle = .ok after) :
      Replica (entries ++ more) (answers ++ List.replicate more.length none) after

end

/-! ## Replay -/

section

variable [RaftCodec] [Store.Codec] {shard : ShardId} {db after last : Canonical}
  {state next final : StateMachineData} {entries more : List VyrmRaftEntry}
  {responses later : List VyrmRaftResponse}

/-- The entries one after the other. -/
def replay (shard : ShardId) (db : Canonical) (state : StateMachineData) :
    List VyrmRaftEntry → Except RaftError (List VyrmRaftResponse × StateMachineData × Canonical)
  | [] => .ok ([], state, db)
  | entry :: rest => do
    let (response, next, after) ← applyEntry shard db state entry
    let (responses, final, last) ← replay shard after next rest
    return (response :: responses, final, last)

theorem replay_cons_ok {entry : VyrmRaftEntry} :
    replay shard db state (entry :: entries) = .ok (responses, final, last) ↔
      ∃ response next after later, applyEntry shard db state entry = .ok (response, next, after) ∧
        replay shard after next entries = .ok (later, final, last) ∧ responses = response :: later := by
  constructor
  · intro done
    obtain ⟨⟨response, next, after⟩, turn, done⟩ := except_bind_ok.mp done
    obtain ⟨⟨later, final', last'⟩, rest, done⟩ := except_bind_ok.mp done
    cases done
    exact ⟨response, next, after, later, turn, rest, rfl⟩
  · rintro ⟨response, next, after, later, turn, rest, rfl⟩
    unfold replay
    rw [turn, except_ok_bind]
    simp only [rest, except_ok_bind]
    rfl

/-- The loop of `apply` replays its entries. -/
theorem replay_of_applyEntries (done : applyEntries shard db state entries = (.ok responses, after)) :
    ∃ final, replay shard db state entries = .ok (responses, final, after) := by
  induction entries generalizing db state responses with
  | nil =>
    cases done
    exact ⟨state, rfl⟩
  | cons entry rest ih =>
    unfold applyEntries at done
    cases turn : applyEntry shard db state entry with
    | error e =>
      rw [turn] at done
      cases done
    | ok turned =>
      obtain ⟨response, next, db'⟩ := turned
      cases rested : applyEntries shard db' next rest with
      | mk result last =>
        simp only [turn, rested] at done
        cases result with
        | error e => cases done
        | ok responses' =>
          cases done
          obtain ⟨final, replayed⟩ := ih rested
          exact ⟨final, replay_cons_ok.mpr ⟨response, next, db', responses', turn, replayed, rfl⟩⟩

theorem replay_append (first : replay shard db state entries = .ok (responses, next, after))
    (second : replay shard after next more = .ok (later, final, last)) :
    replay shard db state (entries ++ more) = .ok (responses ++ later, final, last) := by
  induction entries generalizing db state responses with
  | nil =>
    cases first
    exact second
  | cons entry rest ih =>
    obtain ⟨response, next', after', responses', turn, rested, rfl⟩ := replay_cons_ok.mp first
    exact replay_cons_ok.mpr ⟨response, next', after', _, turn, ih rested, rfl⟩

theorem replay_split (done : replay shard db state (entries ++ more) = .ok (responses, final, last)) :
    ∃ earlier later next after, replay shard db state entries = .ok (earlier, next, after) ∧
      replay shard after next more = .ok (later, final, last) ∧ responses = earlier ++ later := by
  induction entries generalizing db state responses with
  | nil => exact ⟨[], responses, state, db, rfl, done, rfl⟩
  | cons entry rest ih =>
    obtain ⟨response, next', after', responses', turn, rested, rfl⟩ := replay_cons_ok.mp done
    obtain ⟨earlier, later, next, after, first, second, rfl⟩ := ih rested
    exact ⟨response :: earlier, later, next, after,
      replay_cons_ok.mpr ⟨response, next', after', earlier, turn, first, rfl⟩, second, rfl⟩

/-- The record of the state machine is its state. -/
def Records (db : Canonical) (state : StateMachineData) : Prop := db.rows[keyState]? = some (toVec state)

theorem records_of_applyEntry {entry : VyrmRaftEntry} {response : VyrmRaftResponse}
    (turn : applyEntry shard db state entry = .ok (response, next, after)) :
    Records after next ∧ db.sequence < after.sequence := by
  obtain ⟨⟨changed, answered, operations⟩, -, turn⟩ := except_bind_ok.mp turn
  cases written : db.write (operations ++ [.put keyState (toVec (changed.settled entry.logId))]) with
  | error e =>
    simp only [written] at turn
    cases turn
  | ok db' =>
    simp only [written] at turn
    cases turn
    obtain ⟨rows, sequence⟩ := write_ok written
    refine ⟨?_, ?_⟩
    · rw [Records, rows, List.foldl_append, List.foldl_cons, List.foldl_nil, Rows.getElem?_apply, Kv.Mutation.key,
        if_pos rfl]
      rfl
    · rw [sequence, List.length_append, List.length_singleton]
      omega

theorem records_of_replay (records : Records db state)
    (done : replay shard db state entries = .ok (responses, final, last)) : Records last final := by
  induction entries generalizing db state responses with
  | nil =>
    cases done
    exact records
  | cons entry rest ih =>
    obtain ⟨response, next, after, later, turn, rested, rfl⟩ := replay_cons_ok.mp done
    exact ih (records_of_applyEntry turn).1 rested

/-- Every entry takes at least one sequence. -/
theorem sequence_of_replay (done : replay shard db state entries = .ok (responses, final, last)) :
    db.sequence + entries.length ≤ last.sequence := by
  induction entries generalizing db state responses with
  | nil =>
    cases done
    exact Nat.le_refl _
  | cons entry rest ih =>
    obtain ⟨response, next, after, later, turn, rested, rfl⟩ := replay_cons_ok.mp done
    have grows := (records_of_applyEntry turn).2
    have rest := ih rested
    rw [List.length_cons]
    omega

theorem lastApplied_of_replay (done : replay shard db state entries = .ok (responses, final, last)) :
    final.lastApplied = (entries.getLast?.map (·.logId)).or state.lastApplied := by
  induction entries generalizing db state responses with
  | nil =>
    cases done
    rfl
  | cons entry rest ih =>
    obtain ⟨response, next, after, later, turn, rested, rfl⟩ := replay_cons_ok.mp done
    rw [ih rested, lastApplied_of_applyEntry turn, List.getLast?_cons]
    cases rest.getLast? <;> rfl

theorem length_of_replay (done : replay shard db state entries = .ok (responses, final, last)) :
    responses.length = entries.length := by
  induction entries generalizing db state responses with
  | nil =>
    cases done
    rfl
  | cons entry rest ih =>
    obtain ⟨response, next, after, later, turn, rested, rfl⟩ := replay_cons_ok.mp done
    rw [List.length_cons, List.length_cons, ih rested]

/-! ## Every replica replays its entries -/

/-- What `open` makes of a new database. -/
theorem create_of_openStore (opened : openStore shard ⟨∅, 0⟩ = .ok db) : db = .create shard := by
  have none_ : (⟨∅, 0⟩ : Canonical).rows[keyStateConfig]? = none := Std.ExtTreeMap.getElem?_empty
  unfold openStore at opened
  rw [none_] at opened
  simp only [ne_eq, not_true_eq_false, if_false] at opened
  cases written : Canonical.write ⟨∅, 0⟩
      [.put keyStateConfig (toVec (stateConfig shard)), .put keyState (toVec StateMachineData.initial)] with
  | error e =>
    rw [written] at opened
    cases opened
  | ok db' =>
    rw [written] at opened
    cases opened
    obtain ⟨rows, sequence⟩ := write_ok written
    cases db
    exact congrArg₂ Canonical.mk rows sequence

/-- What is there is left as it is. -/
theorem eq_of_openStore (used : db.sequence ≠ 0) (opened : openStore shard db = .ok after) : after = db := by
  unfold openStore at opened
  cases row : db.rows[keyStateConfig]? with
  | none =>
    rw [row] at opened
    simp only [if_pos used] at opened
    cases opened
  | some bytes =>
    rw [row] at opened
    simp only at opened
    cases read : (fromSlice bytes : Except String AdapterConfig) with
    | error message =>
      rw [read] at opened
      cases opened
    | ok actual =>
      rw [read] at opened
      obtain ⟨-, opened⟩ := except_reject_ok.mp opened
      obtain ⟨-, opened⟩ := except_reject_ok.mp opened
      cases opened
      rfl

omit [Store.Codec] in
theorem records_create (shard : ShardId) : Records (.create shard) .initial := by
  unfold Records Canonical.create Rows.ofHistory
  rw [List.foldl_cons, List.foldl_cons, List.foldl_nil, Rows.getElem?_apply, Kv.Mutation.key, if_pos rfl]
  rfl

/-- The states that a replay of a log passes through are read back as they were written. -/
def ReadsBack (shard : ShardId) (log : List VyrmRaftEntry) : Prop :=
  ∀ entries, entries <+: log → ∀ responses state db,
    replay shard (.create shard) .initial entries = .ok (responses, state, db) →
      fromSlice (toVec state) = .ok state

omit [Store.Codec] in
theorem readState_of_records (records : Records db state) (readsBack : fromSlice (toVec state) = .ok state) :
    db.readState = .ok state := by
  unfold Canonical.readState
  rw [show db.rows[keyState]? = _ from records]
  simp only [readsBack]

theorem installSnapshotFile_ok {segments : List String} {bundle : Bundle}
    (installed : db.installSnapshotFile segments bundle = .ok after) :
    after = ⟨bundle.rows, bundle.sequence⟩ ∨ (after = db ∧ db.sequence = bundle.sequence) := by
  unfold Canonical.installSnapshotFile at installed
  dsimp only at installed
  split at installed
  · rename_i same
    cases installed
    exact .inr ⟨rfl, same.1.symm⟩
  · obtain ⟨-, installed⟩ := except_reject_ok.mp installed
    obtain ⟨-, installed⟩ := except_reject_ok.mp installed
    cases installed
    exact .inl rfl

/-- What a replica installs is the snapshot, or what it has already. -/
theorem installSnapshot_ok {source : Canonical} {segments here : List String} {digest : String}
    {meta_ : SnapshotMeta} {bundle : Bundle} (built : buildSnapshot source segments digest = .ok (meta_, bundle))
    (installed : installSnapshot shard db here meta_ bundle = .ok after) :
    after = source ∨ (after = db ∧ db.sequence = source.sequence) := by
  obtain ⟨state, -, built⟩ := except_bind_ok.mp built
  cases built
  obtain ⟨read, -, installed⟩ := except_bind_ok.mp installed
  obtain ⟨-, installed⟩ := except_reject_ok.mp installed
  obtain ⟨-, installed⟩ := except_reject_ok.mp installed
  cases taken : db.installSnapshotFile here (source.exportSnapshotFile segments digest) with
  | error e =>
    rw [taken] at installed
    cases installed
  | ok db' =>
    rw [taken] at installed
    cases installed
    rcases installSnapshotFile_ok taken with rfl | ⟨rfl, same⟩
    · exact .inl rfl
    · exact .inr ⟨rfl, same⟩

variable {log : List VyrmRaftEntry} {answers : List (Option VyrmRaftResponse)}

theorem answers_append {answers : List (Option VyrmRaftResponse)} {earlier more : List VyrmRaftResponse}
    (length : answers.length = earlier.length)
    (agree : ∀ (i : Nat) response, answers[i]? = some (some response) → earlier[i]? = some response) :
    ∀ (i : Nat) response, (answers ++ more.map some)[i]? = some (some response) →
      (earlier ++ more)[i]? = some response := by
  intro i response found
  rcases Nat.lt_or_ge i answers.length with here | there
  · rw [List.getElem?_append_left here] at found
    rw [List.getElem?_append_left (length ▸ here)]
    exact agree i response found
  · rw [List.getElem?_append_right there, List.getElem?_map, Option.map_eq_some_iff] at found
    obtain ⟨answer, found, same⟩ := found
    cases same
    rw [List.getElem?_append_right (length ▸ there), ← length]
    exact found

/-- A replica holds what a replay of its entries leaves, and answered as the replay does. -/
theorem Replica.replayed (readsBack : ReadsBack shard log) (replica : Replica shard entries answers db)
    (committed : entries <+: log) :
    ∃ responses state, replay shard (.create shard) .initial entries = .ok (responses, state, db) ∧
      answers.length = entries.length ∧ ∀ (i : Nat) response, answers[i]? = some (some response) →
        responses[i]? = some response := by
  induction replica with
  | opened opened =>
    refine ⟨[], .initial, by rw [create_of_openStore opened]; rfl, rfl, fun i response found => ?_⟩
    rw [List.getElem?_nil] at found
    cases found
  | @applied entries chunk answers responses db after before applied ih =>
    obtain ⟨earlier, state, done, length, agree⟩ := ih ((List.prefix_append _ _).trans committed)
    have records := records_of_replay (records_create shard) done
    have read := readState_of_records records (readsBack _ ((List.prefix_append _ _).trans committed) _ _ _ done)
    unfold Cluster.apply at applied
    rw [read] at applied
    obtain ⟨final, more⟩ := replay_of_applyEntries applied
    refine ⟨earlier ++ responses, final, replay_append done more, ?_, ?_⟩
    · rw [List.length_append, List.length_append, List.length_map, length, length_of_replay more]
    · exact answers_append (length.trans (length_of_replay done).symm) agree
  | @reopened entries answers db after before opened ih =>
    obtain ⟨responses, state, done, rest⟩ := ih committed
    have used := sequence_of_replay done
    rw [eq_of_openStore (fun zero => by rw [zero] at used; simp [Canonical.create] at used) opened]
    exact ⟨responses, state, done, rest⟩
  | @installed entries more answers others db source after segments here digest meta_ bundle before other built installed
      ih ihOther =>
    obtain ⟨earlier, state, done, length, agree⟩ := ih ((List.prefix_append _ _).trans committed)
    obtain ⟨responses, final, done', -, -⟩ := ihOther committed
    obtain ⟨earlier', later, state', db', first, second, rfl⟩ := replay_split done'
    cases done.symm.trans first
    have sameDb : after = source := by
      rcases installSnapshot_ok built installed with taken | ⟨kept, sequences⟩
      · exact taken
      · have grown := sequence_of_replay second
        have none_ : more = [] := List.length_eq_zero_iff.mp (by omega)
        subst none_
        cases second
        exact kept
    rw [sameDb]
    refine ⟨_, final, done', ?_, ?_⟩
    · rw [List.length_append, List.length_append, List.length_replicate, length]
    · intro i response found
      rcases Nat.lt_or_ge i answers.length with here | there
      · rw [List.getElem?_append_left here] at found
        have inside := agree i response found
        rw [List.getElem?_append_left (List.getElem?_eq_some_iff.mp inside).1]
        exact inside
      · rw [List.getElem?_append_right there, List.getElem?_replicate] at found
        split at found <;> cases found

/-! ## Agreement -/

omit [RaftCodec] [Store.Codec] in
theorem pairwise_of_follows {previous : Option LogId} (follows : Follows previous log) :
    (∀ applied ∈ previous, ∀ entry ∈ log, applied.index < entry.logId.index) ∧
      log.Pairwise fun entry later => entry.logId.index < later.logId.index := by
  induction log generalizing previous with
  | nil => exact ⟨fun _ _ _ listed => absurd listed List.not_mem_nil, .nil⟩
  | cons entry rest ih =>
    obtain ⟨above, follows⟩ := follows
    obtain ⟨later, increasing⟩ := ih follows
    refine ⟨?_, List.pairwise_cons.mpr ⟨fun other listed => later _ rfl other listed, increasing⟩⟩
    intro applied isApplied other listed
    rcases List.mem_cons.mp listed with rfl | listed
    · exact above applied isApplied
    · exact UInt64.lt_trans (above applied isApplied) (later _ rfl other listed)

omit [RaftCodec] [Store.Codec] in
/-- A beginning of a log is known by its last entry. -/
theorem eq_of_last_of_shorter {first second : List VyrmRaftEntry} (follows : Follows none log)
    (committed : second <+: log) (shorter : first <+: second)
    (same : first.getLast?.map (·.logId) = second.getLast?.map (·.logId)) : first = second := by
  obtain ⟨rest, rfl⟩ := shorter
  obtain ⟨tail, rfl⟩ := committed
  rcases rest.eq_nil_or_concat' with rfl | ⟨middle, last, rfl⟩
  · exact (List.append_nil first).symm
  · obtain ⟨-, increasing⟩ := pairwise_of_follows follows
    rw [← List.append_assoc, List.getLast?_concat] at same
    obtain ⟨own, isLast, ids⟩ := Option.map_eq_some_iff.mp same
    have listed : own ∈ first := List.mem_of_getLast? isLast
    rw [List.append_assoc] at increasing
    obtain ⟨-, -, across⟩ := List.pairwise_append.mp increasing
    have below := across own listed last (by simp)
    rw [ids] at below
    exact absurd below (UInt64.lt_irrefl _)

omit [RaftCodec] [Store.Codec] in
theorem eq_of_last {first second : List VyrmRaftEntry} (follows : Follows none log)
    (committed : first <+: log) (committed' : second <+: log)
    (same : first.getLast?.map (·.logId) = second.getLast?.map (·.logId)) : first = second := by
  rcases List.prefix_or_prefix_of_prefix committed committed' with shorter | longer
  · exact eq_of_last_of_shorter follows committed' shorter same
  · exact (eq_of_last_of_shorter follows committed longer same.symm).symm

/-- Replicas of a committed log that have applied as much of it have the same state, the same rows and the
same sequence, whatever portions they applied it in, however often they reopened their databases, and
whichever beginnings they took over from each other; and they gave the same answers where both gave one. -/
theorem replicas_agree (readsBack : ReadsBack shard log) (increasing : Follows none log)
    {entries' : List VyrmRaftEntry} {answers' : List (Option VyrmRaftResponse)} {db' : Canonical}
    (replica : Replica shard entries answers db) (other : Replica shard entries' answers' db')
    (committed : entries <+: log) (committed' : entries' <+: log)
    (same : db.readState.map (·.lastApplied) = db'.readState.map (·.lastApplied)) :
    (∃ state, db.readState = .ok state ∧ db'.readState = .ok state) ∧
      (∀ key : Bytes, db.rows[key]? = db'.rows[key]?) ∧ db.sequence = db'.sequence ∧
      ∀ (i : Nat) response response', answers[i]? = some (some response) → answers'[i]? = some (some response') →
        response = response' := by
  obtain ⟨responses, state, done, -, agree⟩ := replica.replayed readsBack committed
  obtain ⟨responses', state', done', -, agree'⟩ := other.replayed readsBack committed'
  have read := readState_of_records (records_of_replay (records_create shard) done) (readsBack _ committed _ _ _ done)
  have read' := readState_of_records (records_of_replay (records_create shard) done')
    (readsBack _ committed' _ _ _ done')
  rw [read, read'] at same
  have last : state.lastApplied = state'.lastApplied := Except.ok.inj same
  rw [lastApplied_of_replay done, lastApplied_of_replay done'] at last
  have equal : entries = entries' := by
    refine eq_of_last increasing committed committed' ?_
    rw [StateMachineData.initial, Option.or_none, Option.or_none] at last
    exact last
  subst equal
  cases done.symm.trans done'
  refine ⟨⟨state, read, read'⟩, fun _ => rfl, rfl, fun i response response' found found' => ?_⟩
  exact Option.some.inj ((agree i response found).symm.trans (agree' i response' found'))

end

/-! ## Two replicas of the shard of three nodes -/

def membershipEntry : VyrmRaftEntry := ⟨⟨1, 1, 1⟩, .membership threeNodes⟩

/-- The state after the membership. -/
def withThreeNodes : StateMachineData :=
  { StateMachineData.initial with
    lastMembership := ⟨some ⟨1, 1, 1⟩, threeNodes⟩, voterMembershipGeneration := 1 }.settled ⟨1, 1, 1⟩

@[reducible] def twoStatesCodec : RaftCodec :=
  plainRaftCodec (fun _ => "") [] [.initial, withThreeNodes] seven

theorem readsBack_membership : @ReadsBack twoStatesCodec bareCodec seven [membershipEntry] := by
  let _ := twoStatesCodec
  let _ := bareCodec
  intro entries committed responses state db done
  rcases entries with _ | ⟨entry, rest⟩
  · cases done
    decide +kernel
  · obtain ⟨tail, whole⟩ := committed
    obtain ⟨rfl, ends⟩ := List.cons.inj whole
    obtain ⟨rfl, -⟩ := List.append_eq_nil_iff.mp ends
    have isState : (replay seven (.create seven) .initial [membershipEntry]).toOption.map (·.2.1) =
        some withThreeNodes := by decide +kernel
    rw [done] at isState
    cases Option.some.inj isState
    decide +kernel

/-- One replica applies the membership, the other takes over its snapshot. -/
theorem replicas_agree_installed :
    ∃ answer db db', @Replica twoStatesCodec bareCodec seven [membershipEntry] [some answer] db ∧
      @Replica twoStatesCodec bareCodec seven [membershipEntry] [none] db' ∧ db.sequence = db'.sequence := by
  let _ := twoStatesCodec
  let _ := bareCodec
  have opens : (openStore seven ⟨∅, 0⟩).toOption.isSome = true := by decide +kernel
  cases opened : openStore seven ⟨∅, 0⟩ with
  | error e =>
    rw [opened] at opens
    cases opens
  | ok db =>
    cases create_of_openStore opened
    have applies : (apply seven (.create seven) [membershipEntry]).1.toOption.map List.length = some 1 := by
      decide +kernel
    have builds : ((buildSnapshot (apply seven (.create seven) [membershipEntry]).2 [] "").bind fun built =>
        installSnapshot seven (.create seven) [] built.1 built.2).toOption.isSome = true := by decide +kernel
    cases applied : apply seven (.create seven) [membershipEntry] with
    | mk result db' =>
      rw [applied] at applies builds
      cases result with
      | error e => cases applies
      | ok responses =>
        obtain ⟨answer, rfl⟩ := List.length_eq_one_iff.mp (Option.some.inj applies)
        cases built : buildSnapshot db' [] "" with
        | error e =>
          rw [built] at builds
          cases builds
        | ok pair =>
          obtain ⟨meta_, bundle⟩ := pair
          rw [built] at builds
          cases installed : installSnapshot seven (.create seven) [] meta_ bundle with
          | error e =>
            rw [show Except.bind (.ok (meta_, bundle)) _ = installSnapshot seven (.create seven) [] meta_ bundle from rfl,
              installed] at builds
            cases builds
          | ok after =>
            have first : Replica seven [membershipEntry] [some answer] db' := (Replica.opened opened).applied applied
            have second : Replica seven [membershipEntry] [none] after :=
              (Replica.opened opened).installed first built installed
            refine ⟨answer, db', after, first, second, ?_⟩
            refine (replicas_agree readsBack_membership ⟨nofun, trivial⟩ first second (List.prefix_refl _)
              (List.prefix_refl _) ?_).2.2.1
            obtain ⟨_, _, done, -⟩ := first.replayed readsBack_membership (List.prefix_refl _)
            obtain ⟨_, _, done', -⟩ := second.replayed readsBack_membership (List.prefix_refl _)
            cases done.symm.trans done'
            rfl

end Vyrm.Cluster
