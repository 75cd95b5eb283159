import Vyrm.Kv.Database.Scenario
import Vyrm.Kv.Reference

/-!
# The database as an ordered history

What the database is for, in one definition: `History.read` looks up the last
mutation of a key among the first `s` operations ever accepted. In a run of
successful writes, syncs, flushes and reopenings, where the answer to a read may
come from the memtable, from any segment or from a replayed log, `get` returns
what the history says.
-/

namespace Vyrm.Kv
open Lib Lib.FaultFs Mvcc

/-! ## Histories -/

/-- The value that the last of the first `s` operations on `key` has left. -/
def History.read (operations : List Mutation) (key : Bytes) (s : Nat) : Option Bytes :=
  (((operations.take s).filter fun m => m.key = key).getLast?).bind Mutation.value

/-- The operations that an event has added to the history. -/
def Event.accepted [Platform] : Event → List Mutation
  | .did op (.ok ()) => (op.batch.map (·.operations)).getD []
  | _ => []

/-- The history of a run: the operations of all accepted batches, in order. -/
def accepted [Platform] (trace : List Event) : List Mutation := trace.flatMap Event.accepted

theorem accepted_append [Platform] (trace : List Event) (event : Event) :
    accepted (trace ++ [event]) = accepted trace ++ event.accepted := by
  simp [accepted]

/-- The visible versions of a key among numbered operations are its operations up to the
snapshot. -/
theorem visible_numbered (first : Nat) (operations : List Mutation) (key : Bytes) (s : Nat) :
    ((versionsOf key (numbered first operations)).filter fun v => v.sequence ≤ s).map (·.value) =
      ((operations.take (s + 1 - first)).filter fun m => m.key = key).map (·.value) := by
  induction operations generalizing first with
  | nil => simp [numbered, versionsOf]
  | cons m rest ih =>
    have next := ih (first + 1)
    by_cases visible : first ≤ s
    · have more : s + 1 - first = (s + 1 - (first + 1)) + 1 := by omega
      rw [more, List.take_succ_cons]
      by_cases same : m.key = key
      · simp only [numbered, versionsOf, List.filter_cons, same, decide_true, if_true,
          List.map_cons, visible] at next ⊢
        rw [next]
      · simp only [numbered, versionsOf, List.filter_cons, same, decide_false, Bool.false_eq_true,
          if_false] at next ⊢
        exact next
    · have none_ : s + 1 - first = 0 := by omega
      have later : s + 1 - (first + 1) = 0 := by omega
      rw [later] at next
      rw [none_, List.take_zero]
      by_cases same : m.key = key
      · simp only [numbered, versionsOf, List.filter_cons, same, decide_true, if_true,
          List.map_cons, visible, decide_false, Bool.false_eq_true, if_false] at next ⊢
        exact next
      · simp only [numbered, versionsOf, List.filter_cons, same, decide_false, Bool.false_eq_true,
          if_false] at next ⊢
        exact next

/-- Reading a history is reading its numbered operations. -/
theorem valueAt_numbered (operations : List Mutation) (key : Bytes) (s : Nat) :
    Database.valueAt (numbered 1 operations) key s = History.read operations key s := by
  have visible := congrArg (fun values => values.getLast?.bind id)
    (visible_numbered 1 operations key s)
  simp only [List.getLast?_map, Nat.add_sub_cancel, Option.bind_map] at visible
  rw [Database.valueAt, newest, select_of_pairwise (numbered_increasing 1 operations key)]
  exact visible

/-! ## Runs -/

variable [Platform]

omit [Platform] in
theorem mem_flatVersions_holding {durable : Nat} {operations : List Mutation} {e : Entry} :
    e ∈ (Memtable.holding durable operations).flatVersions ↔
      e ∈ numbered (durable + 1) operations := by
  rw [Memtable.mem_flatVersions, Memtable.versionsAt_holding, mem_versionsOf]

/-- The policy of plain runs: only writes, syncs and flushes, all of them successful. -/
def Plain : Policy := fun _ _ op result =>
  result = .ok () ∧ (op.batch.isSome ∨ op = .sync ∨ ∃ at_, op = .flushMemtable at_)

/-- A database whose versions are the numbered operations of a history. Every segment file of
its directory is named by the manifest. -/
structure Records (files : Files Path) (db : Database) (stored : List Segment)
    (pending : List WriteBatch) (operations : List Mutation) : Prop where
  live : Live files db stored pending
  content : ∀ e, e ∈ db.entries ↔ e ∈ numbered 1 operations
  length : db.memtable.maximumSequence = operations.length
  named : ∀ id, .segment id ∈ files → ∃ d ∈ db.manifest.segments, d.id = id

section Records

variable {files f : Files Path} {db : Database} {stored stored' : List Segment}
  {pending : List WriteBatch} {operations : List Mutation}

theorem Records.get (records : Records files db stored pending operations) (key : Bytes)
    (snapshot : Snapshot) :
    db.get key snapshot = .ok (History.read operations key snapshot.sequence) := by
  obtain ⟨s⟩ := snapshot
  have same : newest db.entries key s = newest (numbered 1 operations) key s := by
    symm
    apply select_congr (agree_of_pairwise (numbered_increasing 1 operations key))
    intro v
    rw [mem_versionsOf, mem_versionsOf, records.content]
  rw [records.live.sound.get, ← valueAt_numbered, Database.valueAt, same]
  rfl

/-- A write adds the operations of its batch to the history. -/
theorem Records.wrote {batch : WriteBatch} (records : Records files db stored pending operations)
    (after : Live f (db.afterWriting pending batch) stored (pending ++ [batch]))
    (others : ∀ path, path ≠ db.wal.path → f.lookup path = files.lookup path) :
    Records f (db.afterWriting pending batch) stored (pending ++ [batch])
      (operations ++ batch.operations) := by
  have maximum := records.live.maximumSequence
  rw [records.length] at maximum
  refine ⟨after, fun e => ?_, ?_, ?_⟩
  · have before := records.content e
    have memtable : e ∈ (db.afterWriting pending batch).memtable.flatVersions ↔
        e ∈ db.memtable.flatVersions ∨ e ∈ numbered (1 + operations.length) batch.operations := by
      change e ∈ (Memtable.holding db.manifest.durableSequence
        (operationsOf (pending ++ [batch]))).flatVersions ↔ _
      rw [records.live.memtable, mem_flatVersions_holding, mem_flatVersions_holding,
        operationsOf_append, operationsOf_singleton, numbered_append, List.mem_append, maximum]
      have shift : db.manifest.durableSequence + 1 + (operationsOf pending).length =
          1 + (db.manifest.durableSequence + (operationsOf pending).length) := by omega
      rw [shift]
    rw [Database.entries, List.mem_append] at before ⊢
    rw [memtable, ← or_assoc, numbered_append, List.mem_append, ← before]
    rfl
  · change db.manifest.durableSequence + (operationsOf (pending ++ [batch])).length = _
    rw [operationsOf_append, operationsOf_singleton, List.length_append, List.length_append]
    omega
  · intro id present
    apply records.named id
    have path : Path.segment id ≠ db.wal.path := by
      rw [records.live.wal]
      simp
    rw [← AList.lookup_isSome, ← others _ path, AList.lookup_isSome]
    exact present

/-- A flush moves the memtable to a segment. The file under its digest is new: the manifest
would otherwise name the same segment twice. -/
theorem Records.flushed {at_ : Nat} {segment : Segment} {next : Manifest}
    (records : Records files db stored pending operations)
    (flushed : Flushed files f db at_ stored segment next stored') :
    Records f (db.afterFlushing next segment) stored' [] operations := by
  obtain ⟨g, written⟩ := flushed.written
  obtain ⟨bytes, content, encoded, identity, -⟩ := written.file
  obtain ⟨validates, -, -, -, -, -, segments⟩ := Manifest.new_ok flushed.new
  have listed : ∀ d, d ∈ next.segments ↔ d ∈ db.manifest.segments ∨ d = segment.descriptor := by
    intro d
    rw [segments, (Manifest.sortSegments_perm _).mem_iff, List.mem_append, List.mem_singleton]
  have fresh : .segment (segmentDigest bytes) ∉ files := by
    intro present
    obtain ⟨d, member, same⟩ := records.named _ present
    have distinct := (Manifest.valid_of_validate validates).distinct
    rw [segments, ((Manifest.sortSegments_perm _).map _).nodup_iff, List.map_append,
      List.nodup_append] at distinct
    apply distinct.2.2 d.id (List.mem_map_of_mem member) segment.descriptor.id (by simp)
    rw [same, identity]
  have free : NoCollision files db.memtable := by
    intro encoding stored sameTable found
    rw [encoded, Except.ok.injEq] at sameTable
    subst sameTable
    exact absurd (mem_of_lookup found) fresh
  have isOver := records.live.sound.memtable
  have u64 : db.memtable.maximumSequence ≤ u64Max := by
    have room := records.live.disk.log.room
    have maximum := records.live.maximumSequence
    omega
  have entries := written.entries_eq isOver u64 free
  refine ⟨flushed.live records.live, fun e => ?_, records.length, ?_⟩
  · rw [← records.content]
    have empty : (Memtable.atSequence db.memtable.maximumSequence).flatVersions = [] := by
      rw [Memtable.flatVersions_eq_nil_iff]
      rfl
    simp only [Database.entries, Database.afterFlushing, List.flatMap_append, List.flatMap_cons,
      List.flatMap_nil, List.append_nil, entries, empty]
  · intro id present
    obtain ⟨found, lookup⟩ := Option.isSome_iff_exists.mp (AList.lookup_isSome.mpr present)
    rcases flushed.segments.segments id with same | ⟨bytes', encoded', isId, -⟩
    · rw [lookup, AList.lookup_erase_ne (by simp)] at same
      obtain ⟨d, member, named⟩ := records.named id (mem_of_lookup same.symm)
      exact ⟨d, (listed d).mpr (.inl member), named⟩
    · rw [encoded, Except.ok.injEq] at encoded'
      exact ⟨segment.descriptor, (listed _).mpr (.inr rfl), by rw [identity, encoded', isId]⟩

/-- Closing a database and opening it again keeps its history. -/
theorem Records.reopened (records : Records files db stored pending operations)
    (locked : Locked files f) :
    Records f (Database.opened db.manifest stored pending) stored pending operations := by
  refine ⟨Live.opened (records.live.disk.grows locked.grows), fun e => ?_, ?_, ?_⟩
  · rw [← records.content, Database.entries, Database.entries, List.mem_append, List.mem_append,
      ← (records.live.perm.flatMap_right _).mem_iff, records.live.memtable]
    rfl
  · rw [← records.length, records.live.memtable]
    rfl
  · intro id present
    apply records.named id
    rw [← AList.lookup_isSome, ← locked.others _ (by simp), AList.lookup_isSome]
    exact present

theorem Records.write {w w' : World Path Directory Process} {db' : Database} {batch : WriteBatch}
    {durability : Durability} (records : Records w.files db stored pending operations)
    (ran : forget (db.write batch durability) w = .ok (.ok (), db') w') :
    ∃ stored' pending', Records w'.files db' stored' pending' (operations ++ batch.operations) := by
  obtain ⟨value, wrote, isOk⟩ := forget_ok ran
  cases value with
  | error e => cases isOk
  | ok receipt =>
    obtain ⟨-, -, rfl, live, -, -, others⟩ := (write_wp records.live).run_ok wrote
    exact ⟨_, _, records.wrote live others⟩

theorem Records.step {w w' : World Path Directory Process} {db' : Database} {op : Op}
    {result : Except Error Unit} (records : Records w.files db stored pending operations)
    (plain : Plain w db op result) (ran : op.run db w = .ok (result, db') w') :
    ∃ stored' pending', Records w'.files db' stored' pending'
      (operations ++ Event.accepted (.did op result)) := by
  obtain ⟨rfl, isBatch | rfl | ⟨at_, rfl⟩⟩ := plain
  · cases op with
    | write batch durability => exact records.write ran
    | writeOwned batch durability => exact records.write ran
    | _ => cases isBatch
  · obtain ⟨value, synced, isOk⟩ := forget_ok ran
    obtain ⟨-, same, outcome⟩ := (sync_wp records.live).run_ok synced
    cases value with
    | error e => cases isOk
    | ok through =>
      obtain ⟨rfl, -⟩ := outcome
      rw [same]
      exact ⟨_, _, by simpa [Event.accepted, Op.batch] using records⟩
  · obtain ⟨value, ended, isOk⟩ := forget_ok ran
    have outcome := ((flushMemtable_wp records.live).run_ok ended).2
    rcases value with e | _ | next
    · cases isOk
    · obtain ⟨rfl, same, -⟩ := outcome
      rw [same]
      exact ⟨_, _, by simpa [Event.accepted, Op.batch] using records⟩
    · obtain ⟨-, segment, stored', flushed, rfl, -⟩ := outcome
      exact ⟨_, _, by simpa [Event.accepted, Op.batch] using records.flushed flushed⟩

end Records

/-- Every state of a plain run records the history of the run. -/
theorem Run.records {trace : List Event} {state : State} (run : Run Plain trace state) :
    ∃ stored pending, Records state.files state.db stored pending (accepted trace) := by
  induction run with
  | create created =>
    obtain ⟨-, -, rfl, disk, none_⟩ := create_wp.run_ok created
    refine ⟨_, _, Live.opened disk, ?_, rfl, fun id present => absurd present (none_ id)⟩
    intro e
    have empty : (Memtable.holding 0 []).flatVersions = [] := by
      rw [Memtable.flatVersions_eq_nil_iff]
      rfl
    change e ∈ (Memtable.holding 0 []).flatVersions ↔ e ∈ []
    rw [empty]
  | step _ allowed ran ih =>
    obtain ⟨stored, pending, records⟩ := ih
    rw [accepted_append]
    exact records.step allowed ran
  | reopen _ opened ih =>
    obtain ⟨stored, pending, records⟩ := ih
    obtain ⟨rfl, locked⟩ := records.live.reopened opened
    refine ⟨stored, pending, ?_⟩
    rw [accepted_append]
    simpa [Event.accepted] using records.reopened locked

/-- In every state of a plain run, at every snapshot, a point read returns what the last mutation
of the key has left among the operations accepted up to the snapshot. -/
theorem get_refines_history {trace : List Event} {state : State} (run : Run Plain trace state)
    (key : Bytes) (snapshot : Snapshot) :
    state.db.get key snapshot = .ok (History.read (accepted trace) key snapshot.sequence) := by
  obtain ⟨stored, pending, records⟩ := run.records
  exact records.get key snapshot

end Vyrm.Kv

namespace Vyrm.Kv
open Lib Lib.FaultFs

/-- Two values of a key, one of them flushed and the other one replayed from the log. -/
def flushedAndReplayed : List Step :=
  [.quiet (.write ⟨[.put [97] [1]]⟩ .authoritative), .quiet (.flushMemtable 5),
    .quiet (.writeOwned ⟨[.put [97] [2], .delete [98]]⟩ .buffered), .reopen]

theorem plain_flushedAndReplayed : ∀ w db op result, .run w.oracle op ∈ flushedAndReplayed →
    succeeds w db op result = true → Plain w db op result := by
  intro w db op result member isOk
  refine ⟨eq_of_beq isOk, ?_⟩
  simp only [flushedAndReplayed, Step.quiet, List.mem_cons, Step.run.injEq, reduceCtorEq,
    List.not_mem_nil, or_false] at member
  rcases member with ⟨-, rfl⟩ | ⟨-, rfl⟩ | ⟨-, rfl⟩
  · exact .inl rfl
  · exact .inr (.inr ⟨5, rfl⟩)
  · exact .inl rfl

set_option maxRecDepth 100000 in
theorem get_refines_history_reopened : ∃ trace state, Run Plain trace state ∧
    accepted trace = [.put [97] [1], .put [97] [2], .delete [98]] ∧
    state.db.get [97] ⟨1⟩ = .ok (some [1]) ∧ state.db.get [97] ⟨3⟩ = .ok (some [2]) := by
  obtain ⟨trace, state, run, isHistory⟩ := exists_run
    (fun trace _ => accepted trace == [.put [97] [1], .put [97] [2], .delete [98]])
    plain_flushedAndReplayed (by decide +kernel)
  have history := eq_of_beq isHistory
  refine ⟨trace, state, run, history, ?_, ?_⟩
  · rw [get_refines_history run, history]
    rfl
  · rw [get_refines_history run, history]
    rfl

end Vyrm.Kv
