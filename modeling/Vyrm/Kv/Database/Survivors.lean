import Vyrm.Kv.Database.History
import Vyrm.Kv.Database.Reads
import Vyrm.Lib.Retention

/-!
# What compactions leave

The versions of a database over a whole run, compactions included. `survivors`
keeps the numbered operations of all accepted batches and drops at every
compaction what no protected snapshot needs. The database holds exactly these
versions, whichever files they are in, and a snapshot that every compaction has
spared still reads the history of the run.
-/

namespace Vyrm.Kv
open Lib Lib.FaultFs Mvcc

variable [Platform]

/-! ## The versions of a run -/

/-- What an event makes of the versions that `n` operations have left. -/
def Event.leaves (entries : List Entry) (n : Nat) : Event → List Entry
  | .did (.compact snapshots _) (.ok ()) =>
    retained (Database.protectedSequences snapshots n) (fun v => v.value.isSome) entries
  | event => entries ++ numbered (n + 1) event.accepted

/-- The versions at the end of a trace, and the number of its operations. -/
def surviving (trace : List Event) : List Entry × Nat :=
  trace.foldl (fun (entries, n) event =>
    (event.leaves entries n, n + event.accepted.length)) ([], 0)

/-- The versions at the end of a trace. -/
def survivors (trace : List Event) : List Entry := (surviving trace).1

/-- A snapshot that every compaction of a trace has spared: it was protected, or no older than the
head. -/
def Spared (trace : List Event) (s : Nat) : Prop :=
  ∀ before snapshots at_ after,
    trace = before ++ .did (.compact snapshots at_) (.ok ()) :: after →
    (accepted before).length ≤ s ∨ ⟨s⟩ ∈ snapshots

theorem surviving_append (trace : List Event) (event : Event) :
    surviving (trace ++ [event]) =
      (event.leaves (surviving trace).1 (surviving trace).2,
        (surviving trace).2 + event.accepted.length) := by
  rw [surviving, List.foldl_append]
  rfl

theorem surviving_length (trace : List Event) : (surviving trace).2 = (accepted trace).length := by
  induction trace using List.reverseRecOn with
  | nil => rfl
  | append_singleton trace event ih =>
    rw [surviving_append, accepted_append, List.length_append, ih]

theorem survivors_append (trace : List Event) (event : Event) :
    survivors (trace ++ [event]) = event.leaves (survivors trace) (accepted trace).length := by
  rw [survivors, surviving_append, surviving_length]
  rfl

/-- An event is a compaction that has ended, or it only adds what it has accepted. -/
theorem Event.leaves_cases (event : Event) :
    (∃ snapshots at_, event = .did (.compact snapshots at_) (.ok ())) ∨
      ∀ entries n, event.leaves entries n = entries ++ numbered (n + 1) event.accepted := by
  cases event with
  | reopened => exact .inr fun _ _ => rfl
  | did op result =>
    cases op with
    | compact snapshots at_ =>
      cases result with
      | ok done => exact .inl ⟨snapshots, at_, rfl⟩
      | error e => exact .inr fun _ _ => rfl
    | _ => exact .inr fun _ _ => rfl

theorem accepted_compact {snapshots : List Snapshot} {at_ : Nat} :
    Event.accepted (.did (.compact snapshots at_) (.ok ())) = [] := rfl

theorem survivors_subset (trace : List Event) :
    ∀ e ∈ survivors trace, e ∈ numbered 1 (accepted trace) := by
  induction trace using List.reverseRecOn with
  | nil => exact fun e member => member
  | append_singleton trace event ih =>
    intro e member
    rw [survivors_append] at member
    rw [accepted_append, numbered_append, List.mem_append]
    rcases event.leaves_cases with ⟨snapshots, at_, rfl⟩ | adds
    · exact .inl (ih e (List.mem_filter.mp member).1)
    · rw [adds, List.mem_append] at member
      rcases member with old | new
      · exact .inl (ih e old)
      · rw [Nat.add_comm 1]
        exact .inr new

theorem agree_survivors (trace : List Event) (key : Bytes) :
    Agree (versionsOf key (survivors trace)) := by
  have all := agree_of_pairwise (numbered_increasing 1 (accepted trace) key)
  intro u hu v hv
  have inside : ∀ w ∈ versionsOf key (survivors trace),
      w ∈ versionsOf key (numbered 1 (accepted trace)) := by
    intro w member
    exact mem_versionsOf.mpr (survivors_subset trace _ (mem_versionsOf.mp member))
  exact all u (inside u hu) v (inside v hv)

/-! ## Snapshots that are spared -/

theorem Spared.before {trace : List Event} {event : Event} {s : Nat}
    (spared : Spared (trace ++ [event]) s) : Spared trace s := by
  rintro before snapshots at_ after rfl
  exact spared before snapshots at_ (after ++ [event]) (by simp)

/-- The head of a trace, and what lies above it, is spared. -/
theorem spared_of_head {trace : List Event} {s : Nat} (above : (accepted trace).length ≤ s) :
    Spared trace s := by
  rintro before snapshots at_ after rfl
  left
  rw [accepted, List.flatMap_append, List.length_append] at above
  exact (Nat.le_add_right _ _).trans above

/-- A spared snapshot is answered by the survivors as by all versions. -/
theorem Spared.answers {trace : List Event} {s : Nat} (spared : Spared trace s) (key : Bytes) :
    Answers (fun v => v.value.isSome = true) (numbered 1 (accepted trace)) (survivors trace)
      key s := by
  induction trace using List.reverseRecOn with
  | nil => exact .inl rfl
  | append_singleton trace event ih =>
    have before := ih spared.before
    have below : ∀ e ∈ numbered 1 (accepted trace), e.2.sequence ≤ (accepted trace).length :=
      fun e member => by have := numbered_bounds member; omega
    rw [survivors_append, accepted_append, numbered_append, Nat.add_comm 1]
    rcases event.leaves_cases with ⟨snapshots, at_, rfl⟩ | adds
    · have drop := retains_retained
        (Database.protectedSequences snapshots (accepted trace).length)
        (fun v : VersionedValue => v.value.isSome) (survivors trace)
      have agree := agree_survivors trace key
      rw [accepted_compact, numbered, List.append_nil]
      by_cases above : (accepted trace).length ≤ s
      · have head := (answers_of_head (survivors_subset trace) below above).mp before
        have kept := head.retains drop agree (Database.mem_protectedSequences.mpr (.inl rfl))
        refine (answers_of_head ?_ below above).mpr kept
        exact fun e member => survivors_subset trace e (List.mem_filter.mp member).1
      · have named := (spared trace snapshots at_ [] rfl).resolve_left above
        exact before.retains drop agree
          (Database.mem_protectedSequences.mpr (.inr ⟨by omega, named⟩))
    · rw [adds]
      apply before.append (survivors_subset trace)
      intro e old e' new
      have low := below e old
      have high := numbered_bounds new
      change e.2.sequence < e'.2.sequence
      omega

/-- So it reads the history of the trace. -/
theorem Spared.valueAt {trace : List Event} {s : Nat} (spared : Spared trace s) (key : Bytes) :
    Database.valueAt (survivors trace) key s = History.read (accepted trace) key s := by
  rw [← valueAt_numbered, Database.valueAt, Database.valueAt]
  rcases spared.answers key with same | ⟨gone, dead⟩
  · rw [same]
  · rw [gone]
    cases found : newest (numbered 1 (accepted trace)) key s with
    | none => rfl
    | some v =>
      have noValue := dead v found
      rw [Option.not_isSome_iff_eq_none] at noValue
      rw [Option.bind_some, noValue]
      rfl

/-! ## Runs with compactions -/

/-- SHA-256 does not collide on a segment that an operation writes and one that is stored. -/
structure Collisionless (w : World Path Directory Process) (db : Database) (op : Op) : Prop where
  flush : ∀ at_, op.flushesAt = some at_ → NoCollision w.files db.memtable
  compact : ∀ snapshots at_ flushed mid w' table, op = .compact snapshots at_ →
    db.flushMemtable at_ w = .ok (.ok flushed, mid) w' →
    mid.retainedTable snapshots = .ok table → NoCollision w'.files table

/-- The policy of calm runs that install nothing. -/
def Working : Policy := fun w db op result =>
  Calm w db op result ∧ op.source = none ∧ Collisionless w db op

/-- A database that holds what a trace has left. -/
structure Tracks (files : Files Path) (db : Database) (stored : List Segment)
    (pending : List WriteBatch) (trace : List Event) : Prop where
  live : Live files db stored pending
  content : ∀ e, e ∈ db.entries ↔ e ∈ survivors trace
  length : db.memtable.maximumSequence = (accepted trace).length

section Tracks

variable {files f : Files Path} {db mid : Database} {stored stored' compacted : List Segment}
  {pending : List WriteBatch} {trace : List Event} {op : Op} {result : Except Error Unit}

/-- The versions of a live database: those of its segments, and the logged operations. -/
theorem Live.mem_entries (live : Live files db stored pending) {e : Entry} :
    e ∈ db.entries ↔ e ∈ db.segments.flatMap Segment.entries ∨
      e ∈ numbered (db.manifest.durableSequence + 1) (operationsOf pending) := by
  rw [Database.entries, List.mem_append, live.memtable, mem_flatVersions_holding]

/-- A flush moves the versions of the memtable to a segment. -/
theorem Flushed.mem_entries {at_ : Nat} {segment : Segment} {next : Manifest}
    (flushed : Flushed files f db at_ stored segment next stored')
    (live : Live files db stored pending) (free : NoCollision files db.memtable) {e : Entry} :
    e ∈ (db.afterFlushing next segment).entries ↔ e ∈ db.entries := by
  obtain ⟨g, written⟩ := flushed.written
  have u64 : db.memtable.maximumSequence ≤ u64Max := by
    have room := live.disk.log.room
    have maximum := live.maximumSequence
    omega
  have entries := written.entries_eq live.sound.memtable u64 free
  have empty : (Memtable.atSequence db.memtable.maximumSequence).flatVersions = [] := by
    rw [Memtable.flatVersions_eq_nil_iff]
    rfl
  simp only [Database.entries, Database.afterFlushing, List.flatMap_append, List.flatMap_cons,
    List.flatMap_nil, List.append_nil, entries, empty]

/-- An event that adds nothing and is no compaction leaves the versions alone. -/
theorem survivors_idle (trace : List Event) {event : Event} (none_ : event.accepted = [])
    (noCompaction : ∀ snapshots at_, event ≠ .did (.compact snapshots at_) (.ok ())) :
    survivors (trace ++ [event]) = survivors trace ∧
      accepted (trace ++ [event]) = accepted trace := by
  rw [survivors_append, accepted_append, none_, List.append_nil]
  rcases event.leaves_cases with ⟨snapshots, at_, same⟩ | adds
  · exact absurd same (noCompaction snapshots at_)
  · rw [adds, none_, numbered, List.append_nil]
    exact ⟨rfl, rfl⟩

theorem not_compaction (failed : ∀ snapshots at_, op = .compact snapshots at_ → ∃ e, result = .error e) :
    ∀ snapshots at_, Event.did op result ≠ .did (.compact snapshots at_) (.ok ()) := by
  rintro snapshots at_ same
  cases same
  obtain ⟨e, impossible⟩ := failed _ _ rfl
  cases impossible

theorem accepted_of_rejected (rejected : op.batch.isSome → ∃ e, result = .error e) :
    Event.accepted (.did op result) = [] := by
  cases result with
  | error e => rfl
  | ok done =>
    cases isBatch : op.batch with
    | none => simp [Event.accepted, isBatch]
    | some batch =>
      obtain ⟨e, impossible⟩ := rejected (by rw [isBatch]; rfl)
      cases impossible

/-- A batch that was taken adds its operations. -/
theorem Tracks.wrote {batch : WriteBatch} (tracks : Tracks files db stored pending trace)
    (isBatch : op.batch = some batch)
    (after : Live f (db.afterWriting pending batch) stored (pending ++ [batch])) :
    Tracks f (db.afterWriting pending batch) stored (pending ++ [batch])
      (trace ++ [.did op (.ok ())]) := by
  have accepts : Event.accepted (.did op (.ok ())) = batch.operations := by
    simp [Event.accepted, isBatch]
  have maximum := tracks.live.maximumSequence
  rw [tracks.length] at maximum
  have adds : ∀ entries n, Event.leaves entries n (.did op (.ok ())) =
      entries ++ numbered (n + 1) batch.operations := by
    intro entries n
    rcases (Event.did op (.ok ())).leaves_cases with ⟨snapshots, at_, same⟩ | adds
    · cases same
      cases isBatch
    · rw [adds, accepts]
  refine ⟨after, fun e => ?_, ?_⟩
  · have before := tracks.content e
    rw [tracks.live.mem_entries] at before
    rw [after.mem_entries, survivors_append, adds, List.mem_append, ← before, or_assoc,
      operationsOf_append, operationsOf_singleton, numbered_append, List.mem_append, maximum]
    have shift : (db.afterWriting pending batch).manifest.durableSequence + 1 +
        (operationsOf pending).length =
        db.manifest.durableSequence + (operationsOf pending).length + 1 :=
      Nat.add_right_comm _ _ _
    rw [shift]
    rfl
  · rw [after.maximumSequence, accepted_append, accepts, List.length_append, maximum,
      operationsOf_append, operationsOf_singleton, List.length_append, Nat.add_assoc]
    rfl

/-- A compaction keeps what the protected snapshots need. -/
theorem Tracks.compacting {snapshots : List Snapshot} {at_ : Nat} {next : Manifest}
    (tracks : Tracks files mid stored pending trace) (empty : operationsOf pending = [])
    (compaction : Compacted files f mid snapshots at_ pending next compacted)
    (free : ∀ table, mid.retainedTable snapshots = .ok table → NoCollision files table) :
    Tracks f (mid.afterCompacting next compacted) compacted pending
      (trace ++ [.did (.compact snapshots at_) (.ok ())]) := by
  have after := compaction.live tracks.live
  have durable : mid.manifest.durableSequence = (accepted trace).length := by
    rw [← tracks.length, tracks.live.maximumSequence, empty]
    rfl
  have segments : ∀ e, e ∈ mid.segments.flatMap Segment.entries ↔ e ∈ survivors trace := by
    intro e
    rw [← tracks.content, tracks.live.mem_entries, empty]
    simp [numbered]
  obtain ⟨agree, retains⟩ := compaction.retains tracks.live free
  rw [durable] at retains
  refine ⟨after, fun e => ?_, ?_⟩
  · rw [after.mem_entries, empty, survivors_append]
    simp only [numbered, List.not_mem_nil, or_false]
    exact (retains.congr agree segments).unique (retains_retained _ _ _) e
  · rw [accepted_append, accepted_compact, List.append_nil]
    exact tracks.length

/-- The flush that a compaction starts with. -/
theorem Tracks.flushedFirst {w w' : World Path Directory Process} {at_ : Nat}
    {flushed : Option Manifest} (tracks : Tracks w.files db stored pending trace)
    (calm : ¬ Faulty w.oracle (.syncDirectory .root)) (free : NoCollision w.files db.memtable)
    (ran : db.flushMemtable at_ w = .ok (.ok flushed, mid) w') :
    (∀ e, e ∈ mid.entries ↔ e ∈ survivors trace) ∧
      mid.memtable.maximumSequence = (accepted trace).length := by
  rcases did_flush tracks.live calm ran with ⟨rfl, -, -⟩ | ⟨segment, next, stored', -, flushed, rfl⟩
  · exact ⟨tracks.content, tracks.length⟩
  · refine ⟨fun e => ?_, tracks.length⟩
    rw [flushed.mem_entries tracks.live free, tracks.content]

/-- One operation of a working run. -/
theorem Tracks.step {w w' : World Path Directory Process} {db' : Database}
    (tracks : Tracks w.files db stored pending trace) (allowed : Working w db op result)
    (ran : op.run db w = .ok (result, db') w') :
    ∃ stored' pending', Tracks w'.files db' stored' pending' (trace ++ [.did op result]) := by
  obtain ⟨calm, noSource, collisionless⟩ := allowed
  obtain ⟨stored', pending', did⟩ := Op.did tracks.live calm ran
  refine ⟨stored', pending', ?_⟩
  cases did with
  | kept keeps rejected _ empty =>
    have none_ := accepted_of_rejected rejected
    by_cases compaction : ∃ snapshots at_, op = .compact snapshots at_ ∧ result = .ok ()
    · -- a compaction of a database without versions
      obtain ⟨snapshots, at_, rfl, rfl⟩ := compaction
      obtain ⟨noPending, noSegments⟩ := empty snapshots at_ rfl rfl
      have nothing : ∀ e, e ∉ db.entries := by
        intro e
        rw [tracks.live.mem_entries, noPending, noSegments]
        simp [numbered]
      refine ⟨tracks.live.keeps keeps, fun e => ?_, ?_⟩
      · rw [survivors_append]
        refine iff_of_false (nothing e) fun member => nothing e ?_
        exact (tracks.content e).mpr (List.mem_filter.mp member).1
      · rw [accepted_append, none_, List.append_nil]
        exact tracks.length
    · obtain ⟨same, length⟩ := survivors_idle trace none_ (by
        rintro snapshots at_ isCompaction
        cases isCompaction
        exact compaction ⟨snapshots, at_, rfl, rfl⟩)
      exact ⟨tracks.live.keeps keeps, fun e => by rw [same, tracks.content],
        by rw [length, tracks.length]⟩
  | wrote isBatch after => exact tracks.wrote isBatch after
  | flushed first flushed keeps compacted =>
    have noBatch : op.batch = none := by
      cases op <;> first | rfl | cases first
    obtain ⟨same, length⟩ := survivors_idle trace
      (accepted_of_rejected (by rw [noBatch]; intro h; cases h)) (not_compaction compacted)
    refine ⟨(flushed.live tracks.live).keeps keeps, fun e => ?_, ?_⟩
    · rw [flushed.mem_entries tracks.live (collisionless.flush _ first), same, tracks.content]
    · rw [length]
      exact tracks.length
  | compacted first live empty compaction =>
    obtain ⟨content, length⟩ := tracks.flushedFirst calm.1 (collisionless.flush _ rfl) first
    exact Tracks.compacting ⟨live, content, length⟩ empty compaction
      fun table retained => collisionless.compact _ _ _ _ _ _ rfl first retained
  | installed isSource =>
    rw [noSource] at isSource
    cases isSource

/-- Closing a database and opening it again. -/
theorem Tracks.reopened (tracks : Tracks files db stored pending trace) (locked : Locked files f) :
    Tracks f (Database.opened db.manifest stored pending) stored pending
      (trace ++ [.reopened]) := by
  obtain ⟨same, length⟩ := survivors_idle trace (show Event.reopened.accepted = [] from rfl) (by simp)
  have live := Live.opened (tracks.live.disk.grows locked.grows)
  refine ⟨live, fun e => ?_, ?_⟩
  · rw [same, ← tracks.content, live.mem_entries, tracks.live.mem_entries,
      ← (tracks.live.perm.flatMap_right _).mem_iff]
    rfl
  · rw [length, ← tracks.length, tracks.live.memtable]
    rfl

end Tracks

theorem Run.tracks {trace : List Event} {state : State} (run : Run Working trace state) :
    ∃ stored pending, Tracks state.files state.db stored pending trace := by
  induction run with
  | create created =>
    obtain ⟨-, -, rfl, disk, -⟩ := create_wp.run_ok created
    have live := Live.opened disk
    refine ⟨_, _, live, fun e => ?_, rfl⟩
    rw [live.mem_entries]
    simp [Database.opened, operationsOf, numbered, survivors, surviving]
  | step _ allowed ran ih =>
    obtain ⟨stored, pending, tracks⟩ := ih
    exact tracks.step allowed ran
  | reopen _ opened ih =>
    obtain ⟨stored, pending, tracks⟩ := ih
    obtain ⟨rfl, locked⟩ := tracks.live.reopened opened
    exact ⟨_, _, tracks.reopened locked⟩

/-- What all read paths of a database return at a snapshot, when a history answers them. -/
def Database.Reads (db : Database) (history : List Mutation) (s : Nat) : Prop :=
  (∀ key, db.get key ⟨s⟩ = .ok (History.read history key s)) ∧
  (∀ keys, db.getMany keys ⟨s⟩ = .ok (keys.map fun key => History.read history key s)) ∧
  ∀ start stop, ∃ pairs, db.scan start stop ⟨s⟩ = .ok pairs ∧
    pairs.Pairwise (fun a b => a.1 < b.1) ∧
    ∀ key value, (key, value) ∈ pairs ↔ start ≤ key ∧ (∀ bound ∈ stop, key < bound) ∧
      History.read history key s = some value

/-- At a spared snapshot a database reads the history. -/
theorem Tracks.reads {files : Files Path} {db : Database} {stored : List Segment}
    {pending : List WriteBatch} {trace : List Event} {s : Nat}
    (tracks : Tracks files db stored pending trace) (spared : Spared trace s) :
    db.Reads (accepted trace) s := by
  have sound := tracks.live.sound
  have reads : ∀ key, Database.valueAt db.entries key s =
      History.read (accepted trace) key s := by
    intro key
    have same : newest db.entries key s = newest (survivors trace) key s := by
      symm
      apply select_congr (agree_survivors trace key)
      intro v
      rw [mem_versionsOf, mem_versionsOf, tracks.content]
    rw [← spared.valueAt key, Database.valueAt, same]
    rfl
  refine ⟨fun key => by rw [sound.get, reads], fun keys => ?_, fun start stop => ?_⟩
  · rw [sound.getMany]
    simp only [reads]
  · obtain ⟨pairs, scanned, graph⟩ := sound.scan start stop s
    refine ⟨pairs, scanned, graph.sorted, fun key value => ?_⟩
    rw [graph.mem, Segment.visibleIn, inRange_iff, ← reads]
    split
    · rename_i outside
      exact iff_of_false (by simp) fun found => found.1 outside
    · rename_i inside
      exact ⟨fun found => ⟨inside, found⟩, fun found => found.2⟩

end Vyrm.Kv

namespace Vyrm.Kv
open Lib Lib.FaultFs

/-- No file is stored under the digest of a memtable's encoding. -/
def Unwritten [Platform] (files : Files Path) (table : Memtable) : Prop :=
  ∀ bytes ∈ (encodeV3 table).toOption, files.lookup (.segment (segmentDigest bytes)) = none

instance [Platform] (files : Files Path) (table : Memtable) : Decidable (Unwritten files table) :=
  inferInstanceAs (Decidable (∀ bytes ∈ (encodeV3 table).toOption, _))

theorem Unwritten.noCollision [Platform] {files : Files Path} {table : Memtable}
    (unwritten : Unwritten files table) : NoCollision files table := by
  intro bytes stored encoded found
  rw [unwritten bytes (by rw [encoded]; rfl)] at found
  cases found

/-- A guard that lets successful operations pass that write new segments. -/
def writesNew [Platform] : Guard := fun w db op result =>
  succeeds w db op result && decide (Unwritten w.files db.memtable) &&
    match op with
    | .compact snapshots at_ =>
      match db.flushMemtable at_ w with
      | .ok (.ok _, mid) w' =>
        decide (∀ table ∈ (mid.retainedTable snapshots).toOption, Unwritten w'.files table)
      | _ => true
    | _ => true

theorem working_of_writesNew [Platform] (ops : List Op) (noSource : ∀ op ∈ ops, op.source = none) :
    ∀ w db op result, .run w.oracle op ∈ ops.map Step.quiet → writesNew w db op result = true →
      Working w db op result := by
  intro w db op result member passed
  simp only [writesNew, Bool.and_eq_true, decide_eq_true_eq] at passed
  obtain ⟨⟨isOk, unwritten⟩, compacts⟩ := passed
  have calm := calm_of_quiet ops w db op result member isOk
  obtain ⟨op', isOp, same⟩ := List.mem_map.mp member
  obtain ⟨-, rfl⟩ := Step.run.inj same
  refine ⟨calm, noSource _ isOp, fun _ _ => unwritten.noCollision, ?_⟩
  rintro snapshots at_ flushed mid w' table rfl ran retained
  simp only [ran, decide_eq_true_eq] at compacts
  exact (compacts table (by rw [retained]; rfl)).noCollision

/-- An event in which a compaction has ended. -/
def Event.compacts [Platform] : Event → Bool
  | .did (.compact _ _) (.ok ()) => true
  | _ => false

end Vyrm.Kv
