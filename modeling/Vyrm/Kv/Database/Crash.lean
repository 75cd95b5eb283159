import Vyrm.Kv.Database.Survivors

/-!
# Crashes in a flush or a compaction

A crash can stop a flush or a compaction at any of its file operations, with any
part of a write on disk. Opening the directory that is left succeeds, and the
database then holds what it held before, or what it would hold had the operation
come to its end. A `Life` is a working run with any number of such crashes.
-/

namespace Vyrm.Kv
open Lib Lib.FaultFs Mvcc

variable [Platform]

/-- An operation that publishes a manifest over the data that the database has. -/
def Op.Publishes (op : Op) : Prop :=
  (∃ at_, op = .flushMemtable at_) ∨ ∃ snapshots at_, op = .compact snapshots at_

/-- What happens to a database that can crash. -/
inductive Incident where
  | passed (event : Event)
  | crashed (op : Op)

/-- The traces that one incident can make of others: an interrupted operation has had no effect,
or all of it. -/
def Incident.extend (traces : List (List Event)) : Incident → List (List Event)
  | .passed event => traces.map (· ++ [event])
  | .crashed op => traces ++ traces.map (· ++ [.did op (.ok ())])

/-- The traces that incidents can amount to. -/
def outcomes (incidents : List Incident) : List (List Event) :=
  incidents.foldl Incident.extend [[]]

theorem outcomes_append (incidents : List Incident) (incident : Incident) :
    outcomes (incidents ++ [incident]) = incident.extend (outcomes incidents) :=
  List.foldl_append ..

/-- Working runs with crashes in flushes and compactions, each followed by opening the
directory. -/
inductive Life : List Incident → State → Prop where
  | create {files : Files Path} {process : Process} {oracle : Oracle Path Directory} {tick : Nat}
      {db : Database} {w : World Path Directory Process}
      (created : Database.create ⟨files, process, oracle, tick⟩ = .ok db w) :
      Life [] ⟨w.files, w.process, db⟩
  | step {incidents : List Incident} {files : Files Path} {process : Process} {db db' : Database}
      {oracle : Oracle Path Directory} {tick : Nat} {op : Op} {result : Except Error Unit}
      {w : World Path Directory Process} (before : Life incidents ⟨files, process, db⟩)
      (allowed : Working ⟨files, process, oracle, tick⟩ db op result)
      (ran : op.run db ⟨files, process, oracle, tick⟩ = .ok (result, db') w) :
      Life (incidents ++ [.passed (.did op result)]) ⟨w.files, w.process, db'⟩
  | reopen {incidents : List Incident} {files : Files Path} {process process' : Process}
      {db db' : Database} {oracle : Oracle Path Directory} {tick : Nat}
      {w : World Path Directory Process} (before : Life incidents ⟨files, process, db⟩)
      (opened : Database.open ⟨files, process', oracle, tick⟩ = .ok db' w) :
      Life (incidents ++ [.passed .reopened]) ⟨w.files, w.process, db'⟩
  | crash {incidents : List Incident} {files : Files Path} {process process' : Process}
      {db db' : Database} {oracle oracle' : Oracle Path Directory} {tick tick' : Nat} {op : Op}
      {w w' : World Path Directory Process} (before : Life incidents ⟨files, process, db⟩)
      (publishes : op.Publishes) (collisionless : Collisionless ⟨files, process, oracle, tick⟩ db op)
      (crashed : op.run db ⟨files, process, oracle, tick⟩ = .error .crash w)
      (opened : Database.open ⟨w.files, process', oracle', tick'⟩ = .ok db' w') :
      Life (incidents ++ [.crashed op]) ⟨w'.files, w'.process, db'⟩

/-- A working run is a life without crashes. -/
theorem Run.life {trace : List Event} {state : State} (run : Run Working trace state) :
    Life (trace.map .passed) state := by
  induction run with
  | create created => exact .create created
  | step _ allowed ran ih =>
    rw [List.map_append]
    exact .step ih allowed ran
  | reopen _ opened ih =>
    rw [List.map_append]
    exact .reopen ih opened

/-! ## The directory that a crash leaves -/

section Directory

variable {files f : Files Path} {db mid : Database} {stored stored' compacted : List Segment}
  {pending : List WriteBatch} {trace : List Event} {op : Op}
  {w w' : World Path Directory Process}

/-- Opening the directory gives a database that holds what a trace has left. -/
def Recovers (files : Files Path) (trace : List Event) : Prop :=
  ∃ manifest stored pending,
    Tracks files (Database.opened manifest stored pending) stored pending trace

/-- The files of a database in use describe it. -/
theorem Tracks.recovers (tracks : Tracks files db stored pending trace) : Recovers files trace := by
  have live := Live.opened tracks.live.disk
  refine ⟨db.manifest, stored, pending, live, fun e => ?_, ?_⟩
  · rw [← tracks.content, live.mem_entries, tracks.live.mem_entries,
      ← (tracks.live.perm.flatMap_right _).mem_iff]
    rfl
  · rw [← tracks.length, tracks.live.memtable]
    rfl

theorem Tracks.next (tracks : Tracks files db stored pending trace) :
    db.wal.nextSequence = (accepted trace).length + 1 := by
  rw [← tracks.length, tracks.live.maximumSequence, tracks.live.wal]

theorem Tracks.grows (tracks : Tracks files db stored pending trace) (grows : Grows files f) :
    Tracks f db stored pending trace :=
  ⟨tracks.live.grows grows, tracks.content, tracks.length⟩

theorem Tracks.flushing {at_ : Nat} {segment : Segment} {next : Manifest}
    (tracks : Tracks files db stored pending trace) (free : NoCollision files db.memtable)
    (flushed : Flushed files f db at_ stored segment next stored') :
    Tracks f (db.afterFlushing next segment) stored' [] trace :=
  ⟨flushed.live tracks.live,
    fun e => (flushed.mem_entries tracks.live free).trans (tracks.content e), tracks.length⟩

/-- A flush that has crashed. -/
theorem Tracks.flush_crashed {at_ : Nat} {stop : Stop Error}
    (tracks : Tracks w.files db stored pending trace) (free : NoCollision w.files db.memtable)
    (ran : db.flushMemtable at_ w = .error stop w') : Recovers w'.files trace := by
  obtain ⟨-, wrote | ⟨-, segment, next, stored', flushed⟩⟩ :=
    (flushMemtable_wp tracks.live).run_error ran
  · exact (tracks.grows wrote.grows).recovers
  · exact (tracks.flushing free flushed).recovers

/-- The database that a compaction works on, after its flush. -/
theorem Tracks.flush_ended {at_ : Nat} {flushed : Option Manifest}
    (tracks : Tracks w.files db stored pending trace) (free : NoCollision w.files db.memtable)
    (ran : db.flushMemtable at_ w = .ok (.ok flushed, mid) w') :
    ∃ stored' pending', Tracks w'.files mid stored' pending' trace ∧
      operationsOf pending' = [] := by
  have outcome := ((flushMemtable_wp tracks.live).run_ok ran).2
  rcases flushed with _ | next
  · obtain ⟨rfl, same, empty⟩ := outcome
    rw [same]
    exact ⟨stored, pending, tracks, empty⟩
  · obtain ⟨-, segment, stored', flushed, rfl, -⟩ := outcome
    exact ⟨stored', [], tracks.flushing free flushed, rfl⟩

omit [Platform] in
theorem committing_error {σ α : Type} {self : σ} {body : Io (α × σ)} {stop : Stop Error}
    (ran : committing self body w = .error stop w') : body w = .error .crash w' := by
  unfold committing at ran
  split at ran
  · cases ran
  · cases ran
  · rename_i failed
    cases ran
    exact failed

/-- A compaction that has crashed, in its flush or later. -/
theorem Tracks.compact_crashed {snapshots : List Snapshot} {at_ : Nat} {stop : Stop Error}
    (tracks : Tracks w.files db stored pending trace)
    (collisionless : Collisionless w db (.compact snapshots at_))
    (ran : db.compact snapshots at_ w = .error stop w') :
    Recovers w'.files trace ∨
      Recovers w'.files (trace ++ [.did (.compact snapshots at_) (.ok ())]) := by
  have free := collisionless.flush at_ rfl
  unfold Database.compact Database.compactInner at ran
  rcases bind_error ran with first | ⟨⟨flushed, mid⟩, w₁, first, rest⟩
  · exact .inl (tracks.flush_crashed free first)
  · cases flushed with
    | error e => cases rest
    | ok flushed =>
      obtain ⟨stored₁, pending₁, tracks₁, empty⟩ := tracks.flush_ended free first
      dsimp only at rest
      split at rest
      · cases rest
      · rcases bind_error rest with second | ⟨⟨outcome, after⟩, w₂, -, last⟩
        · rcases (compactPublish_wp tracks₁.live).run_error (committing_error second) with
            grows | ⟨-, next, compacted, compaction⟩
          · exact .inl (tracks₁.grows grows).recovers
          · right
            exact (tracks₁.compacting empty compaction fun table retained =>
              collisionless.compact _ _ _ _ _ _ rfl first retained).recovers
        · cases outcome <;> cases last

/-- What is left of an operation that has crashed. -/
theorem Tracks.crashed (tracks : Tracks w.files db stored pending trace)
    (publishes : op.Publishes) (collisionless : Collisionless w db op)
    (ran : op.run db w = .error .crash w') :
    Recovers w'.files trace ∨ Recovers w'.files (trace ++ [.did op (.ok ())]) := by
  rcases publishes with ⟨at_, rfl⟩ | ⟨snapshots, at_, rfl⟩
  · exact .inl (tracks.flush_crashed (collisionless.flush at_ rfl) (forget_error ran))
  · exact tracks.compact_crashed collisionless (forget_error ran)

/-- Recovery: the directory opens, and the database holds what the trace has left. -/
theorem Recovers.opens (recovers : Recovers files trace) (process : Process)
    (oracle : Oracle Path Directory) (tick : Nat) :
    (¬ Hindered oracle → ∃ db w, Database.open ⟨files, process, oracle, tick⟩ = .ok db w) ∧
    ∀ db w, Database.open ⟨files, process, oracle, tick⟩ = .ok db w →
      ∃ stored pending, Tracks w.files db stored pending trace := by
  obtain ⟨manifest, stored, pending, tracks⟩ := recovers
  constructor
  · intro clear
    cases opened : Database.open ⟨files, process, oracle, tick⟩ with
    | ok db w => exact ⟨db, w, rfl⟩
    | error stop w => exact absurd ((open_wp tracks.live.disk).run_error opened).2.2 clear
  · intro db w opened
    obtain ⟨same, locked⟩ := tracks.live.reopened opened
    rw [same]
    exact ⟨stored, pending, tracks.grows locked.grows⟩

end Directory

/-! ## Lives -/

theorem Life.tracks {incidents : List Incident} {state : State} (life : Life incidents state) :
    ∃ trace ∈ outcomes incidents, ∃ stored pending,
      Tracks state.files state.db stored pending trace := by
  induction life with
  | create created =>
    obtain ⟨stored, pending, tracks⟩ := Run.tracks (.create created)
    exact ⟨[], List.mem_singleton_self _, stored, pending, tracks⟩
  | step _ allowed ran ih =>
    obtain ⟨trace, member, stored, pending, tracks⟩ := ih
    rw [outcomes_append]
    exact ⟨_, List.mem_map.mpr ⟨trace, member, rfl⟩, tracks.step allowed ran⟩
  | reopen _ opened ih =>
    obtain ⟨trace, member, stored, pending, tracks⟩ := ih
    obtain ⟨rfl, locked⟩ := tracks.live.reopened opened
    rw [outcomes_append]
    exact ⟨_, List.mem_map.mpr ⟨trace, member, rfl⟩, _, _, tracks.reopened locked⟩
  | crash _ publishes collisionless crashed opened ih =>
    obtain ⟨trace, member, stored, pending, tracks⟩ := ih
    rw [outcomes_append]
    rcases tracks.crashed publishes collisionless crashed with before | done
    · exact ⟨trace, List.mem_append.mpr (.inl member), (before.opens _ _ _).2 _ _ opened⟩
    · exact ⟨_, List.mem_append.mpr (.inr (List.mem_map.mpr ⟨trace, member, rfl⟩)),
        (done.opens _ _ _).2 _ _ opened⟩

end Vyrm.Kv

namespace Vyrm.Kv
open Lib Lib.FaultFs

/-- An oracle that stops the machine at one operation. -/
def crashAt (n : Nat) : Oracle Path Directory := fun tick _ => if tick = n then .crash 0 else .pass

/-- Whether a flush crashes at one of its operations, and the directory then opens with a next
sequence. -/
def crashesAndOpens [Platform] (n next : Nat) (state : State) : Bool :=
  decide (Unwritten state.files state.db.memtable) &&
    match (Op.flushMemtable 5).run state.db ⟨state.files, state.process, crashAt n, 0⟩ with
    | .error .crash w =>
      match Database.open ⟨w.files, state.process, noFaults, 0⟩ with
      | .ok db _ => db.wal.nextSequence == next
      | .error _ _ => false
    | _ => false

theorem life_of_crashesAndOpens [Platform] {trace : List Event} {state : State} {n next : Nat}
    (run : Run Working trace state) (tested : crashesAndOpens n next state = true) :
    ∃ incidents state', Life incidents state' ∧ .crashed (.flushMemtable 5) ∈ incidents ∧
      state'.db.wal.nextSequence = next := by
  simp only [crashesAndOpens, Bool.and_eq_true, decide_eq_true_eq] at tested
  obtain ⟨unwritten, tested⟩ := tested
  split at tested
  · rename_i w crashed
    split at tested
    · rename_i db w' opened
      refine ⟨_, _, .crash run.life (.inl ⟨5, rfl⟩) ⟨fun _ _ => unwritten.noCollision, ?_⟩ crashed
        opened, List.mem_append.mpr (.inr (List.mem_singleton_self _)), eq_of_beq tested⟩
      rintro snapshots at_ flushed mid w' table same
      cases same
    · cases tested
  · cases tested

end Vyrm.Kv
