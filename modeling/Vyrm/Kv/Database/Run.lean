import Vyrm.Kv.Database.Compact
import Vyrm.Kv.Database.Create
import Vyrm.Kv.Database.Install
import Vyrm.Kv.Database.Maintain
import Vyrm.Kv.Database.Write

/-!
# Runs

A run starts with `Database::create` and goes on with any operations of the
public interface and any number of times of closing and opening the database.
Every operation meets an oracle of its own. What a run may meet is given by a
policy: a condition on the moment at which an operation starts and on what it
returned. The representation invariant holds in every state of a calm run.
-/

namespace Vyrm.Kv
open Lib Lib.FaultFs

variable [Platform]

/-- A handle that `SnapshotBundleFile::open` has returned. -/
structure OpenedBundle where
  file : SnapshotBundleFile
  opened : ∃ path content, SnapshotBundleFile.openBytes path content = .ok file

/-- The operations of a database in use. -/
inductive Op where
  | write (batch : WriteBatch) (durability : Durability)
  | writeOwned (batch : WriteBatch) (durability : Durability)
  | sync
  | flushMemtable (at_ : Nat)
  | compact (protectedSnapshots : List Snapshot) (at_ : Nat)
  | installSnapshotBundle (bundle : SnapshotBundle) (at_ : Nat)
  | installSnapshotFile (bundle : OpenedBundle) (at_ : Nat)
  | checkpoint (name : Bytes) (at_ : Nat)
  | releaseCheckpoint (name : Bytes)
  | exportSnapshotBundle (at_ : Nat)
  | exportSnapshotFile (at_ : Nat) (destination : Path)
  | garbageCollect

/-- Drops the value of a result and keeps whether there was one. -/
def forget {α : Type} (body : Io (Except Error α × Database)) :
    Io (Except Error Unit × Database) := do
  let (result, db) ← body
  return (result.map fun _ => (), db)

/-- An operation that does not change the database value. -/
def observing {α : Type} (db : Database) (body : Io α) : Io (Except Error Unit × Database) := do
  let result ← attempt body
  return (result.map fun _ => (), db)

/-- Runs an operation: its result without the value, and the database it leaves. -/
def Op.run (db : Database) : Op → Io (Except Error Unit × Database)
  | .write batch durability => forget (db.write batch durability)
  | .writeOwned batch durability => forget (db.writeOwned batch durability)
  | .sync => forget db.sync
  | .flushMemtable at_ => forget (db.flushMemtable at_)
  | .compact protectedSnapshots at_ => forget (db.compact protectedSnapshots at_)
  | .installSnapshotBundle bundle at_ => forget (db.installSnapshotBundle bundle at_)
  | .installSnapshotFile bundle at_ => forget (db.installSnapshotFile bundle.file at_)
  | .checkpoint name at_ => observing db (db.checkpoint name at_)
  | .releaseCheckpoint name => observing db (db.releaseCheckpoint name)
  | .exportSnapshotBundle at_ => forget (db.exportSnapshotBundle at_)
  | .exportSnapshotFile at_ destination => forget (db.exportSnapshotFile at_ destination)
  | .garbageCollect => observing db db.garbageCollect

/-- The batch that an operation writes. -/
def Op.batch : Op → Option WriteBatch
  | .write batch _ => some batch
  | .writeOwned batch _ => some batch
  | _ => none

/-- What a run is at: the directory, the process, and the database in use. -/
structure State where
  files : Files Path
  process : Process
  db : Database

/-- What happened in a run. -/
inductive Event where
  | did (op : Op) (result : Except Error Unit)
  | reopened

/-- A condition on an operation: the moment it starts, and what it returned. -/
abbrev Policy := World Path Directory Process → Database → Op → Except Error Unit → Prop

/-- The runs from `Database::create` that keep to a policy, with their trace. -/
inductive Run (policy : Policy) : List Event → State → Prop where
  | create {files : Files Path} {process : Process} {oracle : Oracle Path Directory} {tick : Nat}
      {db : Database} {w : World Path Directory Process}
      (created : Database.create ⟨files, process, oracle, tick⟩ = .ok db w) :
      Run policy [] ⟨w.files, w.process, db⟩
  | step {trace : List Event} {files : Files Path} {process : Process} {db db' : Database}
      {oracle : Oracle Path Directory} {tick : Nat} {op : Op} {result : Except Error Unit}
      {w : World Path Directory Process} (before : Run policy trace ⟨files, process, db⟩)
      (allowed : policy ⟨files, process, oracle, tick⟩ db op result)
      (ran : op.run db ⟨files, process, oracle, tick⟩ = .ok (result, db') w) :
      Run policy (trace ++ [.did op result]) ⟨w.files, w.process, db'⟩
  | reopen {trace : List Event} {files : Files Path} {process process' : Process} {db db' : Database}
      {oracle : Oracle Path Directory} {tick : Nat} {w : World Path Directory Process}
      (before : Run policy trace ⟨files, process, db⟩)
      (opened : Database.open ⟨files, process', oracle, tick⟩ = .ok db' w) :
      Run policy (trace ++ [.reopened]) ⟨w.files, w.process, db'⟩

theorem Run.mono {policy policy' : Policy} {trace : List Event} {state : State}
    (weaker : ∀ w db op result, policy w db op result → policy' w db op result)
    (run : Run policy trace state) : Run policy' trace state := by
  induction run with
  | create created => exact .create created
  | step _ allowed ran ih => exact .step ih (weaker _ _ _ _ allowed) ran
  | reopen _ opened ih => exact .reopen ih opened

/-- The policy under which a database stays in step with its directory: the sync of the root
directory does not fail, and a write does not meet an I/O error. Any other file operation may
fail. -/
def Calm : Policy := fun w _ op result =>
  ¬ Faulty w.oracle (.syncDirectory .root) ∧
    (op.batch.isSome → ∀ e, result = .error e → e.isIo = false)

/-! ## Taking an operation apart -/

section Peel

variable {α β : Type} {w w' : World Path Directory Process} {db db' : Database}

omit [Platform] in
theorem bind_ok {body : Io α} {next : α → Io β} {b : β} (ran : (body >>= next) w = .ok b w') :
    ∃ a w₁, body w = .ok a w₁ ∧ next a w₁ = .ok b w' := by
  change EStateM.bind body next w = _ at ran
  unfold EStateM.bind at ran
  split at ran
  · rename_i a w₁ first
    exact ⟨a, w₁, first, ran⟩
  · cases ran

omit [Platform] in
theorem bind_error {body : Io α} {next : α → Io β} {stop : Stop Error}
    (ran : (body >>= next) w = .error stop w') :
    body w = .error stop w' ∨ ∃ a w₁, body w = .ok a w₁ ∧ next a w₁ = .error stop w' := by
  change EStateM.bind body next w = _ at ran
  unfold EStateM.bind at ran
  split at ran
  · rename_i a w₁ first
    exact .inr ⟨a, w₁, first, ran⟩
  · rename_i stop' w₁ first
    cases ran
    exact .inl first

omit [Platform] in
theorem forget_ok {body : Io (Except Error α × Database)} {result : Except Error Unit}
    (ran : forget body w = .ok (result, db') w') :
    ∃ value, body w = .ok (value, db') w' ∧ result = value.map fun _ => () := by
  obtain ⟨⟨value, after⟩, w₁, first, last⟩ := bind_ok ran
  cases last
  exact ⟨value, first, rfl⟩

omit [Platform] in
theorem forget_error {body : Io (Except Error α × Database)} {stop : Stop Error}
    (ran : forget body w = .error stop w') : body w = .error stop w' := by
  rcases bind_error ran with first | ⟨_, _, -, last⟩
  · exact first
  · cases last

omit [Platform] in
theorem attempt_ok {body : Io α} {value : Except Error α} (ran : attempt body w = .ok value w') :
    (∃ a, body w = .ok a w' ∧ value = .ok a) ∨
      ∃ e, body w = .error (.error e) w' ∧ value = .error e := by
  unfold attempt at ran
  split at ran
  · rename_i a w₁ first
    cases ran
    exact .inl ⟨a, first, rfl⟩
  · rename_i e w₁ first
    cases ran
    exact .inr ⟨e, first, rfl⟩
  · cases ran

omit [Platform] in
theorem committing_ok {σ : Type} {self self' : σ} {body : Io (α × σ)} {value : Except Error α}
    (ran : committing self body w = .ok (value, self') w') :
    (∃ a, body w = .ok (a, self') w' ∧ value = .ok a) ∨
      ∃ e, body w = .error (.error e) w' ∧ value = .error e ∧ self' = self := by
  unfold committing at ran
  split at ran
  · rename_i a next w₁ first
    cases ran
    exact .inl ⟨a, first, rfl⟩
  · rename_i e w₁ first
    cases ran
    exact .inr ⟨e, first, rfl, rfl⟩
  · cases ran

omit [Platform] in
theorem observing_ok {body : Io α} {result : Except Error Unit}
    (ran : observing db body w = .ok (result, db') w') :
    db' = db ∧ ∃ value, attempt body w = .ok value w' := by
  obtain ⟨value, w₁, first, last⟩ := bind_ok ran
  cases last
  exact ⟨rfl, value, first⟩

omit [Platform] in
/-- However a body ended that an operation attempted, what it spares is as it was. -/
theorem spared_of_attempt {kept : Path → Prop} {body : Io α} {value : Except Error α}
    (spares : Spares w.oracle kept body) (ran : attempt body w = .ok value w') :
    ∀ path, kept path → w'.files.lookup path = w.files.lookup path :=
  ((Spares.attempt spares w.files w.process).run_ok ran).2

end Peel

/-! ## What an operation can do -/

/-- An operation that flushes first. -/
def Op.flushesAt : Op → Option Nat
  | .flushMemtable at_ => some at_
  | .compact _ at_ => some at_
  | .exportSnapshotBundle at_ => some at_
  | .exportSnapshotFile at_ _ => some at_
  | _ => none

/-- The manifest that an operation installs. -/
def Op.source : Op → Option Manifest
  | .installSnapshotBundle bundle _ => some bundle.sourceManifest
  | .installSnapshotFile bundle _ => some bundle.file.sourceManifest
  | _ => none

/-- The segments that an operation installs from a directory. -/
def Op.Imports (files : Files Path) : Op → List Segment → Prop
  | .installSnapshotBundle bundle _, imported => bundle.validatedSegments = .ok imported
  | .installSnapshotFile bundle _, imported => ∀ content, files.lookup bundle.file.path = some content →
    FileValidates content bundle.file.segments imported
  | _, _ => False

/-- Everything that an operation can have done to a live database, in a calm run. -/
inductive Did (w : World Path Directory Process) (db : Database) (stored : List Segment)
    (pending : List WriteBatch) :
    Op → Except Error Unit → Files Path → Database → List Segment → List WriteBatch → Prop where
  /-- Nothing, but for files that the published manifest does not name. -/
  | kept {op : Op} {result : Except Error Unit} {f : Files Path}
      (keeps : Keeps w.files f db.manifest)
      (rejected : op.batch.isSome → ∃ e, result = .error e)
      (installed : ∀ source, op.source = some source → result = .ok () → db.alreadyInstalled source)
      (empty : ∀ snapshots at_, op = .compact snapshots at_ → result = .ok () →
        operationsOf pending = [] ∧ db.segments = []) :
      Did w db stored pending op result f db stored pending
  /-- A batch was accepted. -/
  | wrote {op : Op} {batch : WriteBatch} {f : Files Path} (isBatch : op.batch = some batch)
      (live : Live f (db.afterWriting pending batch) stored (pending ++ [batch])) :
      Did w db stored pending op (.ok ()) f (db.afterWriting pending batch) stored
        (pending ++ [batch])
  /-- The memtable was flushed, and nothing after it was published. -/
  | flushed {op : Op} {result : Except Error Unit} {at_ : Nat} {g f : Files Path}
      {segment : Segment} {next : Manifest} {stored' : List Segment}
      (first : op.flushesAt = some at_) (flushed : Flushed w.files g db at_ stored segment next stored')
      (keeps : Keeps g f next)
      (compacted : ∀ snapshots at_, op = .compact snapshots at_ → ∃ e, result = .error e) :
      Did w db stored pending op result f (db.afterFlushing next segment) stored' []
  /-- The segments were compacted, after a flush that had nothing to do or did it. -/
  | compacted {snapshots : List Snapshot} {at_ : Nat} {flushed : Option Manifest} {mid : Database}
      {w₁ : World Path Directory Process} {stored₁ compacted : List Segment}
      {pending₁ : List WriteBatch} {f : Files Path} {next : Manifest}
      (first : db.flushMemtable at_ w = .ok (.ok flushed, mid) w₁)
      (live : Live w₁.files mid stored₁ pending₁) (empty : operationsOf pending₁ = [])
      (compaction : Compacted w₁.files f mid snapshots at_ pending₁ next compacted) :
      Did w db stored pending (.compact snapshots at_) (.ok ()) f
        (mid.afterCompacting next compacted) compacted pending₁
  /-- A snapshot was installed. -/
  | installed {op : Op} {at_ : Nat} {source next : Manifest} {imported : List Segment}
      {f : Files Path} (isSource : op.source = some source) (imports : op.Imports w.files imported)
      (advances : db.snapshot.sequence < source.durableSequence)
      (installed : Installed f db source at_ imported next) :
      Did w db stored pending op (.ok ()) f (Database.afterInstalling source next imported)
        (canonicalOrder imported) []

theorem Did.live {w : World Path Directory Process} {db db' : Database}
    {stored stored' : List Segment} {pending pending' : List WriteBatch} {op : Op}
    {result : Except Error Unit} {f : Files Path}
    (did : Did w db stored pending op result f db' stored' pending')
    (live : Live w.files db stored pending) : Live f db' stored' pending' := by
  cases did with
  | kept keeps => exact live.keeps keeps
  | wrote _ live => exact live
  | flushed _ flushed keeps => exact (flushed.live live).keeps keeps
  | compacted _ live _ compaction => exact compaction.live live
  | installed _ _ _ installed => exact installed.live

section Did

variable {w w' : World Path Directory Process} {db db' : Database} {stored : List Segment}
  {pending : List WriteBatch} {op : Op} {result : Except Error Unit}

/-- An operation that writes a batch. -/
theorem did_write {batch : WriteBatch} {durability : Durability} (isBatch : op.batch = some batch)
    (live : Live w.files db stored pending) (calm : Calm w db op result)
    (ran : forget (db.write batch durability) w = .ok (result, db') w') :
    ∃ stored' pending', Did w db stored pending op result w'.files db' stored' pending' := by
  have notCompact : ∀ snapshots at_, op ≠ .compact snapshots at_ := by
    rintro snapshots at_ rfl
    cases isBatch
  have noSource : op.source = none := by
    cases op <;> first | rfl | cases isBatch
  obtain ⟨value, wrote, rfl⟩ := forget_ok ran
  have outcome := ((write_wp live).run_ok wrote).2
  cases value with
  | ok receipt =>
    obtain ⟨-, rfl, live', -⟩ := outcome
    exact ⟨_, _, .wrote isBatch live'⟩
  | error e =>
    have notIo := calm.2 (by rw [isBatch]; rfl) e rfl
    rcases outcome with ⟨rfl, same, -⟩ | ⟨io, -⟩
    · refine ⟨_, _, .kept ?_ (fun _ => ⟨e, rfl⟩) ?_ (fun _ _ h => absurd h (notCompact _ _))⟩
      · rw [same]
        exact keeps_of_grows (Grows.refl _) _
      · intro source isSource
        rw [noSource] at isSource
        cases isSource
    · rw [notIo] at io
      cases io

/-- A failed or empty flush keeps the directory; any other one publishes. -/
theorem did_flush {at_ : Nat} {flushed : Except Error (Option Manifest)} {mid : Database}
    (live : Live w.files db stored pending) (calm : ¬ Faulty w.oracle (.syncDirectory .root))
    (ran : db.flushMemtable at_ w = .ok (flushed, mid) w') :
    (mid = db ∧ Keeps w.files w'.files db.manifest ∧
        ((∃ e, flushed = .error e) ∨ flushed = .ok none ∧ operationsOf pending = [] ∧
          w'.files = w.files)) ∨
      ∃ segment next stored', flushed = .ok (some next) ∧
        Flushed w.files w'.files db at_ stored segment next stored' ∧
        mid = db.afterFlushing next segment := by
  have outcome := ((flushMemtable_wp live).run_ok ran).2
  rcases flushed with e | _ | next
  · obtain ⟨rfl, stopped, -⟩ := outcome
    rcases stopped with wrote | ⟨faulty, -⟩
    · exact .inl ⟨rfl, keeps_of_grows wrote.grows _, .inl ⟨e, rfl⟩⟩
    · exact absurd faulty calm
  · obtain ⟨rfl, same, empty⟩ := outcome
    exact .inl ⟨rfl, by rw [same]; exact keeps_of_grows (Grows.refl _) _, .inr ⟨rfl, empty, same⟩⟩
  · obtain ⟨-, segment, stored', flushed, rfl, -⟩ := outcome
    exact .inr ⟨segment, next, stored', rfl, flushed, rfl⟩

theorem afterFlush_ok {α : Type} {at_ : Nat} {body : Database → Io α} {value : Except Error α}
    (ran : db.afterFlush at_ body w = .ok (value, db') w') :
    (∃ e, db.flushMemtable at_ w = .ok (.error e, db') w' ∧ value = .error e) ∨
      ∃ flushed w₁, db.flushMemtable at_ w = .ok (.ok flushed, db') w₁ ∧
        attempt (body db') w₁ = .ok value w' := by
  unfold Database.afterFlush at ran
  obtain ⟨⟨flushed, mid⟩, w₁, first, rest⟩ := bind_ok ran
  cases flushed with
  | error e =>
    cases rest
    exact .inl ⟨e, first, rfl⟩
  | ok flushed =>
    obtain ⟨result, w₂, second, last⟩ := bind_ok rest
    cases last
    exact .inr ⟨flushed, w₁, first, second⟩

/-- An export: a flush, and then nothing that a manifest names. -/
theorem did_export {α : Type} {at_ : Nat} {body : Database → Io α}
    (flushes : op.flushesAt = some at_) (notCompact : ∀ snapshots at_, op ≠ .compact snapshots at_)
    (live : Live w.files db stored pending) (calm : ¬ Faulty w.oracle (.syncDirectory .root))
    (harmless : ∀ db files process stored pending, Live files db stored pending →
      wp w.oracle (attempt (body db)) (fun _ f _ => Keeps files f db.manifest) files process)
    (ran : forget (db.afterFlush at_ body) w = .ok (result, db') w') :
    ∃ stored' pending', Did w db stored pending op result w'.files db' stored' pending' := by
  have noBatch : op.batch = none := by
    cases op <;> first | rfl | cases flushes
  have noSource : op.source = none := by
    cases op <;> first | rfl | cases flushes
  have kept : ∀ {f}, Keeps w.files f db.manifest →
      Did w db stored pending op result f db stored pending := by
    intro f keeps
    refine .kept keeps ?_ ?_ (fun _ _ h => absurd h (notCompact _ _))
    · rw [noBatch]
      intro h
      cases h
    · intro source isSource
      rw [noSource] at isSource
      cases isSource
  obtain ⟨value, exported, rfl⟩ := forget_ok ran
  rcases afterFlush_ok exported with ⟨e, first, rfl⟩ | ⟨flushed, w₁, first, second⟩
  · rcases did_flush live calm first with ⟨rfl, keeps, -⟩ | ⟨segment, next, stored', impossible, -⟩
    · exact ⟨_, _, kept keeps⟩
    · cases impossible
  · have oracle := ((flushMemtable_wp live).run_ok first).1
    rw [← oracle] at harmless
    rcases did_flush live calm first with ⟨rfl, -, ⟨e, impossible⟩ | ⟨-, -, same⟩⟩ |
      ⟨segment, next, stored', -, flushed, rfl⟩
    · cases impossible
    · rw [← same] at live
      have keeps := ((harmless _ _ _ _ _ live).run_ok second).2
      rw [same] at keeps
      exact ⟨_, _, kept keeps⟩
    · have keeps := ((harmless _ _ _ _ _ (flushed.live live)).run_ok second).2
      exact ⟨_, _, .flushed flushes flushed keeps (fun _ _ h => absurd h (notCompact _ _))⟩

theorem compactInner_ok {snapshots : List Snapshot} {at_ : Nat}
    {value : Except Error (Option Database.CompactionOutcome)}
    (ran : db.compact snapshots at_ w = .ok (value, db') w') :
    (∃ e, db.flushMemtable at_ w = .ok (.error e, db') w' ∧ value = .error e) ∨
      ∃ flushed mid w₁, db.flushMemtable at_ w = .ok (.ok flushed, mid) w₁ ∧
        (mid.segments = [] ∧ value = .ok none ∧ db' = mid ∧ w' = w₁ ∨
          mid.segments ≠ [] ∧ ∃ compacted,
            committing mid (mid.compactPublish snapshots at_ none) w₁ = .ok (compacted, db') w' ∧
            value = compacted.map some) := by
  unfold Database.compact Database.compactInner at ran
  obtain ⟨⟨flushed, mid⟩, w₁, first, rest⟩ := bind_ok ran
  cases flushed with
  | error e =>
    cases rest
    exact .inl ⟨e, first, rfl⟩
  | ok flushed =>
    refine .inr ⟨flushed, mid, w₁, first, ?_⟩
    dsimp only at rest
    split at rest
    · rename_i none_
      cases rest
      exact .inl ⟨none_, rfl, rfl, rfl⟩
    · rename_i some_
      obtain ⟨⟨compacted, after⟩, w₂, second, last⟩ := bind_ok rest
      refine .inr ⟨some_, compacted, ?_⟩
      cases compacted with
      | error e =>
        cases last
        exact ⟨second, rfl⟩
      | ok outcome =>
        cases last
        exact ⟨second, rfl⟩

/-- The publishing part of a compaction. -/
theorem committed {snapshots : List Snapshot} {at_ : Nat} {mid : Database}
    {oracle : Oracle Path Directory} {value : Except Error Database.CompactionOutcome}
    (live : Live w.files mid stored pending) (same : w.oracle = oracle)
    (calm : ¬ Faulty oracle (.syncDirectory .root))
    (ran : committing mid (mid.compactPublish snapshots at_ none) w = .ok (value, db') w') :
    (∃ e, value = .error e ∧ db' = mid ∧ Grows w.files w'.files) ∨
      ∃ next segments outcome, value = .ok outcome ∧ db' = mid.afterCompacting next segments ∧
        Compacted w.files w'.files mid snapshots at_ pending next segments := by
  rcases committing_ok ran with ⟨outcome, published, rfl⟩ | ⟨e, failed, rfl, rfl⟩
  · obtain ⟨next, segments, compaction, rfl⟩ := ((compactPublish_wp live).run_ok published).2
    exact .inr ⟨next, segments, outcome, rfl, rfl, compaction⟩
  · rcases (compactPublish_wp live).run_error failed with grows | ⟨faulty, -⟩
    · exact .inl ⟨e, rfl, rfl, grows⟩
    · rw [same] at faulty
      exact absurd faulty calm

theorem did_compact {snapshots : List Snapshot} {at_ : Nat}
    (live : Live w.files db stored pending) (calm : ¬ Faulty w.oracle (.syncDirectory .root))
    (ran : forget (db.compact snapshots at_) w = .ok (result, db') w') :
    ∃ stored' pending', Did w db stored pending (.compact snapshots at_) result w'.files db' stored'
      pending' := by
  have failed : ∀ {e f}, Keeps w.files f db.manifest →
      Did w db stored pending (.compact snapshots at_) (.error e) f db stored pending := by
    intro e f keeps
    exact .kept keeps (by intro h; cases h) (by intro _ h; cases h) (by intro _ _ _ h; cases h)
  obtain ⟨value, ran', rfl⟩ := forget_ok ran
  rcases compactInner_ok ran' with ⟨e, first, rfl⟩ | ⟨flushed, mid, w₁, first, rest⟩
  · rcases did_flush live calm first with ⟨rfl, keeps, -⟩ | ⟨segment, next, stored', impossible, -⟩
    · exact ⟨_, _, failed keeps⟩
    · cases impossible
  · have oracle := ((flushMemtable_wp live).run_ok first).1
    rcases did_flush live calm first with ⟨rfl, keeps, ⟨e, impossible⟩ | ⟨-, empty, same⟩⟩ |
      ⟨segment, next, stored', -, flushed, rfl⟩
    · cases impossible
    · rcases rest with ⟨none_, rfl, rfl, rfl⟩ | ⟨-, compacted, second, rfl⟩
      · refine ⟨_, _, .kept keeps (by intro h; cases h) (by intro _ h; cases h) ?_⟩
        exact fun _ _ _ _ => ⟨empty, none_⟩
      · have live₁ := live
        rw [← same] at live₁
        rcases committed live₁ oracle calm second with ⟨e, rfl, rfl, grows⟩ |
          ⟨next, segments, outcome, rfl, rfl, compaction⟩
        · exact ⟨_, _, failed (by rw [← same]; exact keeps_of_grows grows _)⟩
        · exact ⟨_, _, .compacted first live₁ empty compaction⟩
    · have live₁ := flushed.live live
      rcases rest with ⟨none_, -⟩ | ⟨-, compacted, second, rfl⟩
      · exact absurd none_ (by simp [Database.afterFlushing])
      · rcases committed live₁ oracle calm second with ⟨e, rfl, rfl, grows⟩ |
          ⟨next, segments, outcome, rfl, rfl, compaction⟩
        · exact ⟨_, _, .flushed rfl flushed (keeps_of_grows grows _) (fun _ _ _ => ⟨e, rfl⟩)⟩
        · exact ⟨_, _, .compacted first live₁ rfl compaction⟩

/-- An installation. -/
theorem did_install {at_ : Nat} {source : Manifest} {content : List Segment → Prop}
    {body : Io (Except Error Manifest × Database)} (isSource : op.source = some source)
    (imports : ∀ imported, content imported → op.Imports w.files imported)
    (calm : ¬ Faulty w.oracle (.syncDirectory .root))
    (spec : wp w.oracle body (fun r f _ => InstallOutcome w.oracle w.files db source at_ content r f)
      w.files w.process)
    (ran : forget body w = .ok (result, db') w') :
    ∃ stored' pending', Did w db stored pending op result w'.files db' stored' pending' := by
  have noBatch : op.batch = none := by
    cases op <;> first | rfl | cases isSource
  have notCompact : ∀ snapshots at_, op ≠ .compact snapshots at_ := by
    rintro snapshots at_ rfl
    cases isSource
  obtain ⟨value, ended, rfl⟩ := forget_ok ran
  have outcome := (spec.run_ok ended).2
  cases value with
  | error e =>
    obtain ⟨rfl, grows | ⟨faulty, -⟩⟩ := outcome
    · refine ⟨_, _, .kept (keeps_of_grows grows _) (fun _ => ⟨e, rfl⟩) (by intro _ _ h; cases h)
        (fun _ _ h => absurd h (notCompact _ _))⟩
    · exact absurd faulty calm
  | ok manifest =>
    rcases outcome with ⟨already, -, rfl, same⟩ | ⟨-, advances, imported, isContent, installed, rfl⟩
    · refine ⟨_, _, .kept ?_ ?_ ?_ (fun _ _ h => absurd h (notCompact _ _))⟩
      · rw [same]
        exact keeps_of_grows (Grows.refl _) _
      · rw [noBatch]
        intro h
        cases h
      · intro other isOther _
        rw [isSource, Option.some.injEq] at isOther
        rw [← isOther]
        exact already
    · exact ⟨_, _, .installed isSource (imports imported isContent) advances installed⟩

/-- An operation that leaves alone what the manifest in use names. -/
theorem did_observe {α : Type} {body : Io α} (noBatch : op.batch = none) (noSource : op.source = none)
    (notCompact : ∀ snapshots at_, op ≠ .compact snapshots at_)
    (live : Live w.files db stored pending) (spares : Spares w.oracle db.manifest.Names body)
    (ran : observing db body w = .ok (result, db') w') :
    ∃ stored' pending', Did w db stored pending op result w'.files db' stored' pending' := by
  obtain ⟨rfl, value, attempted⟩ := observing_ok ran
  refine ⟨_, _, .kept (keeps_of_spared live.disk.start (spared_of_attempt spares attempted)) ?_ ?_
    (fun _ _ h => absurd h (notCompact _ _))⟩
  · rw [noBatch]
    intro h
    cases h
  · intro source isSource
    rw [noSource] at isSource
    cases isSource

/-- What an operation of a calm run has done. -/
theorem Op.did (live : Live w.files db stored pending) (calm : Calm w db op result)
    (ran : op.run db w = .ok (result, db') w') :
    ∃ stored' pending', Did w db stored pending op result w'.files db' stored' pending' := by
  cases op with
  | write batch durability => exact did_write rfl live calm ran
  | writeOwned batch durability => exact did_write rfl live calm ran
  | sync =>
    obtain ⟨value, synced, rfl⟩ := forget_ok ran
    obtain ⟨-, same, outcome⟩ := (sync_wp live).run_ok synced
    have unchanged : db' = db := by
      cases value with
      | ok through => exact outcome.1
      | error e => exact outcome.1
    subst unchanged
    refine ⟨_, _, .kept ?_ (by intro h; cases h) (by intro _ h; cases h) (by intro _ _ h; cases h)⟩
    rw [same]
    exact keeps_of_grows (Grows.refl _) _
  | flushMemtable at_ =>
    obtain ⟨value, ended, rfl⟩ := forget_ok ran
    rcases did_flush live calm.1 ended with ⟨rfl, keeps, -⟩ |
      ⟨segment, next, stored', rfl, flushed, rfl⟩
    · exact ⟨_, _, .kept keeps (by intro h; cases h) (by intro _ h; cases h)
        (by intro _ _ h; cases h)⟩
    · exact ⟨_, _, .flushed rfl flushed (keeps_of_grows (Grows.refl _) _)
        (by intro _ _ h; cases h)⟩
  | compact snapshots at_ => exact did_compact live calm.1 ran
  | installSnapshotBundle bundle at_ =>
    exact did_install rfl (fun _ imported => imported) calm.1 (installSnapshotBundle_wp live) ran
  | installSnapshotFile bundle at_ =>
    obtain ⟨path, content, opened⟩ := bundle.opened
    obtain ⟨-, segments, valid⟩ := SnapshotBundleFile.valid_of_openBytes opened
    exact did_install rfl (fun _ imported => imported) calm.1
      (installSnapshotFile_wp live valid.descriptors) ran
  | checkpoint name at_ =>
    exact did_observe rfl rfl (by simp) live
      (spares_checkpoint name at_ fun _ named => names_not_checkpoint named) ran
  | releaseCheckpoint name =>
    exact did_observe rfl rfl (by simp) live
      (spares_releaseCheckpoint name fun _ named => (names_not_checkpoint named).1) ran
  | exportSnapshotBundle at_ =>
    apply did_export rfl (by simp) live calm.1 _ ran
    intro mid files process stored pending live
    have spares : Spares w.oracle mid.manifest.Names (do
        let segments ← Database.readSnapshotSegments mid.manifest.segments
        SnapshotBundle.new mid.manifest segments : Io SnapshotBundle) :=
      (spares_readSnapshotSegments _).bind fun _ => spares_lift _
    apply ((Spares.attempt spares) files process).mono
    exact fun _ _ _ same => keeps_of_spared live.disk.start same
  | exportSnapshotFile at_ destination =>
    apply did_export rfl (by simp) live calm.1 _ ran
    intro mid files process stored pending live
    apply wp_attempt
    apply createBundle_grows.mono
    rintro ((e | _) | file) f p grows
    · exact keeps_of_grows grows _
    · exact keeps_of_grows grows _
    · exact keeps_of_grows grows _
  | garbageCollect => exact did_observe rfl rfl (by simp) live spares_garbageCollect ran

end Did

/-! ## The representation invariant -/

/-- Opening a live directory gives the database that its files describe. -/
theorem Live.reopened {files : Files Path} {db db' : Database} {stored : List Segment}
    {pending : List WriteBatch} {process : Process} {oracle : Oracle Path Directory} {tick : Nat}
    {w : World Path Directory Process} (live : Live files db stored pending)
    (opened : Database.open ⟨files, process, oracle, tick⟩ = .ok db' w) :
    db' = Database.opened db.manifest stored pending ∧ Locked files w.files := by
  obtain ⟨-, -, locked, rfl⟩ := (open_wp live.disk).run_ok opened
  exact ⟨rfl, locked⟩

/-- In every state of a calm run the database is live. -/
theorem Run.live {trace : List Event} {state : State} (run : Run Calm trace state) :
    ∃ stored pending, Live state.files state.db stored pending := by
  induction run with
  | create created =>
    obtain ⟨-, -, rfl, disk, -⟩ := create_wp.run_ok created
    exact ⟨_, _, Live.opened disk⟩
  | step _ allowed ran ih =>
    obtain ⟨stored, pending, live⟩ := ih
    obtain ⟨stored', pending', did⟩ := Op.did live allowed ran
    exact ⟨_, _, did.live live⟩
  | reopen _ opened ih =>
    obtain ⟨stored, pending, live⟩ := ih
    obtain ⟨rfl, locked⟩ := live.reopened opened
    exact ⟨_, _, Live.opened (live.disk.grows locked.grows)⟩

end Vyrm.Kv
