import Vyrm.Lib.Crash
import Vyrm.Core.Runtime.Snapshot
import Vyrm.Kv.Manifest
import Vyrm.Store.Fjall
import Vyrm.Store.Native.Rows
import Vyrm.Store.Migration.Archive

/-!
# Migration between the substrates

`crates/vyrm-store/src/migration.rs`: the export of a Fjall store, the staged native
database, the two renames that put it in the place of the source, and the way back. A
program here is a sequence of file-system operations, each of which takes place as a
whole; a crash can come after any of them.

A native database is known by the operations it has accepted, a Fjall database by its
rows. Contents of temporary files, directory syncs and the texts of paths are left out.
-/

namespace Vyrm.Store.Migration
open Lib Lib.Crash Vyrm.Core Serde

/-! ## What stands on disk -/

/-- `MigrationPhase` (`migration.rs:36-47`). -/
inductive MigrationPhase where
  | exported
  | imported
  | verified
  | sourceMoved
  | cutover
  | complete
  | rollbackNativeMoved
  | rolledBack
  deriving DecidableEq

/-- The place of a phase in the derived order. -/
def MigrationPhase.rank : MigrationPhase → Nat
  | exported => 0
  | imported => 1
  | verified => 2
  | sourceMoved => 3
  | cutover => 4
  | complete => 5
  | rollbackNativeMoved => 6
  | rolledBack => 7

/-- `NativeStateToken` (`migration.rs:76-80`). -/
structure NativeStateToken where
  manifest : String
  sequence : Nat
  deriving DecidableEq

/-- `MigrationReport` (`migration.rs:82-93`), its paths apart. -/
structure MigrationReport where
  contractVersion : Nat
  phase : MigrationPhase
  inventory : MigrationInventory
  nativeState : Option NativeStateToken
  deriving DecidableEq

/-- How `vyrm-kv` names a manifest: by its parent, its instant and what it makes durable. -/
class Manifests where
  digest : Option String → Nat → List Kv.Mutation → String

/-- The directory of a native database: the operations it has accepted, its current manifest, how
many of the operations that makes durable, and the files under `checkpoints`. -/
structure NativeDirectory where
  operations : List Kv.Mutation
  manifest : String
  createdAt : Nat
  durable : Nat
  checkpoints : List Bytes
  temporaries : List (Bytes × Nat)

namespace NativeDirectory

variable [Manifests]

/-- `Database::create` (`database.rs:122-151`). -/
def create : NativeDirectory :=
  { operations := [], manifest := Manifests.digest none 0 [], createdAt := 0, durable := 0,
    checkpoints := [], temporaries := [] }

omit [Manifests] in
/-- `Database::write_owned` (`database.rs:225-240`). -/
def writeOwned (database : NativeDirectory) (batch : Kv.WriteBatch) : Except Error NativeDirectory := do
  let _ ← storage batch.encode
  return { database with operations := database.operations ++ batch.operations }

/-- `Database::flush_memtable` (`database.rs:249-319`). -/
def flushMemtable (database : NativeDirectory) (at_ : Nat) : NativeDirectory :=
  if database.durable = database.operations.length then database
  else
    { database with
      manifest := Manifests.digest (some database.manifest) at_ database.operations
      createdAt := at_
      durable := database.operations.length }

omit [Manifests]

def rows (database : NativeDirectory) : Rows := Rows.ofHistory database.operations

/-- What `native_state` reads (`migration.rs:521-527`). -/
def token (database : NativeDirectory) : NativeStateToken :=
  ⟨database.manifest, database.operations.length⟩

end NativeDirectory

/-- The directory of a Fjall database: the keyspaces of the engine, all of which `Store::open`
creates, and the names of others. -/
structure FjallDirectory where
  store : Fjall
  unknown : List Bytes

/-- What a directory holds. The files of a native database that is being written or removed count
for nothing until it is done. -/
inductive Directory where
  | fjall (directory : FjallDirectory)
  | native (database : NativeDirectory)
  | unfinished

/-- `path.join("CURRENT").is_file()`. -/
def hasCurrent : Option Directory → Bool
  | some (.native _) => true
  | _ => false

/-- The directories of a migration (`migration.rs:95-102`). -/
inductive Place where
  | source
  | staging
  | backup
  | retired
  deriving DecidableEq

/-- The temporary files beside them, by the process and the number in their names. -/
inductive Temporary where
  | marker (pid id : Nat)
  | archive (pid id : Nat)
  | verification (pid id : Nat)
  deriving DecidableEq

def Temporary.pid : Temporary → Nat
  | marker pid _ => pid
  | archive pid _ => pid
  | verification pid _ => pid

def Temporary.id : Temporary → Nat
  | marker _ id => id
  | archive _ id => id
  | verification _ id => id

/-- All that a migration reads and writes. -/
structure Disk where
  source : Option Directory
  staging : Option Directory
  backup : Option Directory
  retired : Option Directory
  archive : Option Bytes
  marker : Option MigrationReport
  temporaries : List Temporary

namespace Disk

def get (disk : Disk) : Place → Option Directory
  | .source => disk.source
  | .staging => disk.staging
  | .backup => disk.backup
  | .retired => disk.retired

def set (disk : Disk) (place : Place) (directory : Option Directory) : Disk :=
  match place with
  | .source => { disk with source := directory }
  | .staging => { disk with staging := directory }
  | .backup => { disk with backup := directory }
  | .retired => { disk with retired := directory }

/-- A Fjall store that no migration has touched. -/
def fresh (original : FjallDirectory) : Disk :=
  { source := some (.fjall original), staging := none, backup := none, retired := none, archive := none,
    marker := none, temporaries := [] }

end Disk

/-- The running process: its id, the next `TEMP_ID`, and the next `POINTER_TEMPORARY_ID` of
`vyrm-kv`. -/
structure Process where
  pid : Nat
  temporaryId : Nat
  pointerId : Nat

abbrev Migrating := Program Disk Process Error

/-! ## File-system operations -/

/-- The process id, and a number for a temporary file. -/
def nextTemporary : Migrating (Nat × Nat) :=
  Program.update fun process =>
    ((process.pid, process.temporaryId), { process with temporaryId := process.temporaryId + 1 })

/-- `OpenOptions::create_new`. -/
def createNew (name : Temporary) : Migrating Unit :=
  Program.perform fun disk =>
    if name ∈ disk.temporaries then .error (.migration "File exists (os error 17)")
    else .ok { disk with temporaries := name :: disk.temporaries }

/-- `fs::rename` of a directory, over nothing. -/
def rename (before after : Place) : Migrating Unit :=
  Program.perform fun disk =>
    match disk.get before, disk.get after with
    | none, _ => .error (.migration "No such file or directory (os error 2)")
    | some _, some _ => .error (.migration "Directory not empty (os error 39)")
    | some directory, none => .ok ((disk.set before none).set after (some directory))

/-- One operation that always takes place. -/
def change (f : Disk → Disk) : Migrating Unit := Program.perform fun disk => .ok (f disk)

/-- `write_report` (`migration.rs:611-630`). -/
def writeReport (report : MigrationReport) : Migrating Unit := do
  let (pid, id) ← nextTemporary
  createNew (.marker pid id)
  change fun disk =>
    { disk with marker := some report, temporaries := disk.temporaries.erase (.marker pid id) }

/-! ## The native database -/

section Native

variable [Manifests] [Serde SnapshotHandle]

omit [Manifests] [Serde SnapshotHandle] in
/-- `Database::open` (`database.rs:153-196`). -/
def openDatabase (place : Place) : Migrating NativeDirectory := do
  match (← Program.look).get place with
  | some (.native database) => return database
  | _ => Program.fail (.storage (.invalidManifest "database has no CURRENT manifest"))

omit [Manifests] [Serde SnapshotHandle] in
/-- Work on the files of a database, which are unfinished in between. -/
def rework (place : Place) (work : NativeDirectory → Except Error NativeDirectory) : Migrating Unit := do
  let database ← openDatabase place
  let next ← Program.lift (work database)
  change fun disk => disk.set place (some .unfinished)
  change fun disk => disk.set place (some (.native next))

omit [Serde SnapshotHandle] in
/-- `Database::create`, which takes two temporary names for its manifest. -/
def createDatabase (place : Place) : Migrating Unit := do
  let disk ← Program.look
  Program.refuse ((disk.get place).isSome)
    (.storage (.invalidManifest "new database path exists and is not an empty directory"))
  change fun disk => disk.set place (some .unfinished)
  Program.update fun process => ((), { process with pointerId := process.pointerId + 2 })
  change fun disk => disk.set place (some (.native .create))

omit [Serde SnapshotHandle] in
/-- `Database::flush_memtable`, which takes two temporary names for a new manifest. -/
def flushDatabase (place : Place) (at_ : Nat) : Migrating Unit := do
  let database ← openDatabase place
  if database.durable = database.operations.length then return ()
  Program.update fun process => ((), { process with pointerId := process.pointerId + 2 })
  rework place fun database => .ok (database.flushMemtable at_)

/-- `RUNTIME_CHECKPOINT_PREFIX` (`native.rs:28`): `runtime-`. -/
def checkpointLabel : Bytes := [0x72, 0x75, 0x6e, 0x74, 0x69, 0x6d, 0x65, 0x2d]

omit [Manifests] [Serde SnapshotHandle] in
/-- `runtime_checkpoint_name` (`native.rs:1100-1102`). -/
def runtimeCheckpointName (id : SnapshotId) : Bytes := checkpointLabel ++ id.bytes

/-- The leases of a database that are to be pinned (`native.rs:1067-1080`), in the order of a
`BTreeSet`. -/
def desiredCheckpoints (rows : Rows) : Except Error (List Bytes) := do
  let leases ← rows.view.scanSpace .runtimeSnapshots []
  let handles ← View.fromSlices (α := SnapshotHandle) leases
  kernel (handles.forM SnapshotHandle.validate)
  return ((handles.map fun handle => runtimeCheckpointName handle.id).mergeSort (· ≤ ·)).dedup

omit [Manifests] [Serde SnapshotHandle] in
/-- `ManifestStore::checkpoint` (`manifest.rs:393-420`), of a name that is not taken. -/
def checkpoint (place : Place) (name : Bytes) : Migrating Unit := do
  let database ← openDatabase place
  Program.lift (storage (Kv.validateCheckpointName name))
  let id ← Program.update fun process =>
    (process.pointerId, { process with pointerId := process.pointerId + 1 })
  Program.refuse ((name, id) ∈ database.temporaries) (.storage (.io .alreadyExists))
  change fun disk => disk.set place (some (.native
    { database with temporaries := (name, id) :: database.temporaries }))
  change fun disk => disk.set place (some (.native
    { database with checkpoints := name :: database.checkpoints }))

omit [Manifests] [Serde SnapshotHandle] in
/-- `ManifestStore::release_checkpoint` (`manifest.rs:445-457`). -/
def releaseCheckpoint (place : Place) (name : Bytes) : Migrating Unit := do
  let database ← openDatabase place
  Program.lift (storage (Kv.validateCheckpointName name))
  change fun disk => disk.set place (some (.native
    { database with checkpoints := database.checkpoints.filter (· ≠ name) }))

omit [Manifests] [Serde SnapshotHandle] in
def checkpointAll (place : Place) : List Bytes → Migrating Unit
  | [] => pure ()
  | name :: rest => do
    checkpoint place name
    checkpointAll place rest

omit [Manifests] [Serde SnapshotHandle] in
def releaseAll (place : Place) : List Bytes → Migrating Unit
  | [] => pure ()
  | name :: rest => do
    releaseCheckpoint place name
    releaseAll place rest

/-- `reconcile_runtime_checkpoints` (`native.rs:1062-1098`), with no instant to expire leases at. -/
def reconcileRuntimeCheckpoints (place : Place) : Migrating Unit := do
  let database ← openDatabase place
  let desired ← Program.lift (desiredCheckpoints database.rows)
  let existing := database.checkpoints.filter (checkpointLabel.isPrefixOf ·)
  let missing := desired.filter (· ∉ existing)
  if missing ≠ [] then
    flushDatabase place database.createdAt
    checkpointAll place missing
  releaseAll place (existing.filter (· ∉ desired))

/-- `NativeEngine::open` (`native.rs:40-64`) of a directory that is there, and `Engine::sequence`. -/
def openEngine (place : Place) : Migrating Unit := do
  reconcileRuntimeCheckpoints place
  let database ← openDatabase place
  let _ ← Program.lift (database.rows.view.readSequence .sequenceWatermark)

end Native

/-! ## Export -/

/-- The rows of a store in the order of its export (`store.rs:150-157`). -/
def archiveRows (store : Fjall) : List Row :=
  Keyspace.all.zipIdx.flatMap fun (space, ordinal) =>
    (store.rows space).toList.map fun (key, value) => ⟨ordinal, key, value⟩

/-- Where an export goes: to the archive, or to a file that is removed again. -/
inductive Target where
  | archive
  | verification (pid id : Nat)

def Target.exists (target : Target) (disk : Disk) : Prop :=
  match target with
  | .archive => disk.archive.isSome
  | .verification pid id => .verification pid id ∈ disk.temporaries

instance (disk : Disk) : (target : Target) → Decidable (target.exists disk)
  | .archive => inferInstanceAs (Decidable (disk.archive.isSome = true))
  | .verification pid id => inferInstanceAs (Decidable (.verification pid id ∈ disk.temporaries))

/-- The temporary export under its final name. -/
def Target.place (target : Target) (content : Bytes) (disk : Disk) : Disk :=
  match target with
  | .archive => { disk with archive := some content }
  | .verification pid id => { disk with temporaries := .verification pid id :: disk.temporaries }

/-- `Store::open` (`store.rs:56-114`), which makes an empty store where nothing is. -/
def openStore (place : Place) : Migrating FjallDirectory := do
  match (← Program.look).get place with
  | some (.fjall directory) => return directory
  | some _ => Program.fail (.substrate "not a Fjall database")
  | none =>
    let empty : FjallDirectory := ⟨⟨fun _ => ∅⟩, []⟩
    change fun disk => disk.set place (some (.fjall empty))
    return empty

/-- `export_migration_archive` (`store.rs:126-158`), with `ArchiveWriter` on its file. -/
def exportMigrationArchive (directory : FjallDirectory) (target : Target) :
    Migrating MigrationInventory := do
  Program.refuse (directory.unknown ≠ [])
    (.migration "source contains unknown keyspace; refusing an incomplete migration")
  let disk ← Program.look
  Program.refuse (target.exists disk) (.migration "archive target already exists")
  let (pid, id) ← nextTemporary
  createNew (.archive pid id)
  let writer ← Program.lift (ArchiveWriter.create.recordAll (archiveRows directory.store))
  let (content, inventory) := writer.finish
  change fun disk => target.place content { disk with temporaries := disk.temporaries.erase (.archive pid id) }
  return inventory

/-- `verify_fjall_copy` (`migration.rs:338-356`). -/
def verifyFjallCopy (place : Place) (expected : MigrationInventory) : Migrating Unit := do
  let (pid, id) ← nextTemporary
  let directory ← openStore place
  let actual ← exportMigrationArchive directory (.verification pid id)
  change fun disk => { disk with temporaries := disk.temporaries.erase (.verification pid id) }
  Program.refuse (actual ≠ expected)
    (.migration "retained Fjall copy differs from the authenticated migration archive")

/-- `begin` (`migration.rs:358-400`). -/
def begin_ : Migrating MigrationReport := do
  let disk ← Program.look
  Program.refuse disk.source.isNone (.migration "Fjall source directory does not exist")
  Program.refuse (hasCurrent disk.source) (.migration "source is already a native vyrmKV store")
  Program.refuse (disk.archive.isSome ∨ disk.staging.isSome ∨ disk.backup.isSome ∨ disk.retired.isSome)
    (.migration "migration artifact already exists without a marker")
  let directory ← openStore .source
  let inventory ← exportMigrationArchive directory .archive
  let report : MigrationReport :=
    { contractVersion := archiveVersion, phase := .exported, inventory, nativeState := none }
  writeReport report
  return report

/-! ## Import -/

section Native

variable [Manifests] [Serde SnapshotHandle]

def importBatchBytes : Nat := 12 * 1024 * 1024
def importBatchOperations : Nat := 512

/-- The operation that stores an archived row: its key stands behind the name of its keyspace. -/
def Row.operation (row : Row) : Kv.Mutation :=
  .put (storageKey (Keyspace.all.getD row.space .claims) row.key) row.value

/-- What an operation counts for in a batch (`migration.rs:446-449`). -/
def cost (operation : Kv.Mutation) : Nat := operation.key.length + (operation.value.getD []).length + 16

/-- The operations of the next batch, and their cost. -/
structure Pending where
  operations : List Kv.Mutation
  estimated : Nat

omit [Manifests] [Serde SnapshotHandle] in
/-- `WriteBatch::new` and `database.write_owned`. -/
def writeBatch (place : Place) (operations : List Kv.Mutation) : Migrating Unit := do
  let batch ← Program.lift (storage (Kv.WriteBatch.new operations))
  rework place fun database => database.writeOwned batch

omit [Manifests] [Serde SnapshotHandle] in
/-- The record callback of `rebuild_staging` (`migration.rs:441-465`). -/
def importRow (pending : Pending) (row : Row) : Migrating Pending := do
  let operation := row.operation
  if pending.operations ≠ [] ∧ (importBatchOperations ≤ pending.operations.length ∨
      importBatchBytes < pending.estimated + cost operation) then
    writeBatch .staging pending.operations
    return ⟨[operation], cost operation⟩
  return ⟨pending.operations ++ [operation], pending.estimated + cost operation⟩

omit [Manifests] [Serde SnapshotHandle] in
def importRows : Pending → List Row → Migrating Pending
  | pending, [] => pure pending
  | pending, row :: rest => do
    let pending ← importRow pending row
    importRows pending rest

/-- The content of the archive, which `read_archive` opens. -/
def openArchive : Migrating Bytes := do
  match (← Program.look).archive with
  | some content => return content
  | none => Program.fail (.migration "No such file or directory (os error 2)")

omit [Serde SnapshotHandle] in
/-- `rebuild_staging` behind the removal of what was there (`migration.rs:439-479`). -/
def importArchive (expected : MigrationInventory) (at_ : Nat) : Migrating Unit := do
  createDatabase .staging
  let (rows, result) := readArchive (← openArchive)
  let pending ← importRows ⟨[], 0⟩ rows
  let actual ← Program.lift result
  Program.refuse (actual ≠ expected) (.migration "archive inventory changed after export")
  if pending.operations ≠ [] then
    writeBatch .staging pending.operations
  flushDatabase .staging at_

omit [Serde SnapshotHandle] in
/-- `rebuild_staging` (`migration.rs:434-479`). -/
def rebuildStaging (expected : MigrationInventory) (at_ : Nat) : Migrating Unit := do
  if (← Program.look).staging.isSome then
    change fun disk => disk.set .staging (some .unfinished)
    change fun disk => disk.set .staging none
    importArchive expected at_
  else importArchive expected at_

omit [Manifests] [Serde SnapshotHandle] in
/-- The record callback of `verify_staging` (`migration.rs:497-513`), for all rows. -/
def compareRows (rows : Rows) : List Row → Except Error Unit
  | [] => .ok ()
  | row :: rest => do
    if rows[row.operation.key]? ≠ some row.value then
      throw (.migration "staging bytes diverge from the archive")
    compareRows rows rest

/-- `verify_staging` (`migration.rs:481-519`). -/
def verifyStaging (expected : MigrationInventory) : Migrating Unit := do
  let disk ← Program.look
  Program.refuse disk.staging.isNone (.migration "native staging directory is missing")
  let database ← openDatabase .staging
  let visible := database.rows.range [] none
  Program.refuse (visible.length ≠ expected.entries) (.migration "staging entry count differs")
  let (rows, result) := readArchive (← openArchive)
  Program.lift (compareRows database.rows rows)
  let actual ← Program.lift result
  Program.refuse (actual ≠ expected) (.migration "staging inventory differs from archive")
  openEngine .staging

omit [Manifests] [Serde SnapshotHandle] in
/-- `native_state` (`migration.rs:521-527`). -/
def nativeState (place : Place) : Migrating NativeStateToken := do
  return (← openDatabase place).token

omit [Manifests] [Serde SnapshotHandle] in
/-- `verify_visible_native` (`migration.rs:529-544`). -/
def verifyVisibleNative (expected : Option NativeStateToken) : Migrating Unit := do
  match expected with
  | none => Program.fail (.migration "native state token is absent")
  | some expected =>
    Program.refuse (¬ hasCurrent (← Program.look).source)
      (.migration "visible database is not native vyrmKV")
    let actual ← nativeState .source
    Program.refuse (actual ≠ expected) (.migration "native state diverged after cutover")

/-! ## The procedure -/

/-- `MigrationFault` (`migration.rs:50-60`). -/
inductive MigrationFault where
  | afterExport
  | afterImport
  | afterVerify
  | afterSourceRename
  | afterSourceMove
  | afterCutoverRename
  | afterCutover
  deriving DecidableEq

def MigrationFault.label : MigrationFault → String
  | afterExport => "migration.after_export"
  | afterImport => "migration.after_import"
  | afterVerify => "migration.after_verify"
  | afterSourceRename => "migration.after_source_rename"
  | afterSourceMove => "migration.after_source_move"
  | afterCutoverRename => "migration.after_cutover_rename"
  | afterCutover => "migration.after_cutover"

omit [Manifests] [Serde SnapshotHandle] in
/-- `inject` (`migration.rs:242-247`). -/
def inject (selected : Option MigrationFault) (boundary : MigrationFault) : Migrating Unit :=
  Program.refuse (selected = some boundary) (.faultInjected boundary.label)

omit [Manifests] [Serde SnapshotHandle] in
/-- `rebase_report` (`migration.rs:546-571`): the marker at this path is of this path. -/
def rebaseReport (report : MigrationReport) : Migrating Unit :=
  Program.refuse (report.contractVersion ≠ archiveVersion)
    (.migration "migration marker does not match this path or contract version")

omit [Manifests] [Serde SnapshotHandle] in
/-- `reconcile_filesystem` (`migration.rs:402-432`). -/
def reconcileFilesystem (report : MigrationReport) : Migrating MigrationReport := do
  let disk ← Program.look
  let sourceNative := hasCurrent disk.source
  if report.phase.rank ≤ MigrationPhase.verified.rank ∧ sourceNative then
    Program.refuse (disk.backup.isNone ∨ disk.staging.isSome)
      (.migration "native source appeared without the complete cutover artifact set")
    let report := { report with nativeState := some (← nativeState .source), phase := .cutover }
    writeReport report
    return report
  else if report.phase.rank ≤ MigrationPhase.verified.rank ∧ disk.source.isNone ∧ disk.backup.isSome ∧
      disk.staging.isSome then
    let report := { report with phase := .sourceMoved }
    writeReport report
    return report
  else if report.phase = .sourceMoved ∧ sourceNative then
    Program.refuse (disk.backup.isNone ∨ disk.staging.isSome)
      (.migration "ambiguous post-cutover filesystem state")
    let report := { report with nativeState := some (← nativeState .source), phase := .cutover }
    writeReport report
    return report
  else return report

/-! The arms of the loop (`migration.rs:163-237`). Each one that does not leave the loop goes round it
in the phase it has set. -/

omit [Manifests] [Serde SnapshotHandle] in
def onComplete (report : MigrationReport) : Migrating MigrationReport := do
  let disk ← Program.look
  Program.refuse (¬ hasCurrent disk.source ∨ disk.backup.isNone ∨ disk.archive.isNone)
    (.migration "completed migration is missing its native store or retained evidence")
  return report

def onCutover (report : MigrationReport) : Migrating MigrationReport := do
  verifyVisibleNative report.nativeState
  openEngine .source
  let report := { report with nativeState := some (← nativeState .source), phase := .complete }
  writeReport report
  onComplete report

def onSourceMoved (fault : Option MigrationFault) (report : MigrationReport) :
    Migrating MigrationReport := do
  let disk ← Program.look
  Program.refuse disk.source.isSome (.migration "database path unexpectedly exists during staged cutover")
  Program.refuse (disk.staging.isNone ∨ disk.backup.isNone)
    (.migration "cutover requires both native staging and retained Fjall backup")
  rename .staging .source
  inject fault .afterCutoverRename
  let report := { report with nativeState := some (← nativeState .source), phase := .cutover }
  writeReport report
  inject fault .afterCutover
  onCutover report

def onVerified (fault : Option MigrationFault) (report : MigrationReport) : Migrating MigrationReport := do
  let disk ← Program.look
  Program.refuse disk.source.isNone
    (.migration "source disappeared before its retained backup was established")
  Program.refuse disk.backup.isSome (.migration "Fjall backup target already exists before source move")
  rename .source .backup
  inject fault .afterSourceRename
  let report := { report with phase := .sourceMoved }
  writeReport report
  inject fault .afterSourceMove
  onSourceMoved fault report

def onImported (fault : Option MigrationFault) (report : MigrationReport) : Migrating MigrationReport := do
  verifyStaging report.inventory
  let report := { report with phase := .verified }
  writeReport report
  inject fault .afterVerify
  onVerified fault report

def onExported (fault : Option MigrationFault) (at_ : Nat) (report : MigrationReport) :
    Migrating MigrationReport := do
  rebuildStaging report.inventory at_
  let report := { report with phase := .imported }
  writeReport report
  inject fault .afterImport
  onImported fault report

/-- `migrate_inner` (`migration.rs:139-240`). -/
def migrateInner (fault : Option MigrationFault) (at_ : Nat) : Migrating MigrationReport := do
  let report ← match (← Program.look).marker with
    | some report => do
      rebaseReport report
      pure report
    | none => do
      let report ← begin_
      inject fault .afterExport
      pure report
  Program.refuse (report.phase = .rolledBack) (.migration
    "migration was rolled back; retain the evidence and start a new migration explicitly")
  let report ← reconcileFilesystem report
  match report.phase with
  | .exported => onExported fault at_ report
  | .imported => onImported fault report
  | .verified => onVerified fault report
  | .sourceMoved => onSourceMoved fault report
  | .cutover => onCutover report
  | .complete => onComplete report
  | .rollbackNativeMoved | .rolledBack => Program.fail (.migration
      "migration is in rollback state; run rollback again to finish recovery")

/-- `migrate_fjall_to_native` (`migration.rs:127-129`). -/
def migrateFjallToNative (at_ : Nat) : Migrating MigrationReport := migrateInner none at_

end Native

/-! ## Rollback -/

/-- Fjall is back in its place, and only the marker does not say so. -/
def Restored (disk : Disk) : Prop :=
  disk.source.isSome ∧ hasCurrent disk.source = false ∧ disk.retired.isSome ∧ disk.backup.isNone

instance (disk : Disk) : Decidable (Restored disk) := inferInstanceAs (Decidable (_ ∧ _))

/-- The end of a rollback that has put Fjall back in its place (`migration.rs:298-303`). -/
def confirmRestored (report : MigrationReport) : Migrating MigrationReport := do
  verifyFjallCopy .source report.inventory
  let report := { report with phase := .rolledBack }
  writeReport report
  return report

/-- The second rename of a rollback and what follows it (`migration.rs:325-335`). -/
def restoreBackup (report : MigrationReport) : Migrating MigrationReport := do
  verifyFjallCopy .backup report.inventory
  rename .backup .source
  let directory ← openStore .source
  let _ ← Program.lift directory.store.sequence
  let report := { report with phase := .rolledBack }
  writeReport report
  return report

/-- A rollback whose native directory is retired already (`migration.rs:291-309`). -/
def continueRollback (report : MigrationReport) : Migrating MigrationReport := do
  let disk ← Program.look
  if Restored disk then confirmRestored report
  else
    Program.refuse (disk.source.isSome ∨ disk.retired.isNone ∨ disk.backup.isNone)
      (.migration "ambiguous interrupted rollback filesystem state")
    restoreBackup report

/-- A rollback from its start (`migration.rs:310-323`). -/
def retireNative (report : MigrationReport) : Migrating MigrationReport := do
  Program.refuse (report.phase ≠ .cutover ∧ report.phase ≠ .complete)
    (.migration "rollback is available only after cutover")
  verifyVisibleNative report.nativeState
  verifyFjallCopy .backup report.inventory
  Program.refuse (← Program.look).retired.isSome
    (.migration "retired-native target already exists; refusing to overwrite evidence")
  rename .source .retired
  let report := { report with phase := .rollbackNativeMoved }
  writeReport report
  restoreBackup report

/-- The marker of a rollback that crashed behind its first rename (`migration.rs:270-280`). -/
def recognizeRetired (report : MigrationReport) : Migrating MigrationReport := do
  let disk ← Program.look
  if (report.phase = .cutover ∨ report.phase = .complete) ∧ disk.source.isNone ∧ disk.retired.isSome ∧
      disk.backup.isSome then
    let report := { report with phase := .rollbackNativeMoved }
    writeReport report
    return report
  else return report

/-- `rollback_fjall_migration` (`migration.rs:260-336`). -/
def rollbackFjallMigration : Migrating MigrationReport := do
  match (← Program.look).marker with
  | none => Program.fail (.migration "no migration marker exists")
  | some report =>
    rebaseReport report
    if report.phase = .rolledBack then return report
    else
      let report ← recognizeRetired report
      let disk ← Program.look
      if (report.phase = .cutover ∨ report.phase = .complete) ∧ Restored disk then confirmRestored report
      else if report.phase = .rollbackNativeMoved then continueRollback report
      else retireNative report

end Vyrm.Store.Migration
