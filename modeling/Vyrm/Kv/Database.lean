import Vyrm.Kv.SnapshotBundle

/-!
# The database

`crates/vyrm-kv/src/database.rs`: the single-writer database that ties the write
ahead log, the memtable, the immutable segments and the published manifest
together. A `&mut self` method returns the value it leaves behind next to its
result, so that an error and the state a caller goes on with are both visible.
-/

namespace Vyrm.Kv
open Lib Lib.FaultFs

variable [Platform]

/-- `Snapshot` (`database.rs:16-19`). -/
structure Snapshot where
  sequence : Nat
  deriving DecidableEq, Repr

/-- `FailureMode` (`database.rs:42-46`). -/
inductive FailureMode where
  | crash
  | storageFull
  deriving DecidableEq, Repr

/-- `FailureMode::as_str` (`database.rs:48-55`). -/
def FailureMode.asStr : FailureMode → String
  | .crash => "crash"
  | .storageFull => "storage-full"

/-- `FlushBoundary` (`database.rs:57-63`). -/
inductive FlushBoundary where
  | walSynced
  | segmentSynced
  | successorWalSynced
  | manifestPublished
  deriving DecidableEq, Repr

/-- `FlushBoundary::as_str` (`database.rs:65-74`). -/
def FlushBoundary.asStr : FlushBoundary → String
  | .walSynced => "flush.wal_synced"
  | .segmentSynced => "flush.segment_synced"
  | .successorWalSynced => "flush.successor_wal_synced"
  | .manifestPublished => "flush.manifest_published"

/-- `CompactionBoundary` (`database.rs:76-80`). -/
inductive CompactionBoundary where
  | segmentSynced
  | manifestPublished
  deriving DecidableEq, Repr

/-- `CompactionBoundary::as_str` (`database.rs:99-106`). -/
def CompactionBoundary.asStr : CompactionBoundary → String
  | .segmentSynced => "compaction.segment_synced"
  | .manifestPublished => "compaction.manifest_published"

/-- `SnapshotInstallBoundary` (`database.rs:82-87`). -/
inductive SnapshotInstallBoundary where
  | segmentsSynced
  | successorWalSynced
  | manifestPublished
  deriving DecidableEq, Repr

/-- `SnapshotInstallBoundary::as_str` (`database.rs:89-97`). -/
def SnapshotInstallBoundary.asStr : SnapshotInstallBoundary → String
  | .segmentsSynced => "snapshot.segments_synced"
  | .successorWalSynced => "snapshot.successor_wal_synced"
  | .manifestPublished => "snapshot.manifest_published"

/-- `SnapshotExportBoundary::as_str` (`snapshot_bundle.rs:25-33`). -/
def SnapshotExportBoundary.asStr : SnapshotExportBoundary → String
  | .headerWritten => "snapshot_export.header_written"
  | .segmentWritten => "snapshot_export.segment_written"
  | .fileSynced => "snapshot_export.file_synced"

/-- The body of the four failure hooks: an injected failure when the configured boundary is
the one that was reached. -/
def injectAt {β : Type} [DecidableEq β] (name : β → String)
    (configured : Option (β × FailureMode)) (reached : β) : Except Error Unit :=
  match configured with
  | some (boundary, mode) =>
    rejectIf (boundary = reached) (.injectedFailure mode.asStr (name boundary))
  | none => pure ()

/-- `inject_failure` (`database.rs:882-893`). -/
def injectFailure := injectAt FlushBoundary.asStr

/-- `inject_snapshot_install_failure` (`database.rs:895-906`). -/
def injectSnapshotInstallFailure := injectAt SnapshotInstallBoundary.asStr

/-- `inject_compaction_failure` (`database.rs:908-919`). -/
def injectCompactionFailure := injectAt CompactionBoundary.asStr

/-! ## Segment files -/

/-- `Segment::open_with_cache` (`segment.rs:263-280`). -/
def Segment.openFile (path : Path) : Io Segment := do
  let bytes ← readFile path
  Segment.openBytes bytes

/-- `Segment::write_from_memtable_with_cache` (`segment.rs:222-257`). -/
def Segment.writeFromMemtable (table : Memtable) : Io Segment := do
  let bytes ← encodeV3 table
  let digest := segmentDigest bytes
  let path := Path.segment digest
  if ← pathExists path then
    let segment ← Segment.openFile path
    rejectIf (segment.descriptor.id ≠ digest)
      (.invalidSegment "existing content-addressed segment has another identity")
    return segment
  else
    let process ← processId
    let id ← nextTemporaryId
    persistRename .segments (.segmentTemporary digest process id) path bytes
    Segment.openFile path

/-- `Segment::install_snapshot_bytes_with_cache` (`segment.rs:330-372`); the comparison of
`file_equals_bytes` (`segment.rs:967-983`) is the last read. -/
def Segment.installSnapshotBytes (expected : SegmentDescriptor) (bytes : Bytes) : Io Segment := do
  Segment.validateSnapshotDescriptor expected bytes
  let path := Path.segment expected.id
  if ← pathExists path then
    let existing ← Segment.openFile path
    let existing := existing.setLevel expected.level
    let differs : Error := .invalidSegment
      s!"existing snapshot segment {text expected.id} has different bytes"
    rejectIf (existing.descriptor ≠ expected) differs
    let stored ← readFile path
    rejectIf (stored ≠ bytes) differs
    return existing
  else
    let process ← processId
    let id ← nextTemporaryId
    persistRename .segments (.snapshotTemporary expected.id process id) path bytes
    let installed ← Segment.openFile path
    return installed.setLevel expected.level

/-! ## Opening and writing -/

/-- `Database` (`database.rs:111-119`). The root and the manifest store's lock are the same for
a whole session. -/
structure Database where
  manifest : Manifest
  wal : WalWriter
  memtable : Memtable
  segments : List Segment

namespace Database

/-- `Database::create` (`database.rs:122-151`). -/
def create : Io Database := do
  let present ← ManifestStore.listFiles Path.inRoot
  rejectIf (present ≠ [])
    (.invalidManifest "new database path exists and is not an empty directory")
  ManifestStore.open
  let manifest ← Manifest.new 1 none 0 0 1 []
  let wal ← WalWriter.createAt (.wal 1) 1
  let _ ← ManifestStore.publish manifest none
  return { manifest, wal, memtable := .atSequence 0, segments := [] }

/-- The segment loop of `Database::open` (`database.rs:162-179`). -/
def openSegments : List SegmentDescriptor → Io (List Segment)
  | [] => pure []
  | expected :: rest => do
    let segment ← Segment.openFile (.segment expected.id)
    let segment := segment.setLevel expected.level
    rejectIf (segment.descriptor ≠ expected)
      (.invalidManifest s!"segment {text expected.id} does not match its manifest descriptor")
    let segments ← openSegments rest
    return segment :: segments

/-- `Database::open` (`database.rs:153-196`). -/
def «open» : Io Database := do
  ManifestStore.open
  match ← ManifestStore.current with
  | none => throw (.error (.invalidManifest "database has no CURRENT manifest"))
  | some (_, manifest) =>
    let segments ← openSegments manifest.segments
    let path := Path.wal manifest.walStartSequence
    let recovery ← recoverFrom path manifest.walStartSequence
    match recovery.tornTail with
    | some offset => throw (.error (.tornTail offset))
    | none =>
      let memtable ← Memtable.recoverFrom recovery.batches manifest.durableSequence
      let wal ← WalWriter.openAt path manifest.walStartSequence
      return { manifest, wal, memtable, segments }

/-- `Database::snapshot` (`database.rs:206-210`). -/
def snapshot (db : Database) : Snapshot := ⟨db.memtable.maximumSequence⟩

/-- The body shared by `write` and `write_owned`, with the way the memtable takes the batch. -/
def writeWith
    (apply : Memtable → WriteBatch → Nat → Nat → Except Error Memtable)
    (db : Database) (batch : WriteBatch) (durability : Durability) :
    Io (Except Error AppendReceipt × Database) := do
  match batch.encode with
  | .error e => return (.error e, db)
  | .ok payload =>
    let (appended, wal) ← db.wal.appendEncodedWriteBatch batch payload durability
    let db := { db with wal }
    match appended with
    | .error e => return (.error e, db)
    | .ok receipt =>
      match apply db.memtable batch receipt.firstSequence receipt.lastSequence with
      | .error e => return (.error e, db)
      | .ok memtable => return (.ok receipt, { db with memtable })

/-- `Database::write` (`database.rs:212-220`). -/
def write := writeWith Memtable.applyWriteBatch

/-- `Database::write_owned` (`database.rs:225-240`). -/
def writeOwned := writeWith Memtable.applyOwnedWriteBatch

/-- `Database::sync` (`database.rs:242-244`). -/
def sync (db : Database) : Io (Except Error Nat × Database) :=
  committing db do
    let through ← db.wal.sync
    return (through, db)

/-! ## Flush -/

/-- The reuse or creation of a successor log (`database.rs:286-297`, `461-473`): an existing
file is taken over when it is a whole log without records. -/
def successorWal (nextSequence : Nat) (occupied : Error) : Io WalWriter := do
  if ← pathExists (.wal nextSequence) then
    let recovery ← recoverFrom (.wal nextSequence) nextSequence
    rejectIf (recovery.batches ≠ [] ∨ recovery.tornTail.isSome) occupied
    WalWriter.openAt (.wal nextSequence) nextSequence
  else WalWriter.createAt (.wal nextSequence) nextSequence

/-- The generation of the manifest that follows `db.manifest`. -/
def nextGeneration (db : Database) (overflow : String) : Except Error Nat :=
  checkedAdd db.manifest.generation 1 (.invalidManifest overflow)

/-- `flush_memtable_inner` (`database.rs:265-319`) up to and including the assignments to
`self`, on a memtable with versions. -/
def flushPublish (db : Database) (at_ : Nat) (failure : Option (FlushBoundary × FailureMode)) :
    Io (Manifest × Database) := do
  let sequence ← db.wal.sync
  injectFailure failure .walSynced
  let segment ← Segment.writeFromMemtable db.memtable
  injectFailure failure .segmentSynced
  let nextSequence ← checkedAdd sequence 1 (.invalidBatch "sequence overflow at flush")
  let successor ← successorWal nextSequence
    (.corruption 0 "unpublished successor WAL contains data")
  injectFailure failure .successorWalSynced
  let generation ← db.nextGeneration "manifest generation overflow"
  let next ← Manifest.new generation (some db.manifest.digest) at_ sequence nextSequence
    (db.manifest.segments ++ [segment.descriptor])
  let _ ← ManifestStore.publish next (some db.manifest.digest)
  return (next, { manifest := next, wal := successor, memtable := .atSequence sequence,
                  segments := db.segments ++ [segment] })

/-- `Database::flush_memtable_inner` (`database.rs:265-319`). The last failure boundary comes
after the assignments, so its error leaves the flushed state behind. -/
def flushMemtableInner (db : Database) (at_ : Nat)
    (failure : Option (FlushBoundary × FailureMode)) :
    Io (Except Error (Option Manifest) × Database) := do
  if db.memtable.versionCount = 0 then
    committing db do
      let _ ← db.wal.sync
      return (none, db)
  else
    let (published, db) ← committing db (db.flushPublish at_ failure)
    match published with
    | .error e => return (.error e, db)
    | .ok next =>
      match injectFailure failure .manifestPublished with
      | .error e => return (.error e, db)
      | .ok () => return (.ok (some next), db)

/-- `Database::flush_memtable` (`database.rs:249-251`). -/
def flushMemtable (db : Database) (at_ : Nat) : Io (Except Error (Option Manifest) × Database) :=
  db.flushMemtableInner at_ none

/-- `Database::flush_memtable_with_failure` (`database.rs:256-263`). -/
def flushMemtableWithFailure (db : Database) (at_ : Nat) (boundary : FlushBoundary)
    (mode : FailureMode) : Io (Except Error (Option Manifest) × Database) :=
  db.flushMemtableInner at_ (some (boundary, mode))

/-! ## Checkpoints and exports -/

/-- `Database::checkpoint` (`database.rs:321-323`). -/
def checkpoint (db : Database) (name : Bytes) (at_ : Nat) : Io Checkpoint :=
  ManifestStore.checkpoint name db.manifest.digest at_

/-- `Database::release_checkpoint` (`database.rs:329-331`). -/
def releaseCheckpoint (_ : Database) (name : Bytes) : Io Bool :=
  ManifestStore.releaseCheckpoint name

/-- The segment loop of `export_snapshot_bundle` (`database.rs:339-354`). -/
def readSnapshotSegments : List SegmentDescriptor → Io (List SnapshotSegment)
  | [] => pure []
  | descriptor :: rest => do
    let bytes ← readFile (.segment descriptor.id)
    let segments ← readSnapshotSegments rest
    return ⟨descriptor, bytes⟩ :: segments

/-- A flush followed by a step that only reads the flushed state. -/
def afterFlush {α : Type} (db : Database) (at_ : Nat) (body : Database → Io α) :
    Io (Except Error α × Database) := do
  let (flushed, db) ← db.flushMemtable at_
  match flushed with
  | .error e => return (.error e, db)
  | .ok _ =>
    let result ← attempt (body db)
    return (result, db)

/-- `Database::export_snapshot_bundle` (`database.rs:337-356`). -/
def exportSnapshotBundle (db : Database) (at_ : Nat) : Io (Except Error SnapshotBundle × Database) :=
  db.afterFlush at_ fun db => do
    let segments ← readSnapshotSegments db.manifest.segments
    SnapshotBundle.new db.manifest segments

/-- `Database::export_snapshot_file` (`database.rs:361-372`). -/
def exportSnapshotFile (db : Database) (at_ : Nat) (destination : Path) :
    Io (Except Error SnapshotBundleFile × Database) :=
  db.afterFlush at_ fun db => SnapshotBundleFile.create db.manifest destination

/-- `Database::export_snapshot_file_with_failure` (`database.rs:374-397`). -/
def exportSnapshotFileWithFailure (db : Database) (at_ : Nat) (destination : Path)
    (boundary : SnapshotExportBoundary) (mode : FailureMode) :
    Io (Except Error SnapshotBundleFile × Database) :=
  db.afterFlush at_ fun db => SnapshotBundleFile.createWithHook db.manifest destination
    (injectAt SnapshotExportBoundary.asStr (some (boundary, mode)))

/-! ## Snapshot installation -/

/-- The continuation of an installation after its segments are in place
(`database.rs:457-499`, `538-580`), up to and including the assignments to `self`. -/
def installPublish (db : Database) (source : Manifest) (imported : List Segment) (at_ : Nat)
    (failure : Option (SnapshotInstallBoundary × FailureMode)) : Io (Manifest × Database) := do
  injectSnapshotInstallFailure failure .segmentsSynced
  let nextSequence ← checkedAdd source.durableSequence 1
    (.invalidManifest "snapshot sequence overflowed")
  let successor ← successorWal nextSequence
    (.invalidManifest "snapshot continuation WAL already contains data")
  injectSnapshotInstallFailure failure .successorWalSynced
  let generation ← db.nextGeneration "manifest generation overflowed"
  let next ← Manifest.new generation (some db.manifest.digest)
    (max (max at_ db.manifest.createdAt) source.createdAt) source.durableSequence nextSequence
    source.segments
  let _ ← ManifestStore.publish next (some db.manifest.digest)
  return (next, { manifest := next, wal := successor,
                  memtable := .atSequence source.durableSequence, segments := imported })

/-- The idempotence test of both installations (`database.rs:439-443`, `520-524`). -/
def alreadyInstalled (db : Database) (source : Manifest) : Prop :=
  source.durableSequence = db.snapshot.sequence ∧ db.manifest.segments = source.segments

instance (db : Database) (source : Manifest) : Decidable (db.alreadyInstalled source) :=
  inferInstanceAs (Decidable (_ ∧ _))

/-- The body shared by the two installations: `importSegments` puts the segment files of the
source in place. -/
def installInner (db : Database) (source : Manifest) (importSegments : Io (List Segment))
    (at_ : Nat) (failure : Option (SnapshotInstallBoundary × FailureMode)) :
    Io (Except Error Manifest × Database) := do
  if db.alreadyInstalled source then return (.ok db.manifest, db)
  else
    let (installed, db) ← committing db do
      rejectIf (source.durableSequence ≤ db.snapshot.sequence) (.invalidManifest
        s!"snapshot sequence {source.durableSequence} does not advance local sequence {db.snapshot.sequence}")
      let imported ← importSegments
      db.installPublish source imported at_ failure
    match installed with
    | .error e => return (.error e, db)
    | .ok manifest =>
      match injectSnapshotInstallFailure failure .manifestPublished with
      | .error e => return (.error e, db)
      | .ok () => return (.ok manifest, db)

/-- The segment loop of `install_snapshot_bundle_inner` (`database.rs:531-539`). -/
def importBundle : List SnapshotSegment → Io (List Segment)
  | [] => pure []
  | bundled :: rest => do
    let segment ← Segment.installSnapshotBytes bundled.descriptor bundled.bytes
    let segments ← importBundle rest
    return segment :: segments

/-- `Database::install_snapshot_bundle_inner` (`database.rs:512-581`). -/
def installSnapshotBundleInner (db : Database) (bundle : SnapshotBundle) (at_ : Nat)
    (failure : Option (SnapshotInstallBoundary × FailureMode)) :
    Io (Except Error Manifest × Database) := do
  match bundle.validate with
  | .error e => return (.error e, db)
  | .ok () => db.installInner bundle.sourceManifest (importBundle bundle.segments) at_ failure

/-- `Database::install_snapshot_bundle` (`database.rs:402-408`). -/
def installSnapshotBundle (db : Database) (bundle : SnapshotBundle) (at_ : Nat) :
    Io (Except Error Manifest × Database) :=
  db.installSnapshotBundleInner bundle at_ none

/-- The segment loop of `install_snapshot_file_inner` (`database.rs:451-459`). -/
def importFile (bundle : SnapshotBundleFile) : List FileSegment → Io (List Segment)
  | [] => pure []
  | segment :: rest => do
    let bytes ← bundle.segmentBytes segment
    let installed ← Segment.installSnapshotBytes segment.descriptor bytes
    let segments ← importFile bundle rest
    return installed :: segments

/-- `Database::install_snapshot_file_inner` (`database.rs:431-500`). -/
def installSnapshotFileInner (db : Database) (bundle : SnapshotBundleFile) (at_ : Nat)
    (failure : Option (SnapshotInstallBoundary × FailureMode)) :
    Io (Except Error Manifest × Database) :=
  db.installInner bundle.sourceManifest (importFile bundle bundle.segments) at_ failure

/-- `Database::install_snapshot_file` (`database.rs:413-419`). -/
def installSnapshotFile (db : Database) (bundle : SnapshotBundleFile) (at_ : Nat) :
    Io (Except Error Manifest × Database) :=
  db.installSnapshotFileInner bundle at_ none

/-! ## Compaction -/

/-- `CompactionOutcome` (`database.rs:22-30`). -/
structure CompactionOutcome where
  previousManifest : Bytes
  manifest : Bytes
  inputSegments : Nat
  outputSegments : Nat
  inputVersions : Nat
  outputVersions : Nat
  protectedSequences : List Nat
  deriving DecidableEq, Repr

/-- `BTreeMap<Vec<u8>, BTreeMap<u64, Option<Vec<u8>>>>`. -/
abbrev Merged := Std.TreeMap Bytes (Std.TreeMap Nat (Option Bytes))

/-- The version loop of the merge (`database.rs:625-640`). -/
def mergeVersions : List VersionedValue → Std.TreeMap Nat (Option Bytes) →
    Except Error (Std.TreeMap Nat (Option Bytes))
  | [], target => pure target
  | version :: rest, target =>
    match target[version.sequence]? with
    | some existing => do
      rejectIf (existing ≠ version.value)
        (.invalidSegment s!"segments disagree for sequence {version.sequence}")
      mergeVersions rest target
    | none => mergeVersions rest (target.insert version.sequence version.value)

/-- The key loop of the merge (`database.rs:623-642`). -/
def mergeGroups : List (Bytes × List VersionedValue) → Merged → Except Error Merged
  | [], merged => pure merged
  | (key, versions) :: rest, merged => do
    let target ← mergeVersions versions (merged[key]?.getD ∅)
    mergeGroups rest (merged.insert key target)

/-- The segment loop of the merge (`database.rs:622-643`). -/
def mergeSegments : List Segment → Merged → Except Error Merged
  | [], merged => pure merged
  | segment :: rest, merged => do
    let groups ← segment.allVersions
    let merged ← mergeGroups groups merged
    mergeSegments rest merged

/-- `versions.range(..=sequence).next_back()`. -/
def newestThrough (versions : Std.TreeMap Nat (Option Bytes)) (sequence : Nat) :
    Option (Nat × Option Bytes) :=
  (versions.toList.filter fun version => version.1 ≤ sequence).getLast?

/-- The versions of one key that some protected sequence selects (`database.rs:647-656`). -/
def selectProtected (protectedSequences : List Nat) (versions : Std.TreeMap Nat (Option Bytes)) :
    Std.TreeMap Nat (Option Bytes) :=
  Std.TreeMap.ofList (protectedSequences.filterMap (newestThrough versions))

/-- The retention loop (`database.rs:645-667`): a key all of whose selected versions are
tombstones is dropped. -/
def retain (protectedSequences : List Nat) :
    List (Bytes × Std.TreeMap Nat (Option Bytes)) → VersionMap → VersionMap
  | [], retained => retained
  | (key, versions) :: rest, retained =>
    let selected := selectProtected protectedSequences versions
    if selected.toList.all (fun version => version.2.isNone) then
      retain protectedSequences rest retained
    else
      retain protectedSequences rest
        (retained.insert key (selected.toList.map fun version => ⟨version.1, version.2⟩))

/-- The set of sequences whose reads a compaction keeps (`database.rs:614-620`). -/
def protectedSequences (protectedSnapshots : List Snapshot) (durable : Nat) : List Nat :=
  (Std.TreeSet.ofList ((protectedSnapshots.map Snapshot.sequence).filter (· ≤ durable) ++ [durable])
    compare).toList

/-- `self.segments.iter().map(level).max().unwrap_or_default().saturating_add(1)`, a `u8`. -/
def nextLevel (segments : List Segment) : Nat :=
  min ((segments.map (·.descriptor.level)).max?.getD 0 + 1) 255

/-- The segment that holds the retained versions, if any are (`database.rs:669-686`). -/
def writeCompacted (db : Database) (retained : VersionMap) : Io (List Segment) := do
  if retained.isEmpty then return []
  else
    let table ← Memtable.fromVersions retained db.manifest.durableSequence
    let segment ← Segment.writeFromMemtable table
    return [segment.setLevel (nextLevel db.segments)]

/-- `compact_inner` (`database.rs:605-715`) between its flush and its last failure boundary, on
a database with segments. -/
def compactPublish (db : Database) (protectedSnapshots : List Snapshot) (at_ : Nat)
    (failure : Option (CompactionBoundary × FailureMode)) :
    Io (CompactionOutcome × Database) := do
  let sequences := protectedSequences protectedSnapshots db.manifest.durableSequence
  let merged ← mergeSegments db.segments ∅
  let retained := retain sequences merged.toList ∅
  let compacted ← db.writeCompacted retained
  injectCompactionFailure failure .segmentSynced
  let generation ← db.nextGeneration "manifest generation overflow"
  let next ← Manifest.new generation (some db.manifest.digest) at_ db.manifest.durableSequence
    db.manifest.walStartSequence (compacted.map (·.descriptor))
  let _ ← ManifestStore.publish next (some db.manifest.digest)
  let outcome : CompactionOutcome :=
    { previousManifest := db.manifest.digest
      manifest := next.digest
      inputSegments := db.segments.length
      outputSegments := compacted.length
      inputVersions := (merged.values.map (·.size)).sum
      outputVersions := (retained.values.map List.length).sum
      protectedSequences := sequences }
  return (outcome, { db with segments := compacted, manifest := next })

/-- `Database::compact_inner` (`database.rs:605-715`). -/
def compactInner (db : Database) (protectedSnapshots : List Snapshot) (at_ : Nat)
    (failure : Option (CompactionBoundary × FailureMode)) :
    Io (Except Error (Option CompactionOutcome) × Database) := do
  let (flushed, db) ← db.flushMemtable at_
  match flushed with
  | .error e => return (.error e, db)
  | .ok _ =>
    if db.segments = [] then return (.ok none, db)
    else
      let (compacted, db) ← committing db (db.compactPublish protectedSnapshots at_ failure)
      match compacted with
      | .error e => return (.error e, db)
      | .ok outcome =>
        match injectCompactionFailure failure .manifestPublished with
        | .error e => return (.error e, db)
        | .ok () => return (.ok (some outcome), db)

/-- `Database::compact` (`database.rs:587-593`). -/
def compact (db : Database) (protectedSnapshots : List Snapshot) (at_ : Nat) :
    Io (Except Error (Option CompactionOutcome) × Database) :=
  db.compactInner protectedSnapshots at_ none

/-! ## Garbage collection -/

/-- `GarbageCollectionReport` (`database.rs:33-40`); a file name is the file it names. -/
structure GarbageCollectionReport where
  retainedManifests : List Bytes
  retainedSegments : List Bytes
  retainedWals : List Nat
  removedManifests : List Path
  removedSegments : List Path
  removedWals : List Path
  deriving DecidableEq, Repr

/-- The checkpoint loop of `garbage_collect` (`database.rs:722-726`). -/
def loadRetained : List Checkpoint → Std.TreeMap Bytes Manifest → Io (Std.TreeMap Bytes Manifest)
  | [], manifests => pure manifests
  | checkpoint :: rest, manifests => do
    let manifest ← ManifestStore.load checkpoint.manifest
    loadRetained rest (manifests.insertIfNew checkpoint.manifest manifest)

/-- The position of a file in the order of file names inside its directory. -/
def fileNameOrder : Path → Bytes
  | .manifest digest => digest
  | .segment id => id
  | .wal start => toBE 8 start
  | _ => []

/-- `unreachable_files` (`database.rs:921-952`). -/
def unreachableFiles (candidate : Path → Bool) : Io (List Path) := do
  let candidates ← ManifestStore.listFiles candidate
  return candidates.mergeSort fun left right =>
    compare (fileNameOrder left) (fileNameOrder right) != .gt

/-- The removal loop of `remove_candidates` (`database.rs:959-962`). -/
def removeEach : List Path → Io Unit
  | [] => pure ()
  | path :: rest => do
    removeFile path
    removeEach rest

/-- `remove_candidates` (`database.rs:954-967`). -/
def removeCandidates (directory : Directory) (candidates : List Path) : Io (List Path) := do
  removeEach candidates
  if candidates ≠ [] then syncDirectory directory
  return candidates

/-- `Database::garbage_collect` (`database.rs:719-762`). -/
def garbageCollect (db : Database) : Io GarbageCollectionReport := do
  let checkpoints ← ManifestStore.checkpoints
  let manifests ← loadRetained checkpoints (Std.TreeMap.ofList [(db.manifest.digest, db.manifest)])
  let retainedManifests := manifests.keys
  let retainedSegments := (Std.TreeSet.ofList
    (manifests.values.flatMap fun manifest => manifest.segments.map (·.id)) compare).toList
  let retainedWals := (Std.TreeSet.ofList
    (manifests.values.map (·.walStartSequence)) compare).toList
  let manifestCandidates ← unreachableFiles fun
    | .manifest digest => digest ∉ retainedManifests
    | _ => false
  let segmentCandidates ← unreachableFiles fun
    | .segment id => id ∉ retainedSegments
    | _ => false
  let walCandidates ← unreachableFiles fun
    | .wal start => start ∉ retainedWals
    | _ => false
  let removedManifests ← removeCandidates .manifests manifestCandidates
  let removedSegments ← removeCandidates .segments segmentCandidates
  let removedWals ← removeCandidates .wals walCandidates
  return { retainedManifests, retainedSegments, retainedWals, removedManifests, removedSegments,
           removedWals }

end Database
end Vyrm.Kv
