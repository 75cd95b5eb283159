import Vyrm.Kv.Platform

/-!
# Manifests

`crates/vyrm-kv/src/manifest.rs`: immutable manifests, the `CURRENT` pointer that
publishes one of them, and named checkpoints. The store's process lock is not a
step of the model: one process holds the database for a whole session.
-/

namespace Vyrm.Kv
open Lib Lib.FaultFs

variable [Platform]

def manifestFormatVersion : Nat := 1

namespace SegmentDescriptor

/-- `SegmentDescriptor::validate` (`manifest.rs:30-54`). -/
def validate (descriptor : SegmentDescriptor) : Except Error Unit := do
  rejectIf (¬ isSha256 descriptor.id ∨ ¬ isSha256 descriptor.checksum)
    (.invalidManifest "segment identity and checksum must be content-addressed SHA-256 values")
  rejectIf (descriptor.firstKey > descriptor.lastKey)
    (.invalidManifest s!"segment {text descriptor.id} has an inverted key range")
  rejectIf (descriptor.minimumSequence = 0 ∨
      descriptor.minimumSequence > descriptor.maximumSequence)
    (.invalidManifest s!"segment {text descriptor.id} has an invalid sequence range")
  rejectIf (descriptor.entries = 0 ∨ descriptor.bytes = 0)
    (.invalidManifest s!"segment {text descriptor.id} must contain entries and bytes")

/-- The comparison of `segments.sort_by` (`manifest.rs:81-86`): level, first key, identity. -/
def order (left right : SegmentDescriptor) : Ordering :=
  (compare left.level right.level).then
    ((compare left.firstKey right.firstKey).then (compare left.id right.id))

end SegmentDescriptor

namespace Manifest

/-- `bytes_without_digest` (`manifest.rs:168-188`). -/
def content (manifest : Manifest) : ManifestContent :=
  { formatVersion := manifest.formatVersion
    generation := manifest.generation
    parent := manifest.parent
    createdAt := manifest.createdAt
    durableSequence := manifest.durableSequence
    walStartSequence := manifest.walStartSequence
    segments := manifest.segments }

/-- `digest::sha256_hex(&self.bytes_without_digest()?)`. -/
def expectedDigest (manifest : Manifest) : Bytes :=
  sha256Hex (Platform.contentToVec manifest.content)

/-- The segment loop of `validate_components` (`manifest.rs:149-164`). -/
def validateSegments (durableSequence : Nat) :
    List SegmentDescriptor → List Bytes → Except Error Unit
  | [], _ => pure ()
  | segment :: rest, identities => do
    segment.validate
    rejectIf (segment.id ∈ identities)
      (.invalidManifest s!"segment {text segment.id} appears more than once")
    rejectIf (segment.maximumSequence > durableSequence)
      (.invalidManifest s!"segment {text segment.id} extends beyond the durable sequence")
    validateSegments durableSequence rest (segment.id :: identities)

/-- `Manifest::validate_components` (`manifest.rs:119-166`). -/
def validateComponents (manifest : Manifest) : Except Error Unit := do
  rejectIf (manifest.generation = 0)
    (.invalidManifest "manifest generation must be greater than zero")
  rejectIf (manifest.walStartSequence > saturatingAdd manifest.durableSequence 1)
    (.invalidManifest "WAL start cannot skip beyond the durable sequence")
  rejectIf (manifest.generation = 1 ∧ manifest.parent.isSome)
    (.invalidManifest "the first manifest cannot name a parent")
  rejectIf (manifest.generation > 1 ∧ manifest.parent.all List.isEmpty)
    (.invalidManifest "later manifests require a parent digest")
  rejectIf (∃ parent ∈ manifest.parent, ¬ isSha256 parent)
    (.invalidManifest "manifest parent must be a SHA-256 digest")
  validateSegments manifest.durableSequence manifest.segments []

/-- `Manifest::validate` (`manifest.rs:102-117`). -/
def validate (manifest : Manifest) : Except Error Unit := do
  rejectIf (manifest.formatVersion ≠ manifestFormatVersion)
    (.unsupportedVersion "manifest" manifest.formatVersion)
  manifest.validateComponents
  rejectIf (manifest.digest ≠ manifest.expectedDigest)
    (.invalidManifest "manifest digest does not match its fields")

/-- `segments.sort_by(...)`. -/
def sortSegments (segments : List SegmentDescriptor) : List SegmentDescriptor :=
  segments.mergeSort fun left right => left.order right != .gt

/-- `Manifest::new` (`manifest.rs:73-100`). -/
def new (generation : Nat) (parent : Option Bytes) (createdAt durableSequence walStartSequence : Nat)
    (segments : List SegmentDescriptor) : Except Error Manifest := do
  let manifest : Manifest :=
    { formatVersion := manifestFormatVersion, generation, parent, createdAt, durableSequence,
      walStartSequence, segments := sortSegments segments, digest := [] }
  manifest.validateComponents
  return { manifest with digest := manifest.expectedDigest }

end Manifest

namespace CurrentPointer

/-- `CurrentPointer::expected_checksum` (`manifest.rs:292-298`), over `b"vyrm-current-v1\0"`. -/
def expectedChecksum (pointer : CurrentPointer) : Bytes :=
  sha256Hex ([118, 121, 114, 109, 45, 99, 117, 114, 114, 101, 110, 116, 45, 118, 49, 0] ++
    toBE 2 pointer.formatVersion ++ toBE 8 pointer.generation ++ pointer.manifest)

/-- `CurrentPointer::new` (`manifest.rs:261-270`). -/
def new (manifest : Manifest) : CurrentPointer :=
  let pointer : CurrentPointer :=
    { formatVersion := manifestFormatVersion, generation := manifest.generation,
      manifest := manifest.digest, checksum := [] }
  { pointer with checksum := pointer.expectedChecksum }

/-- `CurrentPointer::validate` (`manifest.rs:272-290`). -/
def validate (pointer : CurrentPointer) : Except Error Unit := do
  rejectIf (pointer.formatVersion ≠ manifestFormatVersion)
    (.unsupportedVersion "CURRENT pointer" pointer.formatVersion)
  rejectIf (pointer.generation = 0 ∨ ¬ isSha256 pointer.manifest ∨ ¬ isSha256 pointer.checksum)
    (.invalidManifest "invalid CURRENT pointer fields")
  rejectIf (pointer.checksum ≠ pointer.expectedChecksum)
    (.invalidManifest "CURRENT pointer checksum mismatch")

end CurrentPointer

/-- `byte.is_ascii_alphanumeric() || matches!(byte, b'-' | b'_' | b'.')`. -/
def checkpointNameByte (byte : UInt8) : Bool :=
  (48 ≤ byte && byte ≤ 57) || (65 ≤ byte && byte ≤ 90) || (97 ≤ byte && byte ≤ 122) ||
    byte == 45 || byte == 95 || byte == 46

/-- `validate_checkpoint_name` (`manifest.rs:488-501`). -/
def validateCheckpointName (name : Bytes) : Except Error Unit :=
  rejectIf (name = [] ∨ name.length > 128 ∨ ¬ name.all checkpointNameByte)
    (.invalidManifest s!"invalid checkpoint name {quoted name}")

namespace Checkpoint

/-- `Checkpoint::expected_checksum` (`manifest.rs:248-257`), over `b"vyrm-checkpoint-v1\0"`. -/
def expectedChecksum (checkpoint : Checkpoint) : Bytes :=
  sha256Hex ([118, 121, 114, 109, 45, 99, 104, 101, 99, 107, 112, 111, 105, 110, 116, 45, 118, 49, 0]
    ++ toBE 2 checkpoint.formatVersion ++ checkpoint.name ++ [0] ++ checkpoint.manifest ++
    toBE 8 checkpoint.generation ++ toBE 8 checkpoint.createdAt)

/-- `Checkpoint::new` (`manifest.rs:214-226`). -/
def new (name : Bytes) (manifest : Manifest) (createdAt : Nat) : Except Error Checkpoint := do
  validateCheckpointName name
  let checkpoint : Checkpoint :=
    { formatVersion := manifestFormatVersion, name, manifest := manifest.digest,
      generation := manifest.generation, createdAt, checksum := [] }
  return { checkpoint with checksum := checkpoint.expectedChecksum }

/-- `Checkpoint::validate` (`manifest.rs:228-246`). -/
def validate (checkpoint : Checkpoint) : Except Error Unit := do
  rejectIf (checkpoint.formatVersion ≠ manifestFormatVersion)
    (.unsupportedVersion "checkpoint" checkpoint.formatVersion)
  validateCheckpointName checkpoint.name
  rejectIf (¬ isSha256 checkpoint.manifest ∨ ¬ isSha256 checkpoint.checksum ∨
      checkpoint.generation = 0 ∨ checkpoint.checksum ≠ checkpoint.expectedChecksum)
    (.invalidManifest "invalid checkpoint identity or checksum")

end Checkpoint

/-! ## The manifest store -/

/-- `persist_rename` (`manifest.rs:503-518`): the temporary is removed when a step fails. The
writers of segment files have the same body (`segment.rs:238-255`, `348-362`). -/
def persistRename (directory : Directory) (temporary target : Path) (bytes : Bytes) : Io Unit := do
  createNew temporary
  onError
    (do
      writeAll temporary bytes
      syncFile temporary
      rename temporary target
      syncDirectory directory)
    (fun error => do
      let _ ← attempt (removeFile temporary)
      throw (.error error))

namespace ManifestStore

/-- `ManifestStore::open` (`manifest.rs:309-323`). -/
def «open» : Io Unit := openCreate .lock

/-- The checks of `ManifestStore::load` on the content of the file (`manifest.rs:352-360`). -/
def parseManifest (digest bytes : Bytes) : Except Error Manifest := do
  let manifest ← parseJson Platform.manifestJson bytes
  manifest.validate
  rejectIf (manifest.digest ≠ digest)
    (.invalidManifest "manifest filename differs from its content identity")
  return manifest

/-- `ManifestStore::load` (`manifest.rs:341-362`). -/
def load (digest : Bytes) : Io Manifest := do
  rejectIf (¬ isSha256 digest) (.invalidManifest "manifest lookup requires a SHA-256 identity")
  let bytes ← readFile (.manifest digest)
  parseManifest digest bytes

/-- `std::fs::read(CURRENT)`, with a missing file turned into `None` (`manifest.rs:327-331`). -/
def readCurrent : Io (Option Bytes) := do
  match ← attempt (readFile .current) with
  | .ok bytes => return some bytes
  | .error (.io .notFound) => return none
  | .error error => throw (.error error)

/-- `ManifestStore::current` (`manifest.rs:325-341`). -/
def current : Io (Option (CurrentPointer × Manifest)) := do
  match ← readCurrent with
  | none => return none
  | some bytes =>
    let pointer ← parseJson Platform.pointerJson bytes
    pointer.validate
    let manifest ← load pointer.manifest
    rejectIf (manifest.generation ≠ pointer.generation)
      (.invalidManifest "CURRENT generation differs from its manifest")
    return some (pointer, manifest)

/-- `ManifestStore::persist_manifest` (`manifest.rs:459-477`). -/
def persistManifest (manifest : Manifest) : Io Unit := do
  let path := Path.manifest manifest.digest
  let bytes := Platform.manifestJson.toVec manifest
  if ← pathExists path then
    let existing ← readFile path
    rejectIf (existing ≠ bytes)
      (.invalidManifest "existing manifest identity has different bytes")
  else
    let id ← nextPointerTemporaryId
    persistRename .manifests (.manifestTemporary manifest.digest id) path bytes

/-- `ManifestStore::publish_pointer` (`manifest.rs:479-486`). -/
def publishPointer (pointer : CurrentPointer) : Io Unit := do
  let id ← nextPointerTemporaryId
  persistRename .root (.currentTemporary id) .current (Platform.pointerJson.toVec pointer)

/-- The compare-and-swap conditions of `publish` (`manifest.rs:366-387`). -/
def admission (manifest : Manifest) (expected : Option Bytes)
    (current : Option (CurrentPointer × Manifest)) : Except Error Unit := do
  let actual := current.map fun c => c.1.manifest
  rejectIf (actual ≠ expected) (.manifestConflict expected actual)
  match current with
  | none =>
    rejectIf (¬ (manifest.generation = 1 ∧ manifest.parent = none))
      (.invalidManifest "manifest generation/parent does not extend CURRENT")
  | some (pointer, _) =>
    rejectIf (¬ (manifest.generation = pointer.generation + 1 ∧
        manifest.parent = some pointer.manifest))
      (.invalidManifest "manifest generation/parent does not extend CURRENT")

/-- `ManifestStore::publish` (`manifest.rs:364-391`). -/
def publish (manifest : Manifest) (expected : Option Bytes) : Io CurrentPointer := do
  manifest.validate
  let current ← current
  admission manifest expected current
  persistManifest manifest
  let pointer := CurrentPointer.new manifest
  publishPointer pointer
  return pointer

/-- `ManifestStore::checkpoint` (`manifest.rs:393-420`). -/
def checkpoint (name manifestDigest : Bytes) (createdAt : Nat) : Io Checkpoint := do
  let manifest ← load manifestDigest
  let checkpoint ← Checkpoint.new name manifest createdAt
  let path := Path.checkpoint name
  if ← pathExists path then
    let bytes ← readFile path
    let existing ← parseJson Platform.checkpointJson bytes
    existing.validate
    rejectIf (existing ≠ checkpoint)
      (.invalidManifest s!"checkpoint {quoted name} already pins another manifest or instant")
    return existing
  else
    let id ← nextPointerTemporaryId
    persistRename .checkpoints (.checkpointTemporary name id) path
      (Platform.checkpointJson.toVec checkpoint)
    return checkpoint

/-- One directory entry of `checkpoints` (`manifest.rs:430-441`). -/
def readCheckpoint (path : Path) : Io Checkpoint := do
  let bytes ← readFile path
  let checkpoint ← parseJson Platform.checkpointJson bytes
  checkpoint.validate
  let manifest ← load checkpoint.manifest
  rejectIf (manifest.generation ≠ checkpoint.generation)
    (.invalidManifest s!"checkpoint {quoted checkpoint.name} generation differs from its manifest")
  return checkpoint

/-- The names that `read_dir` yields and a filter keeps. -/
def listFiles (keep : Path → Bool) : Io (List Path) := fun w => .ok (w.files.keys.filter keep) w

/-- Whether a file is `checkpoints/*.json`. -/
def isCheckpoint : Path → Bool
  | .checkpoint _ => true
  | _ => false

/-- `ManifestStore::checkpoints` (`manifest.rs:422-443`). -/
def checkpoints : Io (List Checkpoint) := do
  let paths ← listFiles isCheckpoint
  let loaded ← paths.mapM readCheckpoint
  return loaded.mergeSort fun left right => compare left.name right.name != .gt

/-- `ManifestStore::release_checkpoint` (`manifest.rs:445-457`). -/
def releaseCheckpoint (name : Bytes) : Io Bool := do
  validateCheckpointName name
  match ← attempt (removeFile (.checkpoint name)) with
  | .ok () => do
    syncDirectory .checkpoints
    return true
  | .error (.io .notFound) => return false
  | .error error => throw (.error error)

end ManifestStore
end Vyrm.Kv
