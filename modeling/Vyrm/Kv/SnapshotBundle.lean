import Vyrm.Kv.Manifest
import Vyrm.Kv.Segment.Read

/-!
# Snapshot bundles

`crates/vyrm-kv/src/snapshot_bundle.rs`: the transferable closure of one
flush-bounded manifest, held in memory (`SnapshotBundle`) or backed by a file
(`SnapshotBundleFile`).
-/

namespace Vyrm.Kv
open Lib Lib.FaultFs

variable [Platform]

def snapshotBundleFormatVersion : Nat := 1
/-- `b"VYRSNP01"`. -/
def bundleMagic : Bytes := [86, 89, 82, 83, 78, 80, 48, 49]
def bundleHeaderBytes : Nat := 20
def bundleFooterBytes : Nat := 64
def snapshotBundleMaxBytes : Nat := 1024 * 1024 * 1024
def maxSegments : Nat := 1000000
def maxManifestBytes : Nat := 16 * 1024 * 1024
def maxDescriptorBytes : Nat := 1024 * 1024

/-- `SnapshotExportBoundary` (`snapshot_bundle.rs:19-23`). -/
inductive SnapshotExportBoundary where
  | headerWritten
  | segmentWritten
  | fileSynced
  deriving DecidableEq, Repr

/-- `SnapshotSegment` (`snapshot_bundle.rs:36-39`). -/
structure SnapshotSegment where
  descriptor : SegmentDescriptor
  bytes : Bytes
  deriving DecidableEq, Repr

/-- `SnapshotBundle` (`snapshot_bundle.rs:42-47`). -/
structure SnapshotBundle where
  formatVersion : Nat
  sourceManifest : Manifest
  segments : List SnapshotSegment
  digest : Bytes
  deriving DecidableEq, Repr

/-- `FileSegment` (`snapshot_bundle.rs:50-54`). -/
structure FileSegment where
  descriptor : SegmentDescriptor
  offset : Nat
  length : Nat
  deriving DecidableEq, Repr

/-- `SnapshotBundleFile` (`snapshot_bundle.rs:63-69`). -/
structure SnapshotBundleFile where
  path : Path
  sourceManifest : Manifest
  segments : List FileSegment
  digest : Bytes
  length : Nat
  deriving DecidableEq, Repr

/-- The error of every size check of a bundle. -/
def bundleTooLarge : Error :=
  .invalidManifest s!"snapshot bundle exceeds {snapshotBundleMaxBytes} bytes"

/-- Keeps the newer of two versions of a key, the earlier found on a tie
(`snapshot_bundle.rs:324-329`, `449-454`). -/
def selectNewer (selected : Option (Nat × Option Bytes)) (version : Option SegmentVersion) :
    Option (Nat × Option Bytes) :=
  match version with
  | none => selected
  | some v => if selected.all (fun prior => v.sequence > prior.1) then some (v.sequence, v.value)
    else selected

/-- The loop of the two `get_many` over their segments, for one key. -/
def selectOverSegments (key : Bytes) (readSequence : Nat) :
    List Segment → Option (Nat × Option Bytes) → Except Error (Option (Nat × Option Bytes))
  | [], selected => pure selected
  | segment :: rest, selected => do
    let version ← segment.getVersion key readSequence
    selectOverSegments key readSequence rest (selectNewer selected version)

namespace SnapshotBundle

/-- The segment loop of `content_bytes` (`snapshot_bundle.rs:568-583`). -/
def appendSegments : List SnapshotSegment → Bytes → Except Error Bytes
  | [], output => pure output
  | segment :: rest, output => do
    let descriptor := Platform.descriptorJson.toVec segment.descriptor
    let descriptorLen ← u32TryFrom descriptor.length
      (.invalidManifest "snapshot segment descriptor exceeds u32")
    let output := output ++ (toBE 4 descriptorLen ++ toBE 8 segment.bytes.length ++ descriptor ++
      segment.bytes)
    rejectIf (output.length + bundleFooterBytes > snapshotBundleMaxBytes) bundleTooLarge
    appendSegments rest output

/-- `SnapshotBundle::content_bytes` (`snapshot_bundle.rs:553-585`). -/
def contentBytes (bundle : SnapshotBundle) : Except Error Bytes := do
  let manifest := Platform.manifestJson.toVec bundle.sourceManifest
  let manifestLen ← u32TryFrom manifest.length (.invalidManifest "snapshot manifest exceeds u32")
  let segmentCount ← u32TryFrom bundle.segments.length
    (.invalidManifest "snapshot segment count exceeds u32")
  appendSegments bundle.segments (bundleMagic ++ toBE 2 bundle.formatVersion ++ toBE 2 0 ++
    toBE 4 manifestLen ++ toBE 4 segmentCount ++ manifest)

/-- The segment loop of `validated_segments` (`snapshot_bundle.rs:407-414`). -/
def validateEach : List (SnapshotSegment × SegmentDescriptor) → Except Error (List Segment)
  | [] => pure []
  | (bundled, expected) :: rest => do
    rejectIf (bundled.descriptor ≠ expected)
      (.invalidManifest "snapshot segment order or descriptor differs from its manifest")
    let segment ← Segment.validateSnapshotBytes expected bundled.bytes
    let rest ← validateEach rest
    return segment :: rest

/-- `SnapshotBundle::validated_segments` (`snapshot_bundle.rs:384-428`). -/
def validatedSegments (bundle : SnapshotBundle) : Except Error (List Segment) := do
  rejectIf (bundle.formatVersion ≠ snapshotBundleFormatVersion)
    (.unsupportedVersion "snapshot bundle" bundle.formatVersion)
  bundle.sourceManifest.validate
  rejectIf (bundle.sourceManifest.walStartSequence ≠
      saturatingAdd bundle.sourceManifest.durableSequence 1)
    (.invalidManifest "snapshot manifest is not flush-bounded to an empty successor WAL")
  rejectIf (bundle.segments.length > maxSegments ∨
      bundle.segments.length ≠ bundle.sourceManifest.segments.length)
    (.invalidManifest "snapshot bundle segment inventory does not match its manifest")
  let segments ← validateEach (bundle.segments.zip bundle.sourceManifest.segments)
  let content ← bundle.contentBytes
  rejectIf (content.length + bundleFooterBytes > snapshotBundleMaxBytes) bundleTooLarge
  rejectIf (bundle.digest ≠ sha256Hex content)
    (.invalidManifest "snapshot bundle digest does not match its content")
  return segments

/-- `SnapshotBundle::validate` (`snapshot_bundle.rs:380-382`). -/
def validate (bundle : SnapshotBundle) : Except Error Unit := do
  let _ ← bundle.validatedSegments

/-- `SnapshotBundle::new` (`snapshot_bundle.rs:368-378`). -/
def new (sourceManifest : Manifest) (segments : List SnapshotSegment) :
    Except Error SnapshotBundle := do
  let bundle : SnapshotBundle :=
    { formatVersion := snapshotBundleFormatVersion, sourceManifest, segments, digest := [] }
  let content ← bundle.contentBytes
  let bundle := { bundle with digest := sha256Hex content }
  bundle.validate
  return bundle

/-- `SnapshotBundle::get_many` (`snapshot_bundle.rs:439-462`). The source runs the two loops
segment by segment; each key's selection depends on its own entry only. -/
def getMany (bundle : SnapshotBundle) (keys : List Bytes) : Except Error (List (Option Bytes)) := do
  let segments ← bundle.validatedSegments
  keys.mapM fun key => do
    let selected ← selectOverSegments key bundle.sourceManifest.durableSequence segments none
    return selected.bind (·.2)

/-- `SnapshotBundle::get` (`snapshot_bundle.rs:433-438`). -/
def get (bundle : SnapshotBundle) (key : Bytes) : Except Error (Option Bytes) := do
  let values ← bundle.getMany [key]
  return values.getLast?.getD none

/-- `SnapshotBundle::encode` (`snapshot_bundle.rs:464-469`). -/
def encode (bundle : SnapshotBundle) : Except Error Bytes := do
  bundle.validate
  let output ← bundle.contentBytes
  return output ++ bundle.digest

/-- `checked_end` (`snapshot_bundle.rs:603-613`). -/
def checkedEnd (cursor length bound : Nat) : Except Error Nat := do
  rejectIf (cursor + length > bound) (.invalidManifest "snapshot field exceeds the declared bundle")
  return cursor + length

/-- The segment loop of `decode` (`snapshot_bundle.rs:518-536`). -/
def decodeSegments (bytes : Bytes) (contentEnd : Nat) :
    Nat → Nat → Except Error (List SnapshotSegment × Nat)
  | 0, cursor => pure ([], cursor)
  | count + 1, cursor => do
    let next ← checkedEnd cursor 4 contentEnd
    let descriptorLen := ofBE (slice bytes cursor next)
    let cursor := next
    let next ← checkedEnd cursor 8 contentEnd
    let segmentLen := ofBE (slice bytes cursor next)
    let cursor := next
    let descriptorEnd ← checkedEnd cursor descriptorLen contentEnd
    let descriptor ← parseJson Platform.descriptorJson (slice bytes cursor descriptorEnd)
    let segmentEnd ← checkedEnd descriptorEnd segmentLen contentEnd
    let (rest, cursor) ← decodeSegments bytes contentEnd count segmentEnd
    return (⟨descriptor, slice bytes descriptorEnd segmentEnd⟩ :: rest, cursor)

/-- `SnapshotBundle::decode` (`snapshot_bundle.rs:471-551`). -/
def decode (bytes : Bytes) : Except Error SnapshotBundle := do
  rejectIf (bytes.length < bundleHeaderBytes + bundleFooterBytes ∨
      bytes.length > snapshotBundleMaxBytes)
    (.invalidManifest "snapshot bundle length is outside its physical contract")
  rejectIf (slice bytes 0 8 ≠ bundleMagic) (.invalidManifest "snapshot bundle magic does not match")
  let version := ofBE (slice bytes 8 10)
  rejectIf (version ≠ snapshotBundleFormatVersion) (.unsupportedVersion "snapshot bundle" version)
  rejectIf (slice bytes 10 12 ≠ [0, 0]) (.invalidManifest "snapshot bundle has unknown flags")
  let contentEnd := bytes.length - bundleFooterBytes
  let encodedDigest := bytes.drop contentEnd
  let actualDigest := sha256Hex (bytes.take contentEnd)
  rejectIf (encodedDigest ≠ actualDigest)
    (if (ByteArray.mk encodedDigest.toArray).validateUTF8 then
      .invalidManifest "snapshot bundle digest does not authenticate its encoded bytes"
    else .invalidManifest "snapshot digest is not ASCII")
  let manifestLen := ofBE (slice bytes 12 16)
  let segmentCount := ofBE (slice bytes 16 20)
  rejectIf (manifestLen = 0 ∨ segmentCount > maxSegments)
    (.invalidManifest "snapshot bundle manifest length or segment count is invalid")
  let manifestEnd ← checkedEnd bundleHeaderBytes manifestLen contentEnd
  let sourceManifest ← parseJson Platform.manifestJson (slice bytes bundleHeaderBytes manifestEnd)
  let (segments, cursor) ← decodeSegments bytes contentEnd segmentCount manifestEnd
  rejectIf (cursor ≠ contentEnd)
    (.invalidManifest s!"snapshot bundle has {contentEnd - cursor} undeclared content bytes")
  let bundle : SnapshotBundle :=
    { formatVersion := version, sourceManifest, segments, digest := encodedDigest }
  bundle.validate
  return bundle

end SnapshotBundle

namespace SnapshotBundleFile

/-- `validate_manifest_contract` (`snapshot_bundle.rs:614-627`). -/
def validateManifestContract (manifest : Manifest) : Except Error Unit := do
  manifest.validate
  rejectIf (manifest.walStartSequence ≠ saturatingAdd manifest.durableSequence 1)
    (.invalidManifest "snapshot manifest is not flush-bounded to an empty successor WAL")
  rejectIf (manifest.segments.length > maxSegments)
    (.invalidManifest "snapshot bundle has too many segments")

/-- `write_hashed` (`snapshot_bundle.rs:629-646`): `content` is everything written and hashed
so far. -/
def writeHashed (path : Path) (content bytes : Bytes) : Io Bytes := do
  rejectIf (content.length + bytes.length + bundleFooterBytes > snapshotBundleMaxBytes)
    bundleTooLarge
  writeAll path bytes
  return content ++ bytes

/-- The segment loop of `create_with_hook` (`snapshot_bundle.rs:119-157`). -/
def writeSegments (path : Path) (hook : SnapshotExportBoundary → Except Error Unit) :
    List SegmentDescriptor → Bytes → Io Bytes
  | [], content => pure content
  | descriptor :: rest, content => do
    let encoded := Platform.descriptorJson.toVec descriptor
    rejectIf (encoded = [] ∨ encoded.length > maxDescriptorBytes) (.invalidManifest
      "snapshot segment descriptor length is outside its physical contract")
    let source ← readFile (.segment descriptor.id)
    rejectIf (source.length ≠ descriptor.bytes) (.invalidManifest
      s!"snapshot segment {text descriptor.id} length differs from its manifest")
    let content ← writeHashed path content (toBE 4 encoded.length)
    let content ← writeHashed path content (toBE 8 source.length)
    let content ← writeHashed path content encoded
    let content ← writeHashed path content source
    hook .segmentWritten
    writeSegments path hook rest content

/-- The closure of `create_with_hook` (`snapshot_bundle.rs:103-173`). -/
def writeBundle (sourceManifest : Manifest) (manifest : Bytes) (path : Path)
    (hook : SnapshotExportBoundary → Except Error Unit) : Io Unit := do
  let content ← writeHashed path [] bundleMagic
  let content ← writeHashed path content (toBE 2 snapshotBundleFormatVersion)
  let content ← writeHashed path content (toBE 2 0)
  let content ← writeHashed path content (toBE 4 manifest.length)
  let content ← writeHashed path content (toBE 4 sourceManifest.segments.length)
  let content ← writeHashed path content manifest
  hook .headerWritten
  let content ← writeSegments path hook sourceManifest.segments content
  writeAll path (sha256Hex content)
  rejectIf (content.length + bundleFooterBytes > snapshotBundleMaxBytes) bundleTooLarge
  syncFile path
  syncDirectory .bundles
  hook .fileSynced

/-- `ensure_file_range` (`snapshot_bundle.rs:648-658`). -/
def ensureFileRange (offset length bound : Nat) : Except Error Unit :=
  rejectIf (offset + length > bound) (.invalidManifest "snapshot field exceeds the declared bundle")

/-- The segment loop of `open` (`snapshot_bundle.rs:256-289`). -/
def readSegments (bytes : Bytes) (contentEnd : Nat) :
    List SegmentDescriptor → Nat → Except Error (List FileSegment × Nat)
  | [], cursor => pure ([], cursor)
  | expected :: rest, cursor => do
    let lengths ← okOr (slice? bytes cursor (cursor + 12)) (.io .unexpectedEof)
    let descriptorLen := ofBE (slice lengths 0 4)
    let segmentLen := ofBE (slice lengths 4 12)
    rejectIf (descriptorLen = 0 ∨ descriptorLen > maxDescriptorBytes) (.invalidManifest
      "snapshot segment descriptor length is outside its physical contract")
    let descriptorAt := cursor + 12
    ensureFileRange descriptorAt descriptorLen contentEnd
    let descriptor ← parseJson Platform.descriptorJson
      (slice bytes descriptorAt (descriptorAt + descriptorLen))
    rejectIf (descriptor ≠ expected ∨ segmentLen ≠ descriptor.bytes) (.invalidManifest
      "snapshot segment order, descriptor, or length differs from its manifest")
    let offset := descriptorAt + descriptorLen
    ensureFileRange offset segmentLen contentEnd
    let (rest, cursor) ← readSegments bytes contentEnd rest (offset + segmentLen)
    return (⟨descriptor, offset, segmentLen⟩ :: rest, cursor)

/-- The deep validation at the end of `open`: `validated_segment` for every index. -/
def validateSegments (bytes : Bytes) : List FileSegment → Except Error (List Segment)
  | [] => pure []
  | segment :: rest => do
    let part ← okOr (slice? bytes segment.offset (segment.offset + segment.length))
      (.io .unexpectedEof)
    let validated ← Segment.validateSnapshotBytes segment.descriptor part
    let rest ← validateSegments bytes rest
    return validated :: rest

/-- `SnapshotBundleFile::open` on the content of the file (`snapshot_bundle.rs:188-310`). -/
def openBytes (path : Path) (bytes : Bytes) : Except Error SnapshotBundleFile := do
  rejectIf (bytes.length < bundleHeaderBytes + bundleFooterBytes ∨
      bytes.length > snapshotBundleMaxBytes)
    (.invalidManifest "snapshot bundle length is outside its physical contract")
  let contentEnd := bytes.length - bundleFooterBytes
  let encodedDigest := bytes.drop contentEnd
  let actualDigest := sha256Hex (bytes.take contentEnd)
  rejectIf (encodedDigest ≠ actualDigest)
    (if (ByteArray.mk encodedDigest.toArray).validateUTF8 then
      .invalidManifest "snapshot bundle digest does not authenticate its encoded bytes"
    else .invalidManifest "snapshot digest is not ASCII")
  rejectIf (slice bytes 0 8 ≠ bundleMagic) (.invalidManifest "snapshot bundle magic does not match")
  let version := ofBE (slice bytes 8 10)
  rejectIf (version ≠ snapshotBundleFormatVersion) (.unsupportedVersion "snapshot bundle" version)
  rejectIf (slice bytes 10 12 ≠ [0, 0]) (.invalidManifest "snapshot bundle has unknown flags")
  let manifestLen := ofBE (slice bytes 12 16)
  let segmentCount := ofBE (slice bytes 16 20)
  rejectIf (manifestLen = 0 ∨ manifestLen > maxManifestBytes ∨ segmentCount > maxSegments)
    (.invalidManifest "snapshot bundle manifest length or segment count is invalid")
  ensureFileRange bundleHeaderBytes manifestLen contentEnd
  let sourceManifest ← parseJson Platform.manifestJson
    (slice bytes bundleHeaderBytes (bundleHeaderBytes + manifestLen))
  validateManifestContract sourceManifest
  rejectIf (sourceManifest.segments.length ≠ segmentCount)
    (.invalidManifest "snapshot bundle segment inventory does not match its manifest")
  let (segments, cursor) ← readSegments bytes contentEnd sourceManifest.segments
    (bundleHeaderBytes + manifestLen)
  rejectIf (cursor ≠ contentEnd) (.invalidManifest "snapshot bundle has undeclared content bytes")
  let _ ← validateSegments bytes segments
  return { path, sourceManifest, segments, digest := encodedDigest, length := bytes.length }

/-- `SnapshotBundleFile::open` (`snapshot_bundle.rs:188-310`). -/
def «open» (path : Path) : Io SnapshotBundleFile := do
  let bytes ← readFile path
  openBytes path bytes

/-- `SnapshotBundleFile::create_with_hook` (`snapshot_bundle.rs:80-186`). -/
def createWithHook (sourceManifest : Manifest) (destination : Path)
    (hook : SnapshotExportBoundary → Except Error Unit) : Io SnapshotBundleFile := do
  validateManifestContract sourceManifest
  let manifest := Platform.manifestJson.toVec sourceManifest
  rejectIf (manifest = [] ∨ manifest.length > maxManifestBytes)
    (.invalidManifest "snapshot manifest length is outside its physical contract")
  let _ ← u32TryFrom manifest.length (.invalidManifest "snapshot manifest exceeds u32")
  let _ ← u32TryFrom sourceManifest.segments.length
    (.invalidManifest "snapshot segment count exceeds u32")
  createNew destination
  onError (writeBundle sourceManifest manifest destination hook)
    (fun error => do
      let _ ← attempt (removeFile destination)
      throw (.error error))
  «open» destination

/-- `SnapshotBundleFile::create` (`snapshot_bundle.rs:72-78`). -/
def create (sourceManifest : Manifest) (destination : Path) : Io SnapshotBundleFile :=
  createWithHook sourceManifest destination fun _ => pure ()

/-- `SnapshotBundleFile::segment_bytes` (`snapshot_bundle.rs:339-352`), for a segment of the
bundle. -/
def segmentBytes (bundle : SnapshotBundleFile) (segment : FileSegment) : Io Bytes := do
  let bytes ← readFile bundle.path
  okOr (slice? bytes segment.offset (segment.offset + segment.length)) (.io .unexpectedEof)

/-- `SnapshotBundleFile::get_many` (`snapshot_bundle.rs:316-337`), one key at a time as in
`SnapshotBundle.getMany`. -/
def getMany (bundle : SnapshotBundleFile) (keys : List Bytes) : Io (List (Option Bytes)) := do
  let segments ← bundle.segments.mapM fun segment => do
    let bytes ← bundle.segmentBytes segment
    Segment.validateSnapshotBytes segment.descriptor bytes
  keys.mapM fun key => do
    let selected ← selectOverSegments key bundle.sourceManifest.durableSequence segments none
    return selected.bind (·.2)

end SnapshotBundleFile
end Vyrm.Kv
