import Vyrm.Kv.Memtable

/-!
# Segment files

The physical formats of `crates/vyrm-kv/src/segment.rs`: the version 3 encoder,
the version 3 decoder with its complete validation, and the readers of the two
legacy formats. A segment that was opened holds the bytes of its file; segment
files are never changed once they are in place.
-/

namespace Vyrm.Kv
open Lib Lib.FaultFs

variable [Platform]

def segmentFormatVersion : Nat := 3
def segmentBlockTargetBytes : Nat := 4 * 1024
/-- `b"VYRSEG01"`, `b"VYRSEG02"`, `b"VYRSEG03"` and `b"VYRIX003"`. -/
def segmentV1Magic : Bytes := [86, 89, 82, 83, 69, 71, 48, 49]
def segmentV2Magic : Bytes := [86, 89, 82, 83, 69, 71, 48, 50]
def segmentV3Magic : Bytes := [86, 89, 82, 83, 69, 71, 48, 51]
def indexV3Magic : Bytes := [86, 89, 82, 73, 88, 48, 48, 51]
def v1HeaderBytes : Nat := 40
def v2HeaderBytes : Nat := 48
def v3HeaderBytes : Nat := 64
def indexHeaderBytes : Nat := 16
def indexEntryBytes : Nat := 104
def recordHeaderBytes : Nat := 20
def footerBytes : Nat := 64
def maxSegmentBytes : Nat := 1024 * 1024 * 1024
def maxIndexBytes : Nat := 64 * 1024 * 1024
def maxDecodedBlockBytes : Nat := recordHeaderBytes + maxKeyBytes + maxValueBytes
def sparseIndexStride : Nat := 4

/-- `BlockDescriptor` (`segment.rs:99-107`). -/
structure BlockDescriptor where
  offset : Nat
  physicalBytes : Nat
  recordBytes : Nat
  entries : Nat
  digest : Bytes
  lastKey : Bytes
  deriving DecidableEq, Repr

/-- `SparseEntry` (`segment.rs:194-197`). -/
structure SparseEntry where
  offset : Nat
  key : Bytes
  deriving DecidableEq, Repr

/-- `SegmentStorage` (`segment.rs:165-176`). The shared block cache is a separate component:
a read through it returns what decoding the block returns. -/
inductive SegmentStorage where
  | legacy (records : Bytes) (sparseIndex : List SparseEntry)
  | blocked (source : Bytes) (blocks : List BlockDescriptor)
  deriving DecidableEq, Repr

/-- `Segment` (`segment.rs:178-181`). -/
structure Segment where
  descriptor : SegmentDescriptor
  storage : SegmentStorage
  deriving DecidableEq, Repr

/-- `Record` (`segment.rs:206-211`). -/
structure Record where
  key : Bytes
  value : Option Bytes
  sequence : Nat
  next : Nat
  deriving DecidableEq, Repr

/-- `segment.rs` `invalid`. -/
def invalidSegment {α : Type} (reason : String) : Except Error α := .error (.invalidSegment reason)

/-! ## Records -/

/-- `encode_record` (`segment.rs:868-891`). -/
def encodeRecord (key : Bytes) (version : VersionedValue) : Except Error Bytes := do
  let value := version.value.getD []
  let kind : UInt8 := if version.value.isSome then 1 else 2
  let size := recordHeaderBytes + key.length + value.length
  rejectIf (key = [] ∨ key.length > maxKeyBytes ∨ value.length > maxValueBytes ∨
      size > maxDecodedBlockBytes)
    (.invalidSegment "record exceeds the segment key/value contract")
  return [kind] ++ [0, 0, 0] ++ toBE 4 key.length ++ toBE 4 value.length ++
    toBE 8 version.sequence ++ key ++ value

/-- `parse_record` (`segment.rs:1488-1539`), whose callers all pass the length of `bytes` as
`content_end`. -/
def parseRecord (bytes : Bytes) (offset minimumSequence maximumSequence : Nat) :
    Except Error Record := do
  let headerEnd := offset + recordHeaderBytes
  let header ← okOr (slice? bytes offset headerEnd)
    (.invalidSegment "incomplete segment record header")
  let kind := header.headD 0
  rejectIf (slice header 1 4 ≠ [0, 0, 0]) (.invalidSegment "unknown segment record flags")
  let keyLen := ofBE (slice header 4 8)
  let valueLen := ofBE (slice header 8 12)
  let sequence := ofBE (slice header 12 20)
  let stop := headerEnd + keyLen + valueLen
  let body ← okOr (slice? bytes headerEnd stop) (.invalidSegment "incomplete segment record body")
  rejectIf (keyLen = 0 ∨ keyLen > maxKeyBytes ∨ valueLen > maxValueBytes ∨
      sequence < minimumSequence ∨ sequence > maximumSequence)
    (.invalidSegment "invalid segment key, value, or record sequence")
  let key := body.take keyLen
  let stored := body.drop keyLen
  if kind = 1 then return ⟨key, some stored, sequence, stop⟩
  else if kind = 2 then
    if stored = [] then return ⟨key, none, sequence, stop⟩
    else throw (.invalidSegment "segment tombstone carries a value")
  else throw (.invalidSegment s!"unknown segment record kind {kind}")

/-- `validate_order` (`segment.rs:1389-1398`). -/
def validateOrder (previous : Option (Bytes × Nat)) (record : Record) :
    Except Error (Option (Bytes × Nat)) := do
  rejectIf (∃ p ∈ previous, record.key < p.1 ∨ (record.key = p.1 ∧ record.sequence ≤ p.2))
    (.invalidSegment "segment records are not in canonical key/sequence order")
  return some (record.key, record.sequence)

/-! ## Encoding version 3 -/

/-- The block under construction: its records, their number and the last key. -/
structure RawBlock where
  records : Bytes
  entries : Nat
  lastKey : Bytes
  deriving DecidableEq, Repr

/-- The block-filling loops of `encode_v3` (`segment.rs:792-818`), over the versions in key
order. -/
def fillBlocks : List (Bytes × VersionedValue) → RawBlock → Nat → Except Error (List RawBlock × Nat)
  | [], current, total => pure (if current.records = [] then [] else [current], total)
  | (key, version) :: rest, current, total => do
    let record ← encodeRecord key version
    let total ← checkedAdd total record.length (.invalidSegment "record bytes overflow")
    if current.records ≠ [] ∧
        current.records.length + record.length > segmentBlockTargetBytes then
      let (blocks, total) ← fillBlocks rest ⟨record, 1, key⟩ total
      return (current :: blocks, total)
    else fillBlocks rest ⟨current.records ++ record, current.entries + 1, key⟩ total

/-- The block table and the data region it describes (`segment.rs:822-838`). -/
def layoutBlocks : List RawBlock → Nat → List BlockDescriptor × Bytes
  | [], _ => ([], [])
  | block :: rest, offset =>
    let compressed := Platform.compressPrependSize block.records
    let (descriptors, data) := layoutBlocks rest (offset + compressed.length)
    (⟨offset, compressed.length, block.records.length, block.entries,
        Platform.sha256 compressed, block.lastKey⟩ :: descriptors,
      compressed ++ data)

/-- One entry of the footer index (`segment.rs:844-852`). -/
def indexEntry (block : BlockDescriptor) : Bytes :=
  toBE 8 block.offset ++ toBE 8 block.physicalBytes ++ toBE 8 block.recordBytes ++
    toBE 8 block.entries ++ toBE 4 block.lastKey.length ++ toBE 4 0 ++ hex block.digest ++
    block.lastKey

/-- The footer index (`segment.rs:840-853`). -/
def indexBytes (descriptors : List BlockDescriptor) : Bytes :=
  indexV3Magic ++ toBE 4 descriptors.length ++ toBE 4 0 ++ descriptors.flatMap indexEntry

/-- The header fields that `encode_v3` fills in last (`segment.rs:854-865`). -/
def v3Header (entries minimumSequence maximumSequence totalRecordBytes indexOffset
    blockCount : Nat) : Bytes :=
  segmentV3Magic ++ toBE 2 segmentFormatVersion ++ toBE 2 v3HeaderBytes ++ toBE 4 1 ++
    toBE 8 entries ++ toBE 8 minimumSequence ++ toBE 8 maximumSequence ++
    toBE 8 totalRecordBytes ++ toBE 8 indexOffset ++ toBE 4 blockCount ++
    toBE 4 segmentBlockTargetBytes

/-- The versions of a memtable in the order the encoder visits them. -/
def Memtable.flatVersions (table : Memtable) : List (Bytes × VersionedValue) :=
  table.allVersions.flatMap fun (key, versions) => versions.map fun version => (key, version)

/-- `encode_v3` (`segment.rs:774-866`). -/
def encodeV3 (table : Memtable) : Except Error Bytes := do
  rejectIf (table.versionCount = 0) (.invalidSegment "cannot write an empty segment")
  let entries := table.versionCount
  let minimumSequence := ((table.flatVersions.map (·.2.sequence)).min?).getD 0
  let maximumSequence := table.maximumSequence
  let (blocks, totalRecordBytes) ← fillBlocks table.flatVersions ⟨[], 0, []⟩ 0
  rejectIf (totalRecordBytes > maxSegmentBytes)
    (.invalidSegment "uncompressed records exceed the 1 GiB safety limit")
  let (descriptors, data) := layoutBlocks blocks v3HeaderBytes
  let indexOffset := v3HeaderBytes + data.length
  let output := v3Header entries minimumSequence maximumSequence totalRecordBytes indexOffset
    descriptors.length ++ (data ++ indexBytes descriptors)
  rejectIf (output.length > maxSegmentBytes - footerBytes)
    (.invalidSegment "encoded segment exceeds the 1 GiB safety limit")
  return output ++ sha256Hex output

/-- The digest that names an encoded segment (`segment.rs:228`). -/
def segmentDigest (bytes : Bytes) : Bytes := sha256Hex (bytes.take (bytes.length - footerBytes))

/-! ## Decoding version 3 -/

/-- `decode_hex_nibble` (`segment.rs:1254-1260`). -/
def decodeHexNibble (byte : UInt8) : Except Error UInt8 :=
  if 48 ≤ byte ∧ byte ≤ 57 then .ok (byte - 48)
  else if 97 ≤ byte ∧ byte ≤ 102 then .ok (byte - 97 + 10)
  else .error (.invalidSegment "v3 block digest is not lowercase hexadecimal")

/-- The loop of `decode_sha256_hex` (`segment.rs:1243-1252`). -/
def decodeHexPairs : Bytes → Except Error Bytes
  | high :: low :: rest => do
    let high ← decodeHexNibble high
    let low ← decodeHexNibble low
    let digest ← decodeHexPairs rest
    return ((high <<< 4) ||| low) :: digest
  | _ => pure []

/-- `decode_sha256_hex` (`segment.rs:1243-1252`). -/
def decodeSha256Hex (encoded : Bytes) : Except Error Bytes := do
  rejectIf (encoded.length ≠ 64) (.invalidSegment "v3 block digest has the wrong length")
  decodeHexPairs encoded

/-- `decode_compressed_block` (`segment.rs:1214-1231`). -/
def decodeCompressedBlock (compressed : Bytes) (block : BlockDescriptor) : Except Error Bytes := do
  rejectIf (Platform.sha256 compressed ≠ block.digest)
    (.invalidSegment "v3 block checksum does not match")
  let sizePrefix ← okOr (slice? compressed 0 4)
    (.invalidSegment "v3 compressed block has no size prefix")
  let prefixed := ofLE sizePrefix
  rejectIf (prefixed ≠ block.recordBytes ∨ prefixed > maxDecodedBlockBytes)
    (.invalidSegment "v3 declared and compressed block lengths differ")
  let decoded ← match Platform.decompressSizePrepended compressed with
    | .ok decoded => pure decoded
    | .error reason => throw (.invalidSegment s!"v3 LZ4 decode failed: {reason}")
  rejectIf (decoded.length ≠ block.recordBytes)
    (.invalidSegment "v3 decoded block length differs from its index")
  return decoded

/-- The block-table loop of `read_v3_metadata` (`segment.rs:1044-1098`): the remaining
entries from `cursor`, the cursor after them and the end of the data they cover. -/
def readIndexEntries (index : Bytes) (indexOffset : Nat) :
    Nat → Nat → Nat → Option Bytes → Except Error (List BlockDescriptor × Nat × Nat)
  | 0, cursor, priorEnd, _ => pure ([], cursor, priorEnd)
  | count + 1, cursor, priorEnd, priorLastKey => do
    let fixedEnd := cursor + indexEntryBytes
    let fixed ← okOr (slice? index cursor fixedEnd) (.invalidSegment "truncated v3 index entry")
    let offset := ofBE (slice fixed 0 8)
    let physical := ofBE (slice fixed 8 16)
    let recordBytes := ofBE (slice fixed 16 24)
    let entries := ofBE (slice fixed 24 32)
    let keyLen := ofBE (slice fixed 32 36)
    rejectIf (slice fixed 36 40 ≠ [0, 0, 0, 0] ∨ physical < 4 ∨ recordBytes = 0 ∨
        recordBytes > maxDecodedBlockBytes ∨ entries = 0 ∨ keyLen = 0 ∨ keyLen > maxKeyBytes ∨
        offset ≠ priorEnd ∨ offset + physical > indexOffset)
      (.invalidSegment "invalid v3 block descriptor")
    let digest ← decodeSha256Hex (slice fixed 40 104)
    let keyEnd := fixedEnd + keyLen
    let lastKey ← okOr (slice? index fixedEnd keyEnd) (.invalidSegment "truncated v3 last key")
    rejectIf (∃ prior ∈ priorLastKey, prior > lastKey)
      (.invalidSegment "v3 block last keys are not ordered")
    let (blocks, cursor, priorEnd) ←
      readIndexEntries index indexOffset count keyEnd (offset + physical) (some lastKey)
    return (⟨offset, physical, recordBytes, entries, digest, lastKey⟩ :: blocks, cursor, priorEnd)

/-- What the record loops of `validate_v3_blocks` carry from record to record. -/
structure BlockScan where
  previous : Option (Bytes × Nat)
  firstKey : Option Bytes
  blockEntries : Nat
  blockLast : Option Bytes
  deriving DecidableEq, Repr

/-- The record loop of `validate_v3_blocks` (`segment.rs:1135-1151`). -/
def scanBlock (records : Bytes) (minimumSequence maximumSequence : Nat) :
    Nat → Nat → BlockScan → Except Error BlockScan
  | 0, _, scan => pure scan
  | fuel + 1, cursor, scan =>
    if cursor < records.length then do
      let record ← parseRecord records cursor minimumSequence maximumSequence
      let previous ← validateOrder scan.previous record
      scanBlock records minimumSequence maximumSequence fuel record.next
        ⟨previous, scan.firstKey <|> some record.key, scan.blockEntries + 1, some record.key⟩
    else pure scan

/-- What the block loop of `validate_v3_blocks` carries from block to block. -/
structure BlocksScan where
  previous : Option (Bytes × Nat)
  firstKey : Option Bytes
  lastKey : Option Bytes
  entries : Nat
  bytes : Nat
  deriving DecidableEq, Repr

/-- The block loop of `validate_v3_blocks` (`segment.rs:1129-1163`). -/
def scanBlocks (source : Bytes) (minimumSequence maximumSequence : Nat) :
    List BlockDescriptor → BlocksScan → Except Error BlocksScan
  | [], scan => pure scan
  | block :: rest, scan => do
    let compressed ← okOr (slice? source block.offset (block.offset + block.physicalBytes))
      (.io .unexpectedEof)
    let records ← decodeCompressedBlock compressed block
    let inner ← scanBlock records minimumSequence maximumSequence records.length 0
      ⟨scan.previous, scan.firstKey, 0, none⟩
    rejectIf (inner.blockEntries ≠ block.entries ∨ inner.blockLast ≠ some block.lastKey)
      (.invalidSegment "v3 block index disagrees with block contents")
    let entries ← checkedAdd scan.entries inner.blockEntries
      (.invalidSegment "v3 entry count overflow")
    let bytes ← checkedAdd scan.bytes records.length
      (.invalidSegment "v3 record byte count overflow")
    scanBlocks source minimumSequence maximumSequence rest
      ⟨inner.previous, inner.firstKey, inner.blockLast <|> scan.lastKey, entries, bytes⟩

/-- `validate_v3_blocks` (`segment.rs:1117-1169`). -/
def validateV3Blocks (source : Bytes) (descriptor : SegmentDescriptor)
    (blocks : List BlockDescriptor) (declaredRecordBytes : Nat) :
    Except Error (SegmentDescriptor × List BlockDescriptor) := do
  let scan ← scanBlocks source descriptor.minimumSequence descriptor.maximumSequence blocks
    ⟨none, none, none, 0, 0⟩
  rejectIf (scan.entries ≠ descriptor.entries ∨ scan.bytes ≠ declaredRecordBytes)
    (.invalidSegment "v3 header counts disagree with block contents")
  return ({ descriptor with
    firstKey := scan.firstKey.getD [], lastKey := scan.lastKey.getD [] }, blocks)

/-- `read_v3_metadata` (`segment.rs:985-1115`). -/
def readV3Metadata (source : Bytes) (actual : Bytes) :
    Except Error (SegmentDescriptor × List BlockDescriptor) := do
  let header ← okOr (slice? source 0 v3HeaderBytes) (.io .unexpectedEof)
  rejectIf (slice header 0 8 ≠ segmentV3Magic ∨ ofBE (slice header 8 10) ≠ segmentFormatVersion)
    (.invalidSegment "v3 segment magic or version does not match")
  rejectIf (ofBE (slice header 10 12) ≠ v3HeaderBytes ∨ ofBE (slice header 12 16) ≠ 1)
    (.invalidSegment "unknown v3 header length or compression flags")
  let entries := ofBE (slice header 16 24)
  let minimumSequence := ofBE (slice header 24 32)
  let maximumSequence := ofBE (slice header 32 40)
  let declaredRecordBytes := ofBE (slice header 40 48)
  let indexOffset := ofBE (slice header 48 56)
  let blockCount := ofBE (slice header 56 60)
  let target := ofBE (slice header 60 64)
  let contentEnd := source.length - footerBytes
  rejectIf (entries = 0 ∨ minimumSequence = 0 ∨ minimumSequence > maximumSequence ∨
      blockCount = 0 ∨ target ≠ segmentBlockTargetBytes ∨ indexOffset < v3HeaderBytes ∨
      indexOffset ≥ contentEnd ∨ declaredRecordBytes > maxSegmentBytes)
    (.invalidSegment "invalid v3 header contract")
  let indexLength := contentEnd - indexOffset
  rejectIf (indexLength < indexHeaderBytes ∨ indexLength > maxIndexBytes)
    (.invalidSegment "v3 index exceeds its bounded contract")
  rejectIf (blockCount > (indexLength - indexHeaderBytes) / indexEntryBytes)
    (.invalidSegment "v3 block count exceeds the bounded index")
  let index ← okOr (slice? source indexOffset contentEnd) (.io .unexpectedEof)
  rejectIf (slice index 0 8 ≠ indexV3Magic ∨ ofBE (slice index 8 12) ≠ blockCount ∨
      slice index 12 16 ≠ [0, 0, 0, 0])
    (.invalidSegment "invalid v3 index header")
  let (blocks, cursor, priorEnd) ←
    readIndexEntries index indexOffset blockCount indexHeaderBytes v3HeaderBytes none
  rejectIf (cursor ≠ index.length ∨ priorEnd ≠ indexOffset)
    (.invalidSegment "v3 block table does not exactly cover the data region")
  validateV3Blocks source
    { id := actual, level := 0, firstKey := [], lastKey := [], minimumSequence, maximumSequence,
      entries, bytes := source.length, checksum := actual }
    blocks declaredRecordBytes

/-- The footer check shared by every reader: the digest of everything before the footer, when
the footer is its hexadecimal text. -/
def verifyDigest (bytes : Bytes) : Except Error Bytes := do
  let contentEnd := bytes.length - footerBytes
  let expected := bytes.drop contentEnd
  let actual := sha256Hex (bytes.take contentEnd)
  if expected = actual then return actual
  -- `str::from_utf8` is asked first in the source; hexadecimal text passes it.
  else if (ByteArray.mk expected.toArray).validateUTF8 then
    throw (.invalidSegment "segment content checksum does not match")
  else throw (.invalidSegment "segment footer is not ASCII")

/-- `decode_v3_file` (`segment.rs:893-903`). -/
def decodeV3File (bytes : Bytes) : Except Error Segment := do
  let actual ← verifyDigest bytes
  let (descriptor, blocks) ← readV3Metadata bytes actual
  return ⟨descriptor, .blocked bytes blocks⟩

/-- `decode_v3_bytes` (`segment.rs:905-924`). -/
def decodeV3Bytes (bytes : Bytes) : Except Error Segment := do
  rejectIf (bytes.length < v3HeaderBytes + indexHeaderBytes + footerBytes)
    (.invalidSegment "v3 segment is shorter than its framing")
  decodeV3File bytes

/-- `validate_v3_slice` (`segment.rs:926-940`). -/
def validateV3Slice (bytes : Bytes) : Except Error SegmentDescriptor := do
  let segment ← decodeV3Bytes bytes
  return segment.descriptor

/-! ## The legacy formats -/

/-- What the record loop of `validate_legacy_records` carries. -/
structure LegacyScan where
  cursor : Nat
  previous : Option (Bytes × Nat)
  sparseIndex : List SparseEntry
  keysSinceIndex : Nat
  firstKey : Option Bytes
  lastKey : Option Bytes
  deriving DecidableEq, Repr

/-- The record loop of `validate_legacy_records` (`segment.rs:1354-1382`). -/
def scanLegacy (records : Bytes) (minimumSequence maximumSequence : Nat) :
    Nat → LegacyScan → Except Error LegacyScan
  | 0, scan => pure scan
  | count + 1, scan => do
    let record ← parseRecord records scan.cursor minimumSequence maximumSequence
    let newKey : Bool := scan.previous.all fun p => p.1 != record.key
    let previous ← validateOrder scan.previous record
    let indexed : Bool := newKey && decide (scan.keysSinceIndex ≥ sparseIndexStride)
    scanLegacy records minimumSequence maximumSequence count
      { cursor := record.next
        previous
        sparseIndex :=
          if indexed then scan.sparseIndex ++ [⟨scan.cursor, record.key⟩] else scan.sparseIndex
        keysSinceIndex :=
          if newKey then (if indexed then 0 else scan.keysSinceIndex) + 1
          else scan.keysSinceIndex
        firstKey := if newKey then scan.firstKey <|> some record.key else scan.firstKey
        lastKey := if newKey then some record.key else scan.lastKey }

/-- `validate_legacy_records` (`segment.rs:1341-1387`). -/
def validateLegacyRecords (records : Bytes) (entries minimumSequence maximumSequence : Nat) :
    Except Error (Bytes × Bytes × List SparseEntry) := do
  let scan ← scanLegacy records minimumSequence maximumSequence entries
    ⟨0, none, [], sparseIndexStride, none, none⟩
  rejectIf (scan.cursor ≠ records.length)
    (.invalidSegment "segment contains trailing bytes before its footer")
  return (scan.firstKey.getD [], scan.lastKey.getD [], scan.sparseIndex)

/-- The header forms of `decode_legacy` (`segment.rs:1266-1292`): the header length and whether
the body is compressed. -/
def legacyHeader (bytes : Bytes) : Except Error (Nat × Bool) := do
  let version := ofBE (slice bytes 8 10)
  let magic := slice bytes 0 8
  let headerLen := ofBE (slice bytes 10 12)
  if version = 1 ∧ magic = segmentV1Magic then
    rejectIf (headerLen ≠ v1HeaderBytes ∨ slice bytes 12 16 ≠ [0, 0, 0, 0])
      (.invalidSegment "unknown v1 segment header length or flags")
    return (v1HeaderBytes, false)
  else if version = 2 ∧ magic = segmentV2Magic then
    rejectIf (bytes.length < v2HeaderBytes + footerBytes)
      (.invalidSegment "v2 segment is shorter than its header and footer")
    rejectIf (headerLen ≠ v2HeaderBytes ∨ slice bytes 12 16 ≠ [0, 0, 0, 1])
      (.invalidSegment "unknown v2 segment header length or compression flags")
    return (v2HeaderBytes, true)
  else if version = 1 ∨ version = 2 then
    throw (.invalidSegment "segment magic does not match version")
  else throw (.unsupportedVersion "segment" version)

/-- The records of a legacy segment (`segment.rs:1306-1322`). -/
def legacyRecords (bytes : Bytes) (headerBytes : Nat) (compressed : Bool) :
    Except Error Bytes := do
  let content := slice bytes headerBytes (bytes.length - footerBytes)
  if compressed then
    let declared := ofBE (slice bytes 40 48)
    rejectIf (declared > maxSegmentBytes)
      (.invalidSegment "v2 uncompressed records exceed the 1 GiB safety limit")
    let sizePrefix ← okOr (slice? content 0 4)
      (.invalidSegment "v2 compressed body has no size prefix")
    rejectIf (ofLE sizePrefix ≠ declared)
      (.invalidSegment "v2 declared and compressed record lengths differ")
    match Platform.decompressSizePrepended content with
    | .ok records => return records
    | .error reason => throw (.invalidSegment s!"v2 LZ4 decode failed: {reason}")
  else return content

/-- `decode_legacy` (`segment.rs:1262-1342`). -/
def decodeLegacy (bytes : Bytes) : Except Error Segment := do
  rejectIf (bytes.length < v1HeaderBytes + footerBytes)
    (.invalidSegment "segment is shorter than its header and footer")
  let (headerBytes, compressed) ← legacyHeader bytes
  let entries := ofBE (slice bytes 16 24)
  let minimumSequence := ofBE (slice bytes 24 32)
  let maximumSequence := ofBE (slice bytes 32 40)
  rejectIf (entries = 0 ∨ minimumSequence = 0 ∨ minimumSequence > maximumSequence)
    (.invalidSegment "invalid segment count or sequence range")
  let actual ← verifyDigest bytes
  let records ← legacyRecords bytes headerBytes compressed
  let (firstKey, lastKey, sparseIndex) ←
    validateLegacyRecords records entries minimumSequence maximumSequence
  let descriptor : SegmentDescriptor :=
    { id := actual, level := 0, firstKey, lastKey, minimumSequence, maximumSequence,
      entries, bytes := bytes.length, checksum := actual }
  return ⟨descriptor, .legacy records sparseIndex⟩

/-! ## Opening -/

/-- `Segment::open_with_cache` on the content of the file (`segment.rs:263-280`). -/
def Segment.openBytes (bytes : Bytes) : Except Error Segment := do
  rejectIf (bytes.length > maxSegmentBytes)
    (.invalidSegment "segment exceeds the 1 GiB physical safety limit")
  rejectIf (bytes.length < v1HeaderBytes + footerBytes)
    (.invalidSegment "segment is shorter than its header and footer")
  let version := ofBE (slice bytes 8 10)
  if version = segmentFormatVersion ∧ slice bytes 0 8 = segmentV3Magic then decodeV3File bytes
  else decodeLegacy bytes

/-- `segment.descriptor.level = level`. -/
def Segment.setLevel (segment : Segment) (level : Nat) : Segment :=
  { segment with descriptor := { segment.descriptor with level := level } }

/-- `Segment::validate_snapshot_owned` (`segment.rs:289-309`); `validate_snapshot_bytes` is the
same on a copy. -/
def Segment.validateSnapshotBytes (expected : SegmentDescriptor) (bytes : Bytes) :
    Except Error Segment := do
  rejectIf (bytes.length > maxSegmentBytes)
    (.invalidSegment "snapshot segment exceeds the 1 GiB physical safety limit")
  let segment ←
    if bytes.take 8 = segmentV3Magic then decodeV3Bytes bytes else decodeLegacy bytes
  let segment := segment.setLevel expected.level
  rejectIf (segment.descriptor ≠ expected)
    (.invalidSegment s!"snapshot segment {text expected.id} differs from its descriptor")
  return segment

/-- `Segment::validate_snapshot_descriptor` (`segment.rs:311-328`). -/
def Segment.validateSnapshotDescriptor (expected : SegmentDescriptor) (bytes : Bytes) :
    Except Error Unit := do
  let _ ← Segment.validateSnapshotBytes expected bytes

end Vyrm.Kv
