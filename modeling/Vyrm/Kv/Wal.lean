import Vyrm.Kv.Batch
import Vyrm.Kv.Platform

/-!
# The write-ahead log

`crates/vyrm-kv/src/wal.rs`: a file header followed by checksummed frames, one
per atomic batch; the writer that appends them, the recovery that replays the
longest valid prefix, and the explicit repair of a torn tail.
-/

namespace Vyrm.Kv
open Lib Lib.FaultFs

variable [Platform]

def walFormatVersion : Nat := 1
/-- `b"VYRWAL01"`. -/
def walFileMagic : Bytes := [86, 89, 82, 87, 65, 76, 48, 49]
/-- `b"VYR1"`. -/
def walRecordMagic : Bytes := [86, 89, 82, 49]
def walFileHeaderBytes : Nat := 16
def walRecordHeaderBytes : Nat := 32
def walRecordKindBatch : UInt8 := 1

/-- `Durability` (`wal.rs:17-20`). -/
inductive Durability where
  | buffered
  | authoritative
  deriving DecidableEq, Repr

/-- `WalBatch` (`wal.rs:23-27`). -/
structure WalBatch where
  firstSequence : Nat
  lastSequence : Nat
  payload : Bytes
  deriving DecidableEq, Repr

/-- `WalBatch::validate` (`wal.rs:30-49`). The source compares the last sequence with
`u64::MAX` for equality; nothing larger is a `u64`. -/
def WalBatch.validate (batch : WalBatch) : Except Error Unit := do
  rejectIf (batch.firstSequence = 0 ∨ batch.lastSequence < batch.firstSequence ∨
      batch.lastSequence ≥ u64Max)
    (.invalidBatch "sequence range must be non-zero, ordered, and leave room for its successor")
  rejectIf (batch.payload = []) (.invalidBatch "payload must not be empty")
  rejectIf (batch.payload.length > walMaxPayloadBytes)
    (.invalidBatch s!"payload is {batch.payload.length} bytes; maximum is {walMaxPayloadBytes}")

/-- `AppendReceipt` (`wal.rs:53-60`). -/
structure AppendReceipt where
  offset : Nat
  endOffset : Nat
  firstSequence : Nat
  lastSequence : Nat
  checksum : Nat
  durable : Bool
  deriving DecidableEq, Repr

/-- `RecoveredBatch` (`wal.rs:63-69`). -/
structure RecoveredBatch where
  offset : Nat
  firstSequence : Nat
  lastSequence : Nat
  checksum : Nat
  payload : Bytes
  deriving DecidableEq, Repr

/-- `Recovery` (`wal.rs:72-77`). -/
structure Recovery where
  batches : List RecoveredBatch
  recoveredThrough : Nat
  validBytes : Nat
  tornTail : Option Nat
  deriving DecidableEq, Repr

/-- `WalWriter` (`wal.rs:79-84`). The open handle is the file at `path`: the writer's own WAL
is never renamed or removed while the writer lives. -/
structure WalWriter where
  path : Path
  nextSequence : Nat
  poisoned : Bool
  deriving DecidableEq, Repr

/-- `crc32c` (`wal.rs:446-450`). -/
def crc32c (chunks : List Bytes) : Nat :=
  (chunks.foldl (fun checksum chunk => Platform.crc32cAppend checksum chunk) 0).toNat

/-- `{:08x}`. -/
def hex8 (n : Nat) : String :=
  let digits := Nat.toDigits 16 n
  String.ofList (List.replicate (8 - digits.length) '0' ++ digits)

/-! ## Headers -/

/-- The first twelve bytes of the file header. -/
def fileHeaderFields : Bytes :=
  walFileMagic ++ toBE 2 walFormatVersion ++ toBE 2 walFileHeaderBytes

/-- `file_header` (`wal.rs:342-350`). -/
def fileHeader : Bytes := fileHeaderFields ++ toBE 4 (crc32c [fileHeaderFields])

/-- `validate_file_header` (`wal.rs:352-382`). -/
def validateFileHeader (header : Bytes) : Except Error Unit := do
  rejectIf (slice header 0 8 ≠ walFileMagic) (.corruption 0 "WAL file magic does not match")
  let version := ofBE (slice header 8 10)
  rejectIf (version ≠ walFormatVersion) (.unsupportedVersion "WAL" version)
  let headerLen := ofBE (slice header 10 12)
  rejectIf (headerLen ≠ walFileHeaderBytes)
    (.corruption 10 s!"unexpected WAL header length {headerLen}")
  let expected := ofBE (slice header 12 16)
  let actual := crc32c [slice header 0 12]
  rejectIf (actual ≠ expected) (.corruption 0 "WAL header checksum mismatch")

/-- Bytes `4..28` of a record header: everything its checksum covers. -/
def recordFields (batch : WalBatch) : Bytes :=
  toBE 2 walFormatVersion ++ [walRecordKindBatch] ++ [0] ++ toBE 4 batch.payload.length ++
    toBE 8 batch.firstSequence ++ toBE 8 batch.lastSequence

/-- The checksum of a record. -/
def recordChecksum (batch : WalBatch) : Nat := crc32c [recordFields batch, batch.payload]

/-- `record_header` (`wal.rs:384-398`). -/
def recordHeader (batch : WalBatch) : Except Error Bytes := do
  let _ ← u32TryFrom batch.payload.length (.invalidBatch "payload length exceeds u32")
  return walRecordMagic ++ recordFields batch ++ toBE 4 (recordChecksum batch)

/-- `DecodedHeader` (`wal.rs:335-340`). -/
structure DecodedHeader where
  payloadLen : Nat
  firstSequence : Nat
  lastSequence : Nat
  checksum : Nat

/-- `decode_record_header` (`wal.rs:400-444`). -/
def decodeRecordHeader (header : Bytes) (offset : Nat) : Except Error DecodedHeader := do
  rejectIf (slice header 0 4 ≠ walRecordMagic) (.corruption offset "record magic does not match")
  let version := ofBE (slice header 4 6)
  rejectIf (version ≠ walFormatVersion) (.unsupportedVersion "WAL record" version)
  rejectIf (slice header 6 7 ≠ [walRecordKindBatch] ∨ slice header 7 8 ≠ [0])
    (.corruption offset "unknown WAL record kind or flags")
  let payloadLen := ofBE (slice header 8 12)
  rejectIf (payloadLen = 0 ∨ payloadLen > walMaxPayloadBytes)
    (.corruption offset s!"invalid payload length {payloadLen}")
  let firstSequence := ofBE (slice header 12 20)
  let lastSequence := ofBE (slice header 20 28)
  rejectIf (firstSequence = 0 ∨ lastSequence < firstSequence)
    (.corruption offset "invalid record sequence range")
  return { payloadLen, firstSequence, lastSequence, checksum := ofBE (slice header 28 32) }

/-! ## Recovery -/

/-- The `while offset < length` loop of `recover_from` (`wal.rs:256-309`). Every iteration that
does not stop the loop advances the offset, so `fuel` of the file's length is never used up. -/
def recoverLoop (bytes : Bytes) : Nat → Nat → Nat → List RecoveredBatch → Except Error Recovery
  | 0, offset, expected, batches =>
    .ok ⟨batches, expected - 1, offset, none⟩
  | fuel + 1, offset, expected, batches =>
    if offset < bytes.length then do
      let remaining := bytes.length - offset
      if remaining < walRecordHeaderBytes then
        return ⟨batches, expected - 1, offset, some offset⟩
      let header := slice bytes offset (offset + walRecordHeaderBytes)
      let decoded ← decodeRecordHeader header offset
      rejectIf (decoded.firstSequence ≠ expected) (.corruption offset
        s!"non-contiguous sequence: expected {expected}, found {decoded.firstSequence}")
      let stop ← checkedAdd (offset + walRecordHeaderBytes) decoded.payloadLen
        (.corruption offset "record length overflow")
      if stop > bytes.length then
        return ⟨batches, expected - 1, offset, some offset⟩
      let payload := slice bytes (offset + walRecordHeaderBytes) stop
      let actual := crc32c [slice header 4 28, payload]
      rejectIf (actual ≠ decoded.checksum) (.corruption offset
        s!"checksum mismatch: expected {hex8 decoded.checksum}, computed {hex8 actual}")
      let batch : RecoveredBatch :=
        ⟨offset, decoded.firstSequence, decoded.lastSequence, decoded.checksum, payload⟩
      let next ← checkedAdd decoded.lastSequence 1 (.corruption offset "sequence overflow")
      recoverLoop bytes fuel stop next (batches ++ [batch])
    else .ok ⟨batches, expected - 1, offset, none⟩

/-- What `recover_from` computes from the content of the file (`wal.rs:237-315`). -/
def recoverBytes (bytes : Bytes) (startingSequence : Nat) : Except Error Recovery := do
  rejectIf (bytes.length < walFileHeaderBytes) (.corruption 0 "incomplete WAL file header")
  validateFileHeader (slice bytes 0 walFileHeaderBytes)
  recoverLoop bytes bytes.length walFileHeaderBytes startingSequence []

/-- `recover_from` (`wal.rs:230-316`). -/
def recoverFrom (path : Path) (startingSequence : Nat) : Io Recovery := do
  rejectIf (startingSequence = 0) (.invalidBatch "WAL recovery sequence must be non-zero")
  let bytes ← readFile path
  recoverBytes bytes startingSequence

/-- `recover` (`wal.rs:226-228`). -/
def recover (path : Path) : Io Recovery := recoverFrom path 1

/-- `repair_torn_tail_from` (`wal.rs:324-333`). -/
def repairTornTailFrom (path : Path) (startingSequence : Nat) : Io Recovery := do
  let recovery ← recoverFrom path startingSequence
  match recovery.tornTail with
  | none => return recovery
  | some _ =>
    setLen path recovery.validBytes
    syncFile path
    recoverFrom path startingSequence

/-- `repair_torn_tail` (`wal.rs:320-322`), the only repair the crate exports. -/
def repairTornTail (path : Path) : Io Recovery := repairTornTailFrom path 1

/-! ## The writer -/

namespace WalWriter

/-- `WalWriter::create_at` (`wal.rs:91-111`). -/
def createAt (path : Path) (nextSequence : Nat) : Io WalWriter := do
  rejectIf (nextSequence = 0) (.invalidBatch "WAL starting sequence must be non-zero")
  createNew path
  writeAll path fileHeader
  syncFile path
  return { path, nextSequence, poisoned := false }

/-- `WalWriter::open_at` (`wal.rs:117-132`). -/
def openAt (path : Path) (startingSequence : Nat) : Io WalWriter := do
  let recovery ← recoverFrom path startingSequence
  match recovery.tornTail with
  | some offset => throw (.error (.tornTail offset))
  | none =>
    let _ ← readFile path
    let nextSequence ← checkedAdd recovery.recoveredThrough 1 (.invalidBatch "sequence overflow")
    return { path, nextSequence, poisoned := false }

/-- The checks of `append` that come before the file is touched (`wal.rs:146-156`). -/
def admission (writer : WalWriter) (batch : WalBatch) : Except Error Bytes := do
  rejectIf writer.poisoned .poisonedWriter
  batch.validate
  rejectIf (batch.firstSequence ≠ writer.nextSequence) (.invalidBatch
    s!"expected first sequence {writer.nextSequence}, received {batch.firstSequence}")
  recordHeader batch

/-- The closure that writes one frame (`wal.rs:158-165`). -/
def writeFrame (path : Path) (header payload : Bytes) (durability : Durability) : Io Unit := do
  writeAll path header
  writeAll path payload
  if durability = .authoritative then syncFile path

/-- `WalWriter::append` (`wal.rs:141-182`). -/
def append (writer : WalWriter) (batch : WalBatch) (durability : Durability) :
    Io (Except Error AppendReceipt × WalWriter) := do
  match writer.admission batch with
  | .error e => return (.error e, writer)
  | .ok header =>
    match ← attempt (fileLength writer.path) with
    | .error e => return (.error e, writer)
    | .ok offset =>
      match ← attempt (writeFrame writer.path header batch.payload durability) with
      | .error e => return (.error e, { writer with poisoned := true })
      | .ok () =>
        match checkedAdd batch.lastSequence 1 (.invalidBatch "sequence overflow") with
        | .error e => return (.error e, writer)
        | .ok nextSequence =>
          let receipt : AppendReceipt :=
            { offset
              endOffset := offset + walRecordHeaderBytes + batch.payload.length
              firstSequence := batch.firstSequence
              lastSequence := batch.lastSequence
              checksum := ofBE (slice header 28 32)
              durable := decide (durability = .authoritative) }
          return (.ok receipt, { writer with nextSequence })

/-- `WalWriter::append_encoded_write_batch` (`wal.rs:195-215`). The source's `count - 1` does
not underflow, an encoded batch being non-empty. -/
def appendEncodedWriteBatch (writer : WalWriter) (batch : WriteBatch) (payload : Bytes)
    (durability : Durability) : Io (Except Error AppendReceipt × WalWriter) := do
  let count := batch.operations.length
  match checkedAdd writer.nextSequence (count - 1) (.invalidBatch "sequence range overflow") with
  | .error e => return (.error e, writer)
  | .ok lastSequence =>
    writer.append { firstSequence := writer.nextSequence, lastSequence, payload } durability

/-- `WalWriter::append_write_batch` (`wal.rs:186-193`). -/
def appendWriteBatch (writer : WalWriter) (batch : WriteBatch) (durability : Durability) :
    Io (Except Error AppendReceipt × WalWriter) := do
  match batch.encode with
  | .error e => return (.error e, writer)
  | .ok payload => writer.appendEncodedWriteBatch batch payload durability

/-- `WalWriter::sync` (`wal.rs:217-223`). -/
def sync (writer : WalWriter) : Io Nat := do
  rejectIf writer.poisoned .poisonedWriter
  syncFile writer.path
  return writer.nextSequence - 1

end WalWriter
end Vyrm.Kv
