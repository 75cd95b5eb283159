import Vyrm.Kv.Error

/-!
# The storage code's surroundings

The records that are serialised as JSON, the functions that vyrmKV takes from
other crates, and the names of the files and directories under a database root.

Nothing below fixes what CRC32C, SHA-256, LZ4 or the JSON printer compute: a
`Platform` is any choice of them with the documented laws that the storage code
relies on. In particular no theorem of the development rests on a property of a
checksum other than that it is a function of its input.
-/

namespace Vyrm.Kv
open Lib Lib.FaultFs

/-! ## Serialised records -/

/-- `SegmentDescriptor` (`manifest.rs:17-27`). -/
structure SegmentDescriptor where
  id : Bytes
  level : Nat
  firstKey : Bytes
  lastKey : Bytes
  minimumSequence : Nat
  maximumSequence : Nat
  entries : Nat
  bytes : Nat
  checksum : Bytes
  deriving DecidableEq, Repr

/-- `Manifest` (`manifest.rs:61-70`). -/
structure Manifest where
  formatVersion : Nat
  generation : Nat
  parent : Option Bytes
  createdAt : Nat
  durableSequence : Nat
  walStartSequence : Nat
  segments : List SegmentDescriptor
  digest : Bytes
  deriving DecidableEq, Repr

/-- `Content`, the part of a manifest that its digest covers (`manifest.rs:169-178`). -/
structure ManifestContent where
  formatVersion : Nat
  generation : Nat
  parent : Option Bytes
  createdAt : Nat
  durableSequence : Nat
  walStartSequence : Nat
  segments : List SegmentDescriptor
  deriving DecidableEq, Repr

/-- `CurrentPointer` (`manifest.rs:196-201`). -/
structure CurrentPointer where
  formatVersion : Nat
  generation : Nat
  manifest : Bytes
  checksum : Bytes
  deriving DecidableEq, Repr

/-- `Checkpoint` (`manifest.rs:204-211`). -/
structure Checkpoint where
  formatVersion : Nat
  name : Bytes
  manifest : Bytes
  generation : Nat
  createdAt : Nat
  checksum : Bytes
  deriving DecidableEq, Repr

/-- `serde_json` at one derived type: what is printed parses back to the same value. -/
structure Serde (α : Type) where
  toVec : α → Bytes
  fromSlice : Bytes → Except String α
  fromSlice_toVec : ∀ a, fromSlice (toVec a) = .ok a

/-- The functions vyrmKV imports. -/
class Platform where
  /-- `crc32c::crc32c_append`. -/
  crc32cAppend : UInt32 → Bytes → UInt32
  /-- `vyrm_core::digest::sha256`, which `ring::digest::SHA256` computes as well. -/
  sha256 : Bytes → Bytes
  length_sha256 : ∀ bytes, (sha256 bytes).length = 32
  /-- `lz4_flex::block::compress_prepend_size`. -/
  compressPrependSize : Bytes → Bytes
  /-- `lz4_flex::block::decompress_size_prepended`. -/
  decompressSizePrepended : Bytes → Except String Bytes
  decompress_compress : ∀ bytes, bytes.length < 2 ^ 32 →
    decompressSizePrepended (compressPrependSize bytes) = .ok bytes
  compress_prefix : ∀ bytes, bytes.length < 2 ^ 32 →
    (compressPrependSize bytes).take 4 = toLE 4 bytes.length
  /-- `serde_json::to_vec` at the digested part of a manifest. -/
  contentToVec : ManifestContent → Bytes
  manifestJson : Serde Manifest
  pointerJson : Serde CurrentPointer
  checkpointJson : Serde Checkpoint
  descriptorJson : Serde SegmentDescriptor

/-! ## Hexadecimal digests -/

/-- One lowercase hexadecimal digit. -/
def hexNibble (n : Nat) : UInt8 := if n < 10 then UInt8.ofNat (48 + n) else UInt8.ofNat (87 + n)

/-- `digest::hex`: two lowercase digits a byte, as the UTF-8 bytes of the string. -/
def hex (bytes : Bytes) : Bytes :=
  bytes.flatMap fun byte => [hexNibble (byte.toNat / 16), hexNibble (byte.toNat % 16)]

/-- `digest::sha256_hex`. -/
def sha256Hex [Platform] (bytes : Bytes) : Bytes := hex (Platform.sha256 bytes)

/-- `u8::is_ascii_hexdigit`. -/
def isAsciiHexdigit (byte : UInt8) : Bool :=
  (48 ≤ byte && byte ≤ 57) || (97 ≤ byte && byte ≤ 102) || (65 ≤ byte && byte ≤ 70)

/-- `is_sha256` (`manifest.rs:191-193`). -/
def isSha256 (value : Bytes) : Bool := value.length == 64 && value.all isAsciiHexdigit

/-- An ASCII string from its bytes, for error messages. -/
def text (bytes : Bytes) : String := String.ofList (bytes.map fun byte => Char.ofNat byte.toNat)

/-- `{name:?}` of an ASCII string. -/
def quoted (bytes : Bytes) : String := String.ofList ['"'] ++ text bytes ++ String.ofList ['"']

@[simp] theorem length_hex (bytes : Bytes) : (hex bytes).length = 2 * bytes.length := by
  induction bytes with
  | nil => rfl
  | cons byte bytes ih =>
    rw [hex, List.flatMap_cons, List.length_append, ← hex, ih]
    simp only [List.length_cons, List.length_nil]
    omega

theorem isAsciiHexdigit_hexNibble : ∀ n < 16, isAsciiHexdigit (hexNibble n) = true := by decide

theorem isSha256_sha256Hex [Platform] (bytes : Bytes) : isSha256 (sha256Hex bytes) = true := by
  have digits : ∀ data : Bytes, (hex data).all isAsciiHexdigit = true := by
    intro data
    induction data with
    | nil => rfl
    | cons byte data ih =>
      have bound := byte.toNat_lt
      rw [hex, List.flatMap_cons, List.all_append, ← hex, ih]
      simp [isAsciiHexdigit_hexNibble (byte.toNat / 16) (by omega),
        isAsciiHexdigit_hexNibble (byte.toNat % 16) (by omega)]
  simp [isSha256, sha256Hex, digits, Platform.length_sha256]

/-! ## Files -/

/-- The directories that are synced after a rename or a removal. -/
inductive Directory where
  | root
  | manifests
  | checkpoints
  | segments
  | wals
  | bundles
  deriving DecidableEq, Repr

/-- The files of a database, by the format string that names them; `bundle` is a snapshot file
outside the database root. -/
inductive Path where
  | lock
  | current
  | currentTemporary (id : Nat)
  | manifest (digest : Bytes)
  | manifestTemporary (digest : Bytes) (id : Nat)
  | checkpoint (name : Bytes)
  | checkpointTemporary (name : Bytes) (id : Nat)
  | wal (startingSequence : Nat)
  | segment (id : Bytes)
  | segmentTemporary (digest : Bytes) (process id : Nat)
  | snapshotTemporary (segment : Bytes) (process id : Nat)
  | bundle (name : Bytes)
  deriving DecidableEq, Repr

/-- Whether a file lies under the database root. -/
def Path.inRoot : Path → Bool
  | .bundle _ => false
  | _ => true

/-- Process-local state: the process id and the counters `TEMPORARY_ID` (`segment.rs:34`) and
`POINTER_TEMPORARY_ID` (`manifest.rs:14`), which a new process starts from 1 again. -/
structure Process where
  id : Nat
  temporaryId : Nat
  pointerTemporaryId : Nat

/-- A process that has just been started. -/
def Process.start (id : Nat) : Process := ⟨id, 1, 1⟩

/-- A storage operation: it may fail, and the machine may stop while it runs. -/
abbrev Io (α : Type) := Fs Path Directory Process Error α

/-- Runs a fallible body and hands its error to the caller as a value. -/
def attempt {α : Type} (body : Io α) : Io (Except Error α) := fun w =>
  match body w with
  | .ok a w' => .ok (.ok a) w'
  | .error (.error e) w' => .ok (.error e) w'
  | .error .crash w' => .error .crash w'

/-- A `&mut self` body that assigns to `self` only after its last fallible step. The error and
the state `self` is left in are both part of the result. -/
def committing {σ α : Type} (self : σ) (body : Io (α × σ)) : Io (Except Error α × σ) := fun w =>
  match body w with
  | .ok (a, next) w' => .ok (.ok a, next) w'
  | .error (.error e) w' => .ok (.error e, self) w'
  | .error .crash w' => .error .crash w'

/-- `TEMPORARY_ID.fetch_add(1)`. -/
def nextTemporaryId : Io Nat := fun w =>
  .ok w.process.temporaryId
    { w with process := { w.process with temporaryId := (w.process.temporaryId + 1) % 2 ^ 64 } }

/-- `POINTER_TEMPORARY_ID.fetch_add(1)`. -/
def nextPointerTemporaryId : Io Nat := fun w =>
  .ok w.process.pointerTemporaryId
    { w with
      process := { w.process with pointerTemporaryId := (w.process.pointerTemporaryId + 1) % 2 ^ 64 } }

/-- `std::process::id()`. -/
def processId : Io Nat := fun w => .ok w.process.id w

/-- `serde_json::from_slice(bytes)?`, whose error becomes `InvalidManifest`
(`error.rs:80-84`). -/
def parseJson {α : Type} (serde : Serde α) (bytes : Bytes) : Except Error α :=
  match serde.fromSlice bytes with
  | .ok a => .ok a
  | .error reason => .error (.invalidManifest reason)

@[simp] theorem parseJson_toVec {α : Type} (serde : Serde α) (a : α) :
    parseJson serde (serde.toVec a) = .ok a := by
  simp [parseJson, serde.fromSlice_toVec]

end Vyrm.Kv
