import Vyrm.Core.Digest
import Vyrm.Kv.Platform
import Vyrm.Lib.Json

/-!
# A platform that runs

The functions that vyrmKV imports, so that the model can be evaluated: CRC32C,
the SHA-256 of `vyrm-core`, the compact JSON of the serialised records, and the
LZ4 block format with a compressor that emits literals only.
-/

namespace Vyrm.Kv.Reference
open Lib

/-! ## CRC32C -/

/-- One bit of the reflected Castagnoli polynomial. -/
def crcBit (crc : Nat) : Nat := if crc % 2 = 1 then (crc / 2) ^^^ 0x82f63b78 else crc / 2

def crcByte (crc : Nat) (byte : UInt8) : Nat :=
  crcBit (crcBit (crcBit (crcBit (crcBit (crcBit (crcBit (crcBit (crc ^^^ byte.toNat))))))))

/-- `crc32c::crc32c_append`. -/
def crc32cAppend (crc : UInt32) (data : Bytes) : UInt32 :=
  UInt32.ofNat (data.foldl crcByte (crc.toNat ^^^ 0xffffffff) ^^^ 0xffffffff)

/-! ## LZ4 blocks -/

/-- The bytes that continue a length of 15 or more. -/
def encodeExtra : Nat → Nat → Bytes
  | 0, n => [UInt8.ofNat n]
  | fuel + 1, n => if n < 255 then [UInt8.ofNat n] else 255 :: encodeExtra fuel (n - 255)

/-- Reads the bytes that continue a length. -/
def decodeExtra : Bytes → Option (Nat × Bytes)
  | [] => none
  | byte :: rest =>
    if byte = 255 then (decodeExtra rest).map fun (n, rest) => (n + 255, rest)
    else some (byte.toNat, rest)

theorem decodeExtra_encodeExtra {fuel n : Nat} (enough : n < 255 * (fuel + 1)) (rest : Bytes) :
    decodeExtra (encodeExtra fuel n ++ rest) = some (n, rest) := by
  have last : ∀ m, m < 255 → decodeExtra ([UInt8.ofNat m] ++ rest) = some (m, rest) := by
    intro m small
    have value : (UInt8.ofNat m).toNat = m := by
      rw [UInt8.toNat_ofNat']
      omega
    have notMax : UInt8.ofNat m ≠ 255 := by
      intro same
      rw [same] at value
      have : (255 : UInt8).toNat = 255 := rfl
      omega
    rw [List.singleton_append, decodeExtra, if_neg notMax, value]
  induction fuel generalizing n with
  | zero => exact last n (by omega)
  | succ fuel ih =>
    rw [encodeExtra]
    split
    · rename_i small
      exact last n small
    · rename_i large
      have total : n - 255 + 255 = n := by omega
      rw [List.cons_append, decodeExtra, if_pos rfl, ih (by omega), Option.map_some]
      dsimp only
      rw [total]

/-- A length of four bits in a token, and the bytes that continue it. -/
def decodeLength (nibble : Nat) (input : Bytes) : Option (Nat × Bytes) :=
  if nibble < 15 then some (nibble, input)
  else (decodeExtra input).map fun (n, rest) => (n + 15, rest)

/-- Copies a match byte by byte, so that it may overlap what it produces. -/
def copyMatch (offset : Nat) : Nat → Bytes → Bytes
  | 0, output => output
  | n + 1, output => copyMatch offset n (output ++ [output.getD (output.length - offset) 0])

/-- The sequences of an LZ4 block: literals, and a match unless the input ends. -/
def decodeBlock : Nat → Bytes → Bytes → Except String Bytes
  | 0, _, _ => .error "expected another byte"
  | _, [], _ => .error "expected another byte"
  | fuel + 1, token :: input, output =>
    match decodeLength (token.toNat / 16) input with
    | none => .error "expected another byte"
    | some (literals, input) =>
      if input.length < literals then .error "literal is out of bounds of the input"
      else
        let output := output ++ input.take literals
        match input.drop literals with
        | [] => .ok output
        | [_] => .error "expected another byte"
        | low :: high :: input =>
          let offset := low.toNat + 256 * high.toNat
          match decodeLength (token.toNat % 16) input with
          | none => .error "expected another byte"
          | some (length, input) =>
            if offset = 0 ∨ output.length < offset then
              .error "the offset to copy is not contained in the decompressed buffer"
            else decodeBlock fuel input (copyMatch offset (length + 4) output)

/-- A block of literals. -/
def literalBlock (bytes : Bytes) : Bytes :=
  if bytes.length < 15 then UInt8.ofNat (16 * bytes.length) :: bytes
  else 240 :: (encodeExtra ((bytes.length - 15) / 255) (bytes.length - 15) ++ bytes)

/-- `lz4_flex::block::compress_prepend_size`. -/
def compressPrependSize (bytes : Bytes) : Bytes := toLE 4 bytes.length ++ literalBlock bytes

/-- `lz4_flex::block::decompress_size_prepended`. -/
def decompressSizePrepended (input : Bytes) : Except String Bytes := do
  if input.length < 4 then .error "expected another byte"
  else
    let output ← decodeBlock input.length (input.drop 4) []
    if output.length ≠ ofLE (input.take 4) then
      .error "provided output is too small for the decompressed data"
    else return output

/-- The last sequence of a block has literals only. -/
theorem decodeBlock_last {fuel : Nat} {token : UInt8} {input bytes : Bytes}
    (length : decodeLength (token.toNat / 16) input = some (bytes.length, bytes)) :
    decodeBlock (fuel + 1) (token :: input) [] = .ok bytes := by
  rw [decodeBlock, length]
  simp

theorem decodeBlock_literalBlock (fuel : Nat) (bytes : Bytes) :
    decodeBlock (fuel + 1) (literalBlock bytes) [] = .ok bytes := by
  unfold literalBlock
  split
  · rename_i small
    have token : (UInt8.ofNat (16 * bytes.length)).toNat / 16 = bytes.length := by
      rw [UInt8.toNat_ofNat']
      omega
    apply decodeBlock_last
    rw [token, decodeLength, if_pos small]
  · rename_i large
    have total : bytes.length - 15 + 15 = bytes.length := by omega
    apply decodeBlock_last
    rw [decodeLength, if_neg (by decide), decodeExtra_encodeExtra (by omega), Option.map_some]
    dsimp only
    rw [total]

theorem take_compressPrependSize (bytes : Bytes) :
    (compressPrependSize bytes).take 4 = toLE 4 bytes.length := by
  unfold compressPrependSize
  rw [List.take_append_of_le_length (by simp), List.take_of_length_le (by simp)]

theorem decompress_compress (bytes : Bytes) (u32 : bytes.length < 2 ^ 32) :
    decompressSizePrepended (compressPrependSize bytes) = .ok bytes := by
  have long : ¬ (compressPrependSize bytes).length < 4 := by simp [compressPrependSize]
  have back : (compressPrependSize bytes).drop 4 = literalBlock bytes := by
    unfold compressPrependSize
    rw [List.drop_append_of_le_length (by simp), List.drop_of_length_le (by simp)]
    rfl
  obtain ⟨fuel, length⟩ : ∃ fuel, (compressPrependSize bytes).length = fuel + 1 :=
    ⟨(compressPrependSize bytes).length - 1, by omega⟩
  have size : ofLE (toLE 4 bytes.length) = bytes.length := ofLE_toLE_of_lt u32
  unfold decompressSizePrepended
  rw [if_neg long, take_compressPrependSize, back, length, decodeBlock_literalBlock, size]
  simp

/-! ## JSON -/

/-- The name of a first field, with its colon. -/
def label (name : String) : Bytes := 34 :: (ascii name ++ [34, 58])

/-- The name of a later field, with the comma before it. -/
def field (name : String) : Bytes := 44 :: label name

theorem ended_field (name : String) (rest : Bytes) : Ended (field name ++ rest) := by
  intro byte first
  cases first
  decide

/-- A value followed by the next field of a record. -/
def before {α β : Type} (first : Format α) (name : String) (second : Format β) : Format (α × β) :=
  first.pair (field name) second (ended_field name)

/-- `Vec<u8>`: a list of numbers. -/
def byteList : Format Bytes :=
  .list (Format.nat.iso UInt8.ofNat UInt8.toNat fun _ => UInt8.ofNat_toNat)

def descriptorFormat : Format SegmentDescriptor :=
  (Format.braced (label "id") (before .string "level" (before .nat "first_key"
    (before byteList "last_key" (before byteList "minimum_sequence" (before .nat "maximum_sequence"
    (before .nat "entries" (before .nat "bytes" (before .nat "checksum" .string))))))))).iso
    (fun (id, level, firstKey, lastKey, minimumSequence, maximumSequence, entries, bytes, checksum) =>
      { id, level, firstKey, lastKey, minimumSequence, maximumSequence, entries, bytes, checksum })
    (fun d => (d.id, d.level, d.firstKey, d.lastKey, d.minimumSequence, d.maximumSequence, d.entries,
      d.bytes, d.checksum))
    (fun _ => rfl)

def contentFormat : Format ManifestContent :=
  (Format.braced (label "format_version") (before .nat "generation" (before .nat "parent"
    (before .optionalString "created_at" (before .nat "durable_sequence"
    (before .nat "wal_start_sequence" (before .nat "segments" (.list descriptorFormat)))))))).iso
    (fun (formatVersion, generation, parent, createdAt, durableSequence, walStartSequence,
        segments) =>
      { formatVersion, generation, parent, createdAt, durableSequence, walStartSequence, segments })
    (fun m => (m.formatVersion, m.generation, m.parent, m.createdAt, m.durableSequence,
      m.walStartSequence, m.segments))
    (fun _ => rfl)

def manifestFormat : Format Manifest :=
  (Format.braced (label "format_version") (before .nat "generation" (before .nat "parent"
    (before .optionalString "created_at" (before .nat "durable_sequence"
    (before .nat "wal_start_sequence" (before .nat "segments" (before (.list descriptorFormat)
    "digest" .string)))))))).iso
    (fun (formatVersion, generation, parent, createdAt, durableSequence, walStartSequence,
        segments, digest) =>
      { formatVersion, generation, parent, createdAt, durableSequence, walStartSequence, segments,
        digest })
    (fun m => (m.formatVersion, m.generation, m.parent, m.createdAt, m.durableSequence,
      m.walStartSequence, m.segments, m.digest))
    (fun _ => rfl)

def pointerFormat : Format CurrentPointer :=
  (Format.braced (label "format_version") (before .nat "generation" (before .nat "manifest"
    (before .string "checksum" .string)))).iso
    (fun (formatVersion, generation, manifest, checksum) =>
      { formatVersion, generation, manifest, checksum })
    (fun p => (p.formatVersion, p.generation, p.manifest, p.checksum))
    (fun _ => rfl)

def checkpointFormat : Format Checkpoint :=
  (Format.braced (label "format_version") (before .nat "name" (before .string "manifest"
    (before .string "generation" (before .nat "created_at" (before .nat "checksum" .string)))))).iso
    (fun (formatVersion, name, manifest, generation, createdAt, checksum) =>
      { formatVersion, name, manifest, generation, createdAt, checksum })
    (fun c => (c.formatVersion, c.name, c.manifest, c.generation, c.createdAt, c.checksum))
    (fun _ => rfl)

/-- `serde_json` at a type with a format. -/
def serde {α : Type} (format : Format α) : Serde α where
  toVec := format.print
  fromSlice bytes := match format.parseAll bytes with
    | some a => .ok a
    | none => .error "expected value"
  fromSlice_toVec a := by rw [format.parseAll_print]

/-- The platform that the model is evaluated on. -/
instance platform : Platform where
  crc32cAppend := crc32cAppend
  sha256 := Core.sha256
  length_sha256 := Core.length_sha256
  compressPrependSize := compressPrependSize
  decompressSizePrepended := decompressSizePrepended
  decompress_compress := decompress_compress
  compress_prefix bytes _ := take_compressPrependSize bytes
  contentToVec := contentFormat.print
  manifestJson := serde manifestFormat
  pointerJson := serde pointerFormat
  checkpointJson := serde checkpointFormat
  descriptorJson := serde descriptorFormat

example : crc32cAppend 0 (ascii "123456789") = 0xe3069283 := by decide +kernel

end Vyrm.Kv.Reference
