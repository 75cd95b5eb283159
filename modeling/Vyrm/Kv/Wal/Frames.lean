import Vyrm.Kv.Wal

/-!
# Frames and their recovery

The content of a log is a file header followed by one frame per appended batch.
`recoverBytes` reads back exactly the frames that a cut leaves whole: a list of
whole frames followed by a proper prefix of a further one is recovered as the
whole frames, with the prefix reported as a torn tail.
-/

namespace Vyrm.Kv
open Lib Lib.FaultFs

theorem walBatch_validate_ok {batch : WalBatch} :
    batch.validate = .ok () ↔
      batch.firstSequence ≠ 0 ∧ batch.firstSequence ≤ batch.lastSequence ∧
        batch.lastSequence < u64Max ∧ batch.payload ≠ [] ∧
        batch.payload.length ≤ walMaxPayloadBytes := by
  simp only [WalBatch.validate, except_bind_ok, rejectIf_ok]
  constructor
  · rintro ⟨_, range, _, nonempty, small⟩
    refine ⟨?_, ?_, ?_, nonempty, ?_⟩ <;> omega
  · rintro ⟨positive, ordered, room, nonempty, small⟩
    exact ⟨(), by omega, (), nonempty, by omega⟩

@[simp] theorem length_recordFields (batch : WalBatch) : (recordFields batch).length = 24 := by
  simp [recordFields]

/-- The sequence that follows `batches` in a log that starts at `start`. -/
def nextAfter : Nat → List WalBatch → Nat
  | start, [] => start
  | _, batch :: rest => nextAfter (batch.lastSequence + 1) rest

/-- Batches a log accepts from `start` on: each valid, each starting where the one before it
ended. -/
def Chain : Nat → List WalBatch → Prop
  | _, [] => True
  | start, batch :: rest =>
    batch.validate = .ok () ∧ batch.firstSequence = start ∧ Chain (batch.lastSequence + 1) rest

theorem nextAfter_append (start : Nat) (batches : List WalBatch) (batch : WalBatch) :
    nextAfter start (batches ++ [batch]) = batch.lastSequence + 1 := by
  induction batches generalizing start with
  | nil => rfl
  | cons _ _ ih => exact ih _

theorem chain_append {start : Nat} {batches : List WalBatch} {batch : WalBatch}
    (chain : Chain start batches) (valid : batch.validate = .ok ())
    (follows : batch.firstSequence = nextAfter start batches) :
    Chain start (batches ++ [batch]) := by
  induction batches generalizing start with
  | nil => exact ⟨valid, follows, trivial⟩
  | cons _ _ ih => exact ⟨chain.1, chain.2.1, ih chain.2.2 follows⟩

theorem nextAfter_pos {start : Nat} (batches : List WalBatch) (nonzero : start ≠ 0) :
    0 < nextAfter start batches := by
  induction batches generalizing start with
  | nil => exact Nat.pos_of_ne_zero nonzero
  | cons batch rest ih => exact ih (Nat.succ_ne_zero _)

theorem chain_nextAfter_le {start : Nat} {batches : List WalBatch} (chain : Chain start batches)
    (bound : start ≤ u64Max) : nextAfter start batches ≤ u64Max := by
  induction batches generalizing start with
  | nil => exact bound
  | cons batch rest ih =>
    have room := (walBatch_validate_ok.mp chain.1).2.2.1
    exact ih chain.2.2 (by omega)

variable [Platform]

/-- The 32 header bytes of a frame. -/
def frameHeader (batch : WalBatch) : Bytes :=
  walRecordMagic ++ recordFields batch ++ toBE 4 (recordChecksum batch)

/-- One appended batch as it stands in the file. -/
def frame (batch : WalBatch) : Bytes := frameHeader batch ++ batch.payload

/-- The frames of a list of batches. -/
def frames (batches : List WalBatch) : Bytes := batches.flatMap frame

/-- The content of a log that holds `batches`. -/
def walBytes (batches : List WalBatch) : Bytes := fileHeader ++ frames batches

/-- The batch that recovery returns for a frame at `offset`. -/
def recoveredAt (offset : Nat) (batch : WalBatch) : RecoveredBatch :=
  ⟨offset, batch.firstSequence, batch.lastSequence, recordChecksum batch, batch.payload⟩

/-- What recovery returns for consecutive frames, the first of which is at `offset`. -/
def placed : Nat → List WalBatch → List RecoveredBatch
  | _, [] => []
  | offset, batch :: rest =>
    recoveredAt offset batch :: placed (offset + (frame batch).length) rest

/-- The position after the frame of a recovered batch. -/
def RecoveredBatch.stop (batch : RecoveredBatch) : Nat :=
  batch.offset + walRecordHeaderBytes + batch.payload.length

/-! ## Single frames -/

theorem crc32c_lt (chunks : List Bytes) : crc32c chunks < 256 ^ 4 := UInt32.toNat_lt _

@[simp] theorem length_frameHeader (batch : WalBatch) : (frameHeader batch).length = 32 := by
  simp [frameHeader, walRecordMagic]

@[simp] theorem length_frame (batch : WalBatch) :
    (frame batch).length = 32 + batch.payload.length := by
  simp [frame]

@[simp] theorem length_fileHeader : fileHeader.length = 16 := by
  simp [fileHeader, fileHeaderFields, walFileMagic]

theorem recordHeader_eq {batch : WalBatch} {header : Bytes}
    (h : recordHeader batch = .ok header) : header = frameHeader batch := by
  simp only [recordHeader, except_bind_ok, except_pure, Except.ok.injEq] at h
  obtain ⟨_, _, rfl⟩ := h
  rfl

theorem recordHeader_of_valid {batch : WalBatch} (valid : batch.validate = .ok ()) :
    recordHeader batch = .ok (frameHeader batch) := by
  have small := (walBatch_validate_ok.mp valid).2.2.2.2
  have fits : u32TryFrom batch.payload.length (.invalidBatch "payload length exceeds u32") =
      .ok batch.payload.length :=
    u32TryFrom_ok.mpr ⟨by unfold walMaxPayloadBytes at small; omega, rfl⟩
  simp [recordHeader, fits, frameHeader]

/-- The header of a frame decodes to the batch's own fields. -/
theorem decodeRecordHeader_frameHeader {batch : WalBatch} (valid : batch.validate = .ok ())
    (offset : Nat) :
    decodeRecordHeader (frameHeader batch) offset =
      .ok ⟨batch.payload.length, batch.firstSequence, batch.lastSequence, recordChecksum batch⟩ := by
  obtain ⟨positive, ordered, room, nonempty, small⟩ := walBatch_validate_ok.mp valid
  have payloadPos : 0 < batch.payload.length := List.length_pos_iff.mpr nonempty
  unfold walMaxPayloadBytes at small
  unfold u64Max at room
  have magic : slice (frameHeader batch) 0 4 = walRecordMagic :=
    slice_of_eq [] (recordFields batch ++ toBE 4 (recordChecksum batch))
      (by simp [frameHeader]) rfl rfl
  have version : slice (frameHeader batch) 4 6 = toBE 2 walFormatVersion :=
    slice_of_eq walRecordMagic _ (by simp [frameHeader, recordFields]; rfl)
      (by rfl) (by simp [walRecordMagic])
  have kind : slice (frameHeader batch) 6 7 = [walRecordKindBatch] :=
    slice_of_eq (walRecordMagic ++ toBE 2 walFormatVersion) _
      (by simp [frameHeader, recordFields]; rfl) (by simp [walRecordMagic])
      (by simp [walRecordMagic])
  have flags : slice (frameHeader batch) 7 8 = [0] :=
    slice_of_eq (walRecordMagic ++ toBE 2 walFormatVersion ++ [walRecordKindBatch]) _
      (by simp [frameHeader, recordFields]; rfl) (by simp [walRecordMagic])
      (by simp [walRecordMagic])
  have length : slice (frameHeader batch) 8 12 = toBE 4 batch.payload.length :=
    slice_of_eq (walRecordMagic ++ toBE 2 walFormatVersion ++ [walRecordKindBatch] ++ [0]) _
      (by simp [frameHeader, recordFields]; rfl) (by simp [walRecordMagic])
      (by simp [walRecordMagic])
  have first : slice (frameHeader batch) 12 20 = toBE 8 batch.firstSequence :=
    slice_of_eq (walRecordMagic ++ toBE 2 walFormatVersion ++ [walRecordKindBatch] ++ [0] ++
        toBE 4 batch.payload.length) _
      (by simp [frameHeader, recordFields]; rfl) (by simp [walRecordMagic])
      (by simp [walRecordMagic])
  have last : slice (frameHeader batch) 20 28 = toBE 8 batch.lastSequence :=
    slice_of_eq (walRecordMagic ++ toBE 2 walFormatVersion ++ [walRecordKindBatch] ++ [0] ++
        toBE 4 batch.payload.length ++ toBE 8 batch.firstSequence) _
      (by simp [frameHeader, recordFields]; rfl) (by simp [walRecordMagic])
      (by simp [walRecordMagic])
  have checksum : slice (frameHeader batch) 28 32 = toBE 4 (recordChecksum batch) :=
    slice_of_eq (walRecordMagic ++ recordFields batch) []
      (by simp [frameHeader]) (by simp [walRecordMagic]) (by simp [walRecordMagic])
  have lengthBack : ofBE (toBE 4 batch.payload.length) = batch.payload.length :=
    ofBE_toBE_of_lt (by omega)
  have firstBack : ofBE (toBE 8 batch.firstSequence) = batch.firstSequence :=
    ofBE_toBE_of_lt (by omega)
  have lastBack : ofBE (toBE 8 batch.lastSequence) = batch.lastSequence :=
    ofBE_toBE_of_lt (by omega)
  have checksumBack : ofBE (toBE 4 (recordChecksum batch)) = recordChecksum batch :=
    ofBE_toBE_of_lt (crc32c_lt _)
  have versionBack : ofBE (toBE 2 walFormatVersion) = walFormatVersion := by decide
  simp only [decodeRecordHeader, magic, version, kind, flags, length, first, last, checksum,
    lengthBack, firstBack, lastBack, checksumBack, versionBack]
  rw [rejectIf_of_not (by simp), rejectIf_of_not (by simp), rejectIf_of_not (by simp),
    rejectIf_of_not (by unfold walMaxPayloadBytes; omega), rejectIf_of_not (by omega)]
  rfl

/-- The bytes of a frame header that its checksum covers. -/
theorem slice_frameHeader_fields (batch : WalBatch) :
    slice (frameHeader batch) 4 28 = recordFields batch :=
  slice_of_eq walRecordMagic _ (by simp [frameHeader]; rfl) rfl
    (by simp [walRecordMagic])

/-! ## The recovery loop -/

/-- What an interrupted append can leave behind the whole frames: nothing, or a proper prefix
of the frame of an acceptable next batch. -/
def TornTail (next : Nat) (tail : Bytes) : Prop :=
  tail = [] ∨ ∃ batch : WalBatch, batch.validate = .ok () ∧ batch.firstSequence = next ∧
    tail.length < (frame batch).length ∧ tail <+: frame batch

/-- The position at which a torn tail is reported. -/
def tornAt (offset : Nat) (tail : Bytes) : Option Nat := if tail = [] then none else some offset

variable {bytes before tail : Bytes} {start fuel : Nat} {acc : List RecoveredBatch}

/-- The loop at the end of the whole frames. -/
theorem recoverLoop_tail (content : bytes = before ++ tail) (torn : TornTail start tail)
    (small : bytes.length ≤ maxFileBytes) (enough : tail.length ≤ fuel) :
    recoverLoop bytes fuel before.length start acc =
      .ok ⟨acc, start - 1, before.length, tornAt before.length tail⟩ := by
  subst content
  rcases torn with rfl | ⟨batch, valid, first, short, cut⟩
  · cases fuel with
    | zero => rfl
    | succ fuel => simp [recoverLoop, tornAt]
  · by_cases empty : tail = []
    · subst empty
      cases fuel with
      | zero => rfl
      | succ fuel => simp [recoverLoop, tornAt]
    · have tailPos : 0 < tail.length := List.length_pos_iff.mpr empty
      obtain ⟨fuel, rfl⟩ : ∃ n, fuel = n + 1 := ⟨fuel - 1, by omega⟩
      have inside : before.length < (before ++ tail).length := by
        rw [List.length_append]; omega
      rw [recoverLoop, if_pos inside]
      by_cases partial_ : (before ++ tail).length - before.length < walRecordHeaderBytes
      · rw [if_pos partial_, tornAt, if_neg empty]
        rfl
      · obtain ⟨missing, whole⟩ := cut
        have longTail : 32 ≤ tail.length := by
          simp only [List.length_append, walRecordHeaderBytes] at partial_
          omega
        have headerIs : slice (before ++ tail) before.length (before.length + 32) =
            frameHeader batch := by
          have tailHead : tail = frameHeader batch ++ tail.drop 32 := by
            have := congrArg (List.take 32) whole
            rw [List.take_append_of_le_length longTail, frame,
              List.take_append_of_le_length (by simp)] at this
            rw [List.take_of_length_le (l := frameHeader batch) (by simp)] at this
            rw [← this, List.take_append_drop]
          exact slice_of_eq before (tail.drop 32)
            (by rw [← tailHead]) rfl (by simp)
        have payloadSmall := (walBatch_validate_ok.mp valid).2.2.2.2
        have tailLong : before.length + 32 + batch.payload.length >
            (before ++ tail).length := by
          rw [List.length_append]
          rw [length_frame] at short
          omega
        have noOverflow : ∀ e, checkedAdd (before.length + 32) batch.payload.length e =
            .ok (before.length + 32 + batch.payload.length) := by
          intro e
          refine checkedAdd_ok.mpr ⟨?_, rfl⟩
          rw [List.length_append] at small
          unfold maxFileBytes at small
          unfold walMaxPayloadBytes at payloadSmall
          unfold u64Max
          omega
        rw [if_neg partial_, tornAt, if_neg empty]
        simp only [walRecordHeaderBytes, headerIs, decodeRecordHeader_frameHeader valid,
          except_ok_bind, first, rejectIf_ne_self, noOverflow, tailLong, if_true, except_pure]

/-- The loop over one whole frame. -/
theorem recoverLoop_frame {batch : WalBatch} (rest : Bytes)
    (content : bytes = before ++ (frame batch ++ rest)) (valid : batch.validate = .ok ())
    (first : batch.firstSequence = start) (small : bytes.length ≤ maxFileBytes) :
    recoverLoop bytes (fuel + 1) before.length start acc =
      recoverLoop bytes fuel (before ++ frame batch).length (batch.lastSequence + 1)
        (acc ++ [recoveredAt before.length batch]) := by
  have total : bytes.length = before.length + (32 + batch.payload.length + rest.length) := by
    rw [content]; simp
  have headerIs : slice bytes before.length (before.length + 32) = frameHeader batch :=
    slice_of_eq before (batch.payload ++ rest)
      (by rw [content, frame, List.append_assoc]) rfl (by simp)
  have payloadIs : slice bytes (before.length + 32) (before.length + 32 + batch.payload.length) =
      batch.payload :=
    slice_of_eq (before ++ frameHeader batch) rest
      (by rw [content, frame]; simp [List.append_assoc]) (by simp) (by simp)
  obtain ⟨-, -, room, -, -⟩ := walBatch_validate_ok.mp valid
  have noOverflow : ∀ e, checkedAdd (before.length + 32) batch.payload.length e =
      .ok (before.length + 32 + batch.payload.length) := by
    intro e
    refine checkedAdd_ok.mpr ⟨?_, rfl⟩
    unfold maxFileBytes at small
    unfold u64Max
    omega
  have nextOk : ∀ e, checkedAdd batch.lastSequence 1 e = .ok (batch.lastSequence + 1) :=
    fun e => checkedAdd_ok.mpr ⟨by omega, rfl⟩
  have stopIs : before.length + 32 + batch.payload.length = (before ++ frame batch).length := by
    rw [List.length_append, length_frame, Nat.add_assoc]
  rw [recoverLoop, if_pos (by omega)]
  simp only [walRecordHeaderBytes, headerIs, decodeRecordHeader_frameHeader valid, except_ok_bind,
    first, rejectIf_ne_self, noOverflow, slice_frameHeader_fields, payloadIs]
  rw [if_neg (by omega), if_neg (by omega), ← recordChecksum]
  simp only [rejectIf_ne_self, except_ok_bind, nextOk, ← stopIs, recoveredAt, first]

/-- The loop over whole frames and a torn tail. -/
theorem recoverLoop_frames {batches : List WalBatch} (chain : Chain start batches)
    (content : bytes = before ++ (frames batches ++ tail))
    (torn : TornTail (nextAfter start batches) tail) (small : bytes.length ≤ maxFileBytes)
    (enough : (frames batches ++ tail).length ≤ fuel) :
    recoverLoop bytes fuel before.length start acc =
      .ok ⟨acc ++ placed before.length batches, nextAfter start batches - 1,
        before.length + (frames batches).length,
        tornAt (before.length + (frames batches).length) tail⟩ := by
  induction batches generalizing before start fuel acc with
  | nil =>
    have stop : recoverLoop bytes fuel before.length start acc =
        .ok ⟨acc, start - 1, before.length, tornAt before.length tail⟩ :=
      recoverLoop_tail (by simpa [frames] using content) torn small (by simpa [frames] using enough)
    simpa [placed, frames, nextAfter] using stop
  | cons batch rest ih =>
    obtain ⟨valid, first, chain⟩ := chain
    have split : frames (batch :: rest) = frame batch ++ frames rest := by simp [frames]
    rw [split] at content enough
    have fuelPos : 0 < fuel := by
      simp only [List.length_append, length_frame] at enough
      omega
    obtain ⟨fuel, rfl⟩ : ∃ n, fuel = n + 1 := ⟨fuel - 1, by omega⟩
    rw [recoverLoop_frame (frames rest ++ tail) (by simpa using content) valid first small]
    rw [ih chain (by simpa [List.append_assoc] using content) torn (by
      simp only [List.length_append, length_frame] at enough ⊢
      omega)]
    simp [placed, split, nextAfter, Nat.add_assoc]

theorem validateFileHeader_fileHeader : validateFileHeader fileHeader = .ok () := by
  have magic : slice fileHeader 0 8 = walFileMagic :=
    slice_of_eq [] _ (by simp [fileHeader, fileHeaderFields]; rfl) rfl rfl
  have version : slice fileHeader 8 10 = toBE 2 walFormatVersion :=
    slice_of_eq walFileMagic _ (by simp [fileHeader, fileHeaderFields]; rfl) rfl
      (by simp [walFileMagic])
  have length : slice fileHeader 10 12 = toBE 2 walFileHeaderBytes :=
    slice_of_eq (walFileMagic ++ toBE 2 walFormatVersion) _
      (by simp [fileHeader, fileHeaderFields]; rfl) (by simp [walFileMagic])
      (by simp [walFileMagic])
  have covered : slice fileHeader 0 12 = fileHeaderFields :=
    slice_of_eq [] _ (by simp [fileHeader]; rfl) rfl
      (by simp [fileHeaderFields, walFileMagic])
  have checksum : slice fileHeader 12 16 = toBE 4 (crc32c [fileHeaderFields]) :=
    slice_of_eq fileHeaderFields [] (by simp [fileHeader])
      (by simp [fileHeaderFields, walFileMagic]) (by simp [fileHeaderFields, walFileMagic])
  have versionBack : ofBE (toBE 2 walFormatVersion) = walFormatVersion := by decide
  have lengthBack : ofBE (toBE 2 walFileHeaderBytes) = walFileHeaderBytes := by decide
  simp only [validateFileHeader, magic, version, length, covered, checksum, versionBack, lengthBack,
    ofBE_toBE_of_lt (crc32c_lt _), rejectIf_ne_self, except_ok_bind]

/-- Recovery of a log whose content is a header, whole frames and a torn tail. -/
theorem recoverBytes_walBytes {batches : List WalBatch} (chain : Chain start batches)
    (torn : TornTail (nextAfter start batches) tail)
    (small : (walBytes batches ++ tail).length ≤ maxFileBytes) :
    recoverBytes (walBytes batches ++ tail) start =
      .ok ⟨placed walFileHeaderBytes batches, nextAfter start batches - 1,
        (walBytes batches).length, tornAt (walBytes batches).length tail⟩ := by
  have header : slice (walBytes batches ++ tail) 0 walFileHeaderBytes = fileHeader :=
    slice_of_eq [] (frames batches ++ tail) (by simp [walBytes]) rfl
      (by simp [walFileHeaderBytes])
  have long : ¬ (walBytes batches ++ tail).length < walFileHeaderBytes := by
    simp [walBytes, walFileHeaderBytes]
  have content : walBytes batches ++ tail = fileHeader ++ (frames batches ++ tail) := by
    simp [walBytes]
  have enough : (frames batches ++ tail).length ≤ (walBytes batches ++ tail).length := by
    simp [walBytes]
  have loop : recoverLoop (walBytes batches ++ tail) (walBytes batches ++ tail).length
      fileHeader.length start [] = _ :=
    recoverLoop_frames chain content torn small enough
  rw [length_fileHeader] at loop
  simp only [recoverBytes, rejectIf_of_not long, header, validateFileHeader_fileHeader,
    except_ok_bind]
  rw [walFileHeaderBytes, loop]
  simp [walBytes]

end Vyrm.Kv
