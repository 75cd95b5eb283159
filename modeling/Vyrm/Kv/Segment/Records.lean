import Vyrm.Kv.Segment.Read
import Vyrm.Lib.Mvcc

/-!
# Segment records

The bytes of one record, and the proof that `parseRecord` reads a record back
wherever it stands and accepts nothing else. The reading loops of a segment are
then loops over a list of entries.
-/

namespace Vyrm.Kv
open Lib

instance : Mvcc.Sequenced VersionedValue := ⟨VersionedValue.sequence⟩

/-- One version of one key. -/
abbrev Entry := Bytes × VersionedValue

namespace Entry

/-- The stored value of an entry; a tombstone stores none. -/
def stored (entry : Entry) : Bytes := entry.2.value.getD []

/-- The record that `encode_record` writes for an entry. -/
def bytes (entry : Entry) : Bytes :=
  [if entry.2.value.isSome then 1 else 2] ++ [0, 0, 0] ++ toBE 4 entry.1.length ++
    toBE 4 entry.stored.length ++ toBE 8 entry.2.sequence ++ entry.1 ++ entry.stored

/-- The key and value contract of a segment record. -/
structure Fits (entry : Entry) : Prop where
  keyNonempty : entry.1 ≠ []
  keySmall : entry.1.length ≤ maxKeyBytes
  valueSmall : entry.stored.length ≤ maxValueBytes
  sequenceU64 : entry.2.sequence ≤ u64Max

/-- What a reader returns for an entry whose record ends at `next`. -/
@[reducible] def record (entry : Entry) (next : Nat) : Record :=
  ⟨entry.1, entry.2.value, entry.2.sequence, next⟩

theorem length_bytes (entry : Entry) :
    entry.bytes.length = recordHeaderBytes + entry.1.length + entry.stored.length := by
  simp [bytes, recordHeaderBytes]
  omega

theorem length_bytes_pos (entry : Entry) : 0 < entry.bytes.length := by
  rw [length_bytes, recordHeaderBytes]
  omega

end Entry

/-- The records of a list of entries. -/
def recordsOf (entries : List Entry) : Bytes := entries.flatMap Entry.bytes

@[simp] theorem recordsOf_nil : recordsOf [] = [] := rfl

@[simp] theorem recordsOf_cons (entry : Entry) (entries : List Entry) :
    recordsOf (entry :: entries) = entry.bytes ++ recordsOf entries := rfl

@[simp] theorem recordsOf_append (xs ys : List Entry) :
    recordsOf (xs ++ ys) = recordsOf xs ++ recordsOf ys := by simp [recordsOf]

theorem length_le_recordsOf (entries : List Entry) : entries.length ≤ (recordsOf entries).length := by
  induction entries with
  | nil => simp
  | cons entry rest ih =>
    have := entry.length_bytes_pos
    rw [recordsOf_cons, List.length_append, List.length_cons]
    omega

/-- `encode_record` writes the record of the entry, which then fits. -/
theorem encodeRecord_ok {key : Bytes} {version : VersionedValue} {bytes : Bytes}
    (h : encodeRecord key version = .ok bytes) :
    bytes = Entry.bytes (key, version) ∧ key ≠ [] ∧ key.length ≤ maxKeyBytes ∧
      (Entry.stored (key, version)).length ≤ maxValueBytes := by
  simp only [encodeRecord, except_bind_ok, rejectIf_ok, except_pure, Except.ok.injEq] at h
  obtain ⟨_, contract, rfl⟩ := h
  refine ⟨rfl, ?_, ?_, ?_⟩
  · exact fun empty => contract (.inl empty)
  · by_contra large
    exact contract (.inr (.inl (by omega)))
  · by_contra large
    exact contract (.inr (.inr (.inl (by simpa [Entry.stored] using large))))

theorem encodeRecord_of_fits {entry : Entry} (fits : entry.Fits) :
    encodeRecord entry.1 entry.2 = .ok entry.bytes := by
  have keySmall := fits.keySmall
  have valueSmall := fits.valueSmall
  rw [Entry.stored] at valueSmall
  have contract : ¬ (entry.1 = [] ∨ entry.1.length > maxKeyBytes ∨
      (entry.2.value.getD []).length > maxValueBytes ∨
      recordHeaderBytes + entry.1.length + (entry.2.value.getD []).length >
        maxDecodedBlockBytes) := by
    unfold maxDecodedBlockBytes
    rintro (empty | large | large | large)
    · exact fits.keyNonempty empty
    all_goals omega
  simp only [encodeRecord, rejectIf_of_not contract, except_ok_bind]
  rfl

section Parse

variable {bytes before rest : Bytes} {entry : Entry} {low high : Nat}

/-- The fields of a record header, read back by position. -/
theorem parseRecord_bytes (content : bytes = before ++ (entry.bytes ++ rest)) (fits : entry.Fits)
    (atLeast : low ≤ entry.2.sequence) (atMost : entry.2.sequence ≤ high) :
    parseRecord bytes before.length low high =
      .ok (entry.record (before.length + entry.bytes.length)) := by
  obtain ⟨keyNonempty, keySmall, valueSmall, sequenceU64⟩ := fits
  have keyPos : 0 < entry.1.length := List.length_pos_iff.mpr keyNonempty
  have entryLength := entry.length_bytes
  let kind : UInt8 := if entry.2.value.isSome then 1 else 2
  let header : Bytes := [kind] ++ [0, 0, 0] ++ toBE 4 entry.1.length ++
    toBE 4 entry.stored.length ++ toBE 8 entry.2.sequence
  have headerLength : header.length = 20 := by simp [header]
  have split : entry.bytes = header ++ (entry.1 ++ entry.stored) := by
    simp [Entry.bytes, header, kind]
  have total : bytes.length = before.length + (20 + entry.1.length + entry.stored.length) +
      rest.length := by
    rw [content]
    simp only [List.length_append, entryLength, recordHeaderBytes]
    omega
  have headerIs : slice? bytes before.length (before.length + recordHeaderBytes) = some header := by
    rw [recordHeaderBytes, slice?_eq_some (by omega) (by omega)]
    congr 1
    exact slice_of_eq _ (entry.1 ++ entry.stored ++ rest)
      (by rw [content, split]; simp) rfl (by rw [headerLength])
  have flags : slice header 1 4 = [0, 0, 0] :=
    slice_of_eq [kind] _ (by simp [header]; rfl) rfl rfl
  have keyLen : slice header 4 8 = toBE 4 entry.1.length :=
    slice_of_eq ([kind] ++ [0, 0, 0]) _ (by simp [header]; rfl) rfl (by simp)
  have valueLen : slice header 8 12 = toBE 4 entry.stored.length :=
    slice_of_eq ([kind] ++ [0, 0, 0] ++ toBE 4 entry.1.length) _
      (by simp [header]; rfl) (by simp) (by simp)
  have sequence : slice header 12 20 = toBE 8 entry.2.sequence :=
    slice_of_eq ([kind] ++ [0, 0, 0] ++ toBE 4 entry.1.length ++
      toBE 4 entry.stored.length) [] (by simp [header]) (by simp) (by simp)
  have keyBack : ofBE (toBE 4 entry.1.length) = entry.1.length :=
    ofBE_toBE_of_lt (by unfold maxKeyBytes at keySmall; omega)
  have valueBack : ofBE (toBE 4 entry.stored.length) = entry.stored.length :=
    ofBE_toBE_of_lt (by unfold maxValueBytes at valueSmall; omega)
  have sequenceBack : ofBE (toBE 8 entry.2.sequence) = entry.2.sequence :=
    ofBE_toBE_of_lt (by unfold u64Max at sequenceU64; omega)
  have bodyIs : slice? bytes (before.length + recordHeaderBytes)
      (before.length + recordHeaderBytes + entry.1.length + entry.stored.length) =
        some (entry.1 ++ entry.stored) := by
    rw [recordHeaderBytes, slice?_eq_some (by omega) (by omega)]
    congr 1
    exact slice_of_eq (before ++ header) rest
      (by rw [content, split]; simp) (by simp [headerLength]) (by simp [headerLength]; omega)
  have contract : ¬ (entry.1.length = 0 ∨ entry.1.length > maxKeyBytes ∨
      entry.stored.length > maxValueBytes ∨ entry.2.sequence < low ∨ entry.2.sequence > high) := by
    omega
  have stop : before.length + recordHeaderBytes + entry.1.length + entry.stored.length =
      before.length + entry.bytes.length := by rw [entryLength]; omega
  rw [stop] at bodyIs
  simp only [parseRecord, headerIs, okOr_some, except_ok_bind, flags, rejectIf_ne_self, keyLen,
    keyBack, valueLen, valueBack, sequence, sequenceBack, bodyIs, rejectIf_of_not contract, stop,
    List.take_left, List.drop_left]
  have kindIs : header.headD 0 = kind := rfl
  rw [kindIs, Entry.record]
  cases stored : entry.2.value with
  | some value =>
    have : kind = 1 := by simp [kind, stored]
    simp [this, Entry.stored, stored]
  | none =>
    have : kind = 2 := by simp [kind, stored]
    simp [this, Entry.stored, stored]

/-- Whatever `parseRecord` accepts is the record of an entry that fits. -/
theorem parseRecord_ok {offset : Nat} {r : Record}
    (h : parseRecord bytes offset low high = .ok r) :
    ∃ entry : Entry, ∃ rest, bytes = bytes.take offset ++ (entry.bytes ++ rest) ∧
      offset ≤ bytes.length ∧ entry.Fits ∧ low ≤ entry.2.sequence ∧ entry.2.sequence ≤ high ∧
      r = entry.record (offset + entry.bytes.length) := by
  simp only [parseRecord, except_bind_ok, okOr_ok, rejectIf_ok] at h
  obtain ⟨header, headerIs, _, flags, body, bodyIs, _, contract, kindIs⟩ := h
  obtain ⟨-, headerIn, rfl⟩ := slice?_eq_some_iff.mp headerIs
  obtain ⟨bodyOrdered, bodyIn, rfl⟩ := slice?_eq_some_iff.mp bodyIs
  generalize headerEq : slice bytes offset (offset + recordHeaderBytes) = header at *
  have headerLength : header.length = 20 := by
    rw [← headerEq, length_slice headerIn, recordHeaderBytes]
    omega
  generalize keyLenEq : ofBE (slice header 4 8) = keyLen at *
  generalize valueLenEq : ofBE (slice header 8 12) = valueLen at *
  generalize sequenceEq : ofBE (slice header 12 20) = sequence at *
  generalize bodyEq : slice bytes (offset + recordHeaderBytes)
    (offset + recordHeaderBytes + keyLen + valueLen) = body at *
  have bodyLength : body.length = keyLen + valueLen := by
    rw [← bodyEq, length_slice bodyIn]
    omega
  rw [not_not] at flags
  have fieldLength : ∀ i j, i ≤ j → j ≤ 20 → (slice header i j).length = j - i :=
    fun i j _ hj => length_slice (by omega)
  have keyField : slice header 4 8 = toBE 4 keyLen := by
    rw [← keyLenEq]
    exact (by rw [fieldLength 4 8 (by omega) (by omega)] :
      toBE 4 (ofBE (slice header 4 8)) = toBE (slice header 4 8).length _).trans (toBE_ofBE _) |>.symm
  have valueField : slice header 8 12 = toBE 4 valueLen := by
    rw [← valueLenEq]
    exact (by rw [fieldLength 8 12 (by omega) (by omega)] :
      toBE 4 (ofBE (slice header 8 12)) = toBE (slice header 8 12).length _).trans (toBE_ofBE _)
        |>.symm
  have sequenceField : slice header 12 20 = toBE 8 sequence := by
    rw [← sequenceEq]
    exact (by rw [fieldLength 12 20 (by omega) (by omega)] :
      toBE 8 (ofBE (slice header 12 20)) = toBE (slice header 12 20).length _).trans (toBE_ofBE _)
        |>.symm
  have sequenceU64 : sequence ≤ u64Max := by
    have := ofBE_lt (slice header 12 20)
    rw [fieldLength 12 20 (by omega) (by omega), sequenceEq] at this
    unfold u64Max
    omega
  obtain ⟨kind, restHeader, rfl⟩ : ∃ kind rest, header = kind :: rest := by
    cases header with
    | nil => simp at headerLength
    | cons kind rest => exact ⟨kind, rest, rfl⟩
  have headerSplit : kind :: restHeader = [kind] ++ [0, 0, 0] ++ toBE 4 keyLen ++
      toBE 4 valueLen ++ toBE 8 sequence := by
    have whole : slice (kind :: restHeader) 0 20 = kind :: restHeader := by
      rw [← headerLength]
      exact slice_zero_length _
    have first : slice (kind :: restHeader) 0 1 = [kind] := by simp [slice]
    rw [← first, ← flags, ← keyField, ← valueField, ← sequenceField]
    rw [slice_append_slice _ (by omega) (by omega), slice_append_slice _ (by omega) (by omega),
      slice_append_slice _ (by omega) (by omega), slice_append_slice _ (by omega) (by omega), whole]
  have keyTake : (body.take keyLen).length = keyLen := by
    rw [List.length_take]
    omega
  have storedDrop : (body.drop keyLen).length = valueLen := by
    rw [List.length_drop]
    omega
  have content : bytes = bytes.take offset ++ ((kind :: restHeader) ++ (body ++
      bytes.drop (offset + recordHeaderBytes + keyLen + valueLen))) := by
    have outer := eq_append_slice bytes offset (offset + recordHeaderBytes + keyLen + valueLen) (by omega)
    rw [← slice_append_slice (offset + recordHeaderBytes) (by omega)
      (by omega), headerEq, bodyEq, List.append_assoc] at outer
    exact outer
  have keyPos : body.take keyLen ≠ [] := by
    intro empty
    rw [empty] at keyTake
    simp only [List.length_nil] at keyTake
    omega
  have finish : ∀ value : Option Bytes, value.getD [] = body.drop keyLen →
      (if value.isSome then (1 : UInt8) else 2) = kind →
      r = ⟨body.take keyLen, value, sequence, offset + recordHeaderBytes + keyLen + valueLen⟩ →
      ∃ entry : Entry, ∃ rest, bytes = bytes.take offset ++ (entry.bytes ++ rest) ∧
        offset ≤ bytes.length ∧ entry.Fits ∧ low ≤ entry.2.sequence ∧ entry.2.sequence ≤ high ∧
        r = entry.record (offset + entry.bytes.length) := by
    intro value storedIs kindIs rIs
    have entryBytes : Entry.bytes (body.take keyLen, ⟨sequence, value⟩) =
        (kind :: restHeader) ++ body := by
      rw [headerSplit]
      simp only [Entry.bytes, Entry.stored, storedIs, keyTake, storedDrop, kindIs]
      rw [List.append_assoc, List.take_append_drop]
    refine ⟨(body.take keyLen, ⟨sequence, value⟩),
      bytes.drop (offset + recordHeaderBytes + keyLen + valueLen), ?_, by omega, ?_, ?_, ?_, ?_⟩
    · rw [entryBytes, List.append_assoc]
      exact content
    · refine ⟨keyPos, ?_, ?_, sequenceU64⟩
      · dsimp only
        omega
      · simp only [Entry.stored, storedIs]
        omega
    · dsimp only
      omega
    · dsimp only
      omega
    · rw [rIs, entryBytes, Entry.record, List.length_append, headerLength, bodyLength,
        recordHeaderBytes]
      congr 1
      omega
  split at kindIs
  · rename_i isPut
    simp only [except_pure, Except.ok.injEq] at kindIs
    exact finish (some (body.drop keyLen)) rfl isPut.symm kindIs.symm
  · split at kindIs
    · rename_i isDelete
      split at kindIs
      · rename_i empty
        simp only [except_pure, Except.ok.injEq] at kindIs
        exact finish none empty.symm isDelete.symm kindIs.symm
      · cases kindIs
    · cases kindIs

end Parse
end Vyrm.Kv
