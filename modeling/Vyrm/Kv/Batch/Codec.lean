import Vyrm.Kv.Batch

/-!
# The batch codec is a bijection on its image

`WriteBatch::decode` accepts exactly the strings that `WriteBatch::encode` writes,
apart from the limit on the whole encoding, which only the encoder checks. The
encodings are self-delimiting: the operation count and the two lengths of every
operation fix where a batch ends.
-/

namespace Vyrm.Kv.WriteBatch
open Lib

/-- Whatever the decoding loop accepts as one operation is the encoding of a valid operation. -/
theorem decodeOperation_ok {bytes : Bytes} {cursor next : Nat} {m : Mutation}
    (h : decodeOperation bytes cursor = .ok (m, next)) :
    m.validate = .ok () ∧ cursor ≤ next ∧ next ≤ bytes.length ∧
      slice bytes cursor next = operationBytes m := by
  simp only [decodeOperation, except_bind_ok, okOr_ok, rejectIf_ok] at h
  obtain ⟨header, headerIs, _, flags, _, lengths, body, bodyIs, kindIs⟩ := h
  obtain ⟨-, headerIn, rfl⟩ := slice?_eq_some_iff.mp headerIs
  obtain ⟨-, bodyIn, rfl⟩ := slice?_eq_some_iff.mp bodyIs
  generalize headerEq : slice bytes cursor (cursor + opHeaderBytes) = header at *
  generalize keyLenEq : ofBE (slice header 4 8) = keyLen at *
  generalize valueLenEq : ofBE (slice header 8 12) = valueLen at *
  generalize bodyEq : slice bytes (cursor + opHeaderBytes)
    (cursor + opHeaderBytes + keyLen + valueLen) = body at *
  have headerLength : header.length = 12 := by
    rw [← headerEq, length_slice headerIn, opHeaderBytes]
    omega
  have bodyLength : body.length = keyLen + valueLen := by
    rw [← bodyEq, length_slice bodyIn]
    omega
  rw [not_not] at flags
  have keyField : slice header 4 8 = toBE 4 keyLen := by
    rw [← keyLenEq]
    exact slice_eq_toBE 4 rfl (by omega)
  have valueField : slice header 8 12 = toBE 4 valueLen := by
    rw [← valueLenEq]
    exact slice_eq_toBE 4 rfl (by omega)
  obtain ⟨kind, fields, rfl⟩ := List.exists_cons_of_length_eq_add_one headerLength
  have headerSplit : kind :: fields = [kind] ++ [0, 0, 0] ++ toBE 4 keyLen ++ toBE 4 valueLen := by
    have whole : slice (kind :: fields) 0 12 = kind :: fields := by
      rw [← headerLength]
      exact slice_zero_length _
    have first : slice (kind :: fields) 0 1 = [kind] := by simp [slice]
    rw [← first, ← flags, ← keyField, ← valueField, slice_append_slice _ (by omega) (by omega),
      slice_append_slice _ (by omega) (by omega), slice_append_slice _ (by omega) (by omega), whole]
  have keyTake : (body.take keyLen).length = keyLen := by
    rw [List.length_take]
    omega
  have valueDrop : (body.drop keyLen).length = valueLen := by
    rw [List.length_drop]
    omega
  have keyPos : body.take keyLen ≠ [] := by
    intro empty
    rw [empty] at keyTake
    exact lengths (.inl keyTake.symm)
  -- both kinds end here, with their own value
  have finish : ∀ m : Mutation, m.key = body.take keyLen → (operationParts m).1 = kind →
      (operationParts m).2.2 = body.drop keyLen →
      m.validate = .ok () ∧ cursor ≤ cursor + opHeaderBytes + keyLen + valueLen ∧
        cursor + opHeaderBytes + keyLen + valueLen ≤ bytes.length ∧
        slice bytes cursor (cursor + opHeaderBytes + keyLen + valueLen) = operationBytes m := by
    intro m keyIs kindIs valueIs
    refine ⟨mutation_validate_ok.mpr ⟨?_, ?_, ?_⟩, by omega, bodyIn, ?_⟩
    · rw [keyIs]
      exact keyPos
    · rw [keyIs]
      omega
    · rw [valueIs]
      omega
    · have headerIs : operationHeader m = kind :: fields := by
        rw [headerSplit, ← kindIs, ← keyTake, ← valueDrop, ← keyIs, ← valueIs, ← operationParts_key]
        rfl
      rw [← slice_append_slice (cursor + opHeaderBytes) (by omega) (by omega), headerEq, bodyEq,
        operationBytes_eq, headerIs, operationParts_key, keyIs, valueIs, List.take_append_drop]
  have kindHead : (kind :: fields).headD 0 = kind := rfl
  rw [kindHead] at kindIs
  split at kindIs
  · rename_i isPut
    cases kindIs
    exact finish _ rfl isPut.symm rfl
  · split at kindIs
    · rename_i isDelete
      split at kindIs
      · rename_i empty
        cases kindIs
        exact finish _ rfl isDelete.symm empty.symm
      · cases kindIs
    · cases kindIs

/-- The decoding loop accepts encodings of valid operations, one after another. -/
theorem decodeOperations_ok {bytes : Bytes} {count cursor stop : Nat} {operations : List Mutation}
    (inside : cursor ≤ bytes.length)
    (h : decodeOperations bytes count cursor = .ok (operations, stop)) :
    operations.length = count ∧ (∀ m ∈ operations, m.validate = .ok ()) ∧ cursor ≤ stop ∧
      stop ≤ bytes.length ∧ slice bytes cursor stop = operations.flatMap operationBytes := by
  induction count generalizing cursor stop operations with
  | zero =>
    cases h
    exact ⟨rfl, by simp, Nat.le_refl _, inside, by simp [slice]⟩
  | succ count ih =>
    simp only [decodeOperations, except_bind_ok, except_pure, Except.ok.injEq] at h
    obtain ⟨⟨m, next⟩, first, ⟨rest, last⟩, later, same⟩ := h
    cases same
    obtain ⟨valid, ordered, nextIn, content⟩ := decodeOperation_ok first
    obtain ⟨length, others, ordered', stopIn, contents⟩ := ih nextIn later
    refine ⟨by rw [List.length_cons, length], List.forall_mem_cons.mpr ⟨valid, others⟩, by omega,
      stopIn, ?_⟩
    rw [List.flatMap_cons, ← content, ← contents, slice_append_slice next ordered ordered']

/-- `decode` accepts nothing but the bytes of the batch it returns. -/
theorem payload_of_decode {bytes : Bytes} {batch : WriteBatch} (h : decode bytes = .ok batch) :
    batch.validate = .ok () ∧ bytes = batch.payload := by
  simp only [decode, except_bind_ok, rejectIf_ok] at h
  obtain ⟨_, long, _, magic, _, version, _, flags, _, counted, ⟨operations, cursor⟩, read, _, whole,
    made⟩ := h
  rw [not_not] at magic version flags whole
  rw [not_lt] at long
  dsimp only at whole made
  have header : batchHeaderBytes = 16 := rfl
  obtain ⟨length, -, ordered, -, content⟩ := decodeOperations_ok long read
  simp only [new, except_bind_ok, except_pure, Except.ok.injEq] at made
  obtain ⟨_, valid, rfl⟩ := made
  refine ⟨valid, ?_⟩
  have versionField : slice bytes 8 10 = toBE 2 batchFormatVersion := by
    rw [← version]
    exact slice_eq_toBE 2 rfl (by omega)
  have countField : slice bytes 12 16 = toBE 4 operations.length := by
    rw [length]
    exact slice_eq_toBE 4 rfl (by omega)
  have zero : ([0, 0] : Bytes) = toBE 2 0 := rfl
  calc bytes = slice bytes 0 bytes.length := (slice_zero_length bytes).symm
    _ = slice bytes 0 8 ++ slice bytes 8 10 ++ slice bytes 10 12 ++ slice bytes 12 16 ++
        slice bytes 16 cursor := by
      rw [whole, slice_append_slice 8 (by omega) (by omega), slice_append_slice 10 (by omega) (by omega),
        slice_append_slice 12 (by omega) (by omega), slice_append_slice 16 (by omega) (by omega)]
    _ = payload ⟨operations⟩ := by
      rw [magic, versionField, flags, countField, ← header, content, zero]
      rfl

/-- `encode` inverts `decode` on the strings that are not longer than a batch may be. -/
theorem encode_decode {bytes : Bytes} {batch : WriteBatch} (h : decode bytes = .ok batch)
    (small : bytes.length ≤ walMaxPayloadBytes) : batch.encode = .ok bytes := by
  obtain ⟨valid, rfl⟩ := payload_of_decode h
  exact encode_of_small valid small

/-- An accepted string is not the beginning of another one. -/
theorem eq_of_decode_append {bytes rest : Bytes} {batch other : WriteBatch}
    (h : decode bytes = .ok batch) (h' : decode (bytes ++ rest) = .ok other) : rest = [] := by
  obtain ⟨valid, rfl⟩ := payload_of_decode h
  obtain ⟨valid', same⟩ := payload_of_decode h'
  obtain ⟨⟨-, count⟩, members⟩ := validate_ok.mp valid
  obtain ⟨⟨-, count'⟩, members'⟩ := validate_ok.mp valid'
  have width : ∀ {n : Nat}, n ≤ maxOperations → n < 256 ^ 4 := fun small =>
    lt_of_le_of_lt small (by decide)
  -- the two batches declare the same number of operations
  have headers : batch.header = other.header := by
    have front := congrArg (List.take batchHeaderBytes) same
    rwa [payload, payload, List.append_assoc, List.take_left' batch.length_header,
      List.take_left' other.length_header] at front
  have counts : batch.operations.length = other.operations.length :=
    toBE_inj (width count) (width count') (List.append_cancel_left headers)
  -- so the loop reads the same operations from the longer string
  have read := decodeOperations_flatMap members batch.header rest
  have read' := decodeOperations_flatMap members' other.header []
  rw [List.append_nil, ← payload, ← same, payload, List.append_assoc, ← headers, ← counts, read,
    Except.ok.injEq, Prod.mk.injEq] at read'
  have lengths := congrArg List.length same
  rw [List.length_append, length_payload, length_payload] at lengths
  rw [length_header] at read'
  exact List.length_eq_zero_iff.mp (by omega)

/-- The codec of batches: the two directions, and that no accepted string is a strict beginning or a
strict extension of another. -/
theorem codec_bijective :
    (∀ (batch : WriteBatch) (bytes : Bytes), batch.encode = .ok bytes → decode bytes = .ok batch) ∧
    (∀ (bytes : Bytes) (batch : WriteBatch), bytes.length ≤ walMaxPayloadBytes →
      decode bytes = .ok batch → batch.encode = .ok bytes) ∧
    ∀ (bytes other : Bytes) (batch : WriteBatch), decode bytes = .ok batch →
      other <+: bytes ∨ bytes <+: other → other ≠ bytes → ∀ b, decode other ≠ .ok b := by
  refine ⟨fun batch bytes => decode_encode, fun bytes batch small h => encode_decode h small, ?_⟩
  intro bytes other batch accepted beginning different b accepted'
  rcases beginning with ⟨rest, rfl⟩ | ⟨rest, rfl⟩
  · have none_left := eq_of_decode_append accepted' accepted
    exact different (by rw [none_left, List.append_nil])
  · have none_left := eq_of_decode_append accepted accepted'
    exact different (by rw [none_left, List.append_nil])

/-- A batch with one operation of each kind. -/
def sampleBatch : WriteBatch := ⟨[.put [1] [2, 3], .delete [4]]⟩

theorem codec_bijective_sample :
    ∃ bytes, sampleBatch.encode = .ok bytes ∧ decode bytes = .ok sampleBatch ∧
      ∀ b, decode (bytes ++ [0]) ≠ .ok b := by
  have encoded : sampleBatch.encode = .ok sampleBatch.payload := by decide +kernel
  have decoded := codec_bijective.1 sampleBatch sampleBatch.payload encoded
  refine ⟨sampleBatch.payload, encoded, decoded, ?_⟩
  refine codec_bijective.2.2 sampleBatch.payload _ sampleBatch decoded (.inr ⟨[0], rfl⟩) ?_
  simp

end Vyrm.Kv.WriteBatch
