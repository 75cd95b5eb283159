import Vyrm.Kv.Error

/-!
# Atomic mutation batches

`crates/vyrm-kv/src/batch.rs`: the batch of mutations that one WAL frame carries,
its validation and its binary form. The central result is that `decode` inverts
`encode`, which is what lets recovery replay exactly what a writer accepted.
-/

namespace Vyrm.Kv
open Lib

/-- `WAL_MAX_PAYLOAD_BYTES` (`wal.rs:8`). -/
def walMaxPayloadBytes : Nat := 16 * 1024 * 1024

def batchFormatVersion : Nat := 1
/-- `b"VYRBAT01"`. -/
def batchMagic : Bytes := [86, 89, 82, 66, 65, 84, 48, 49]
def batchHeaderBytes : Nat := 16
def opHeaderBytes : Nat := 12
def maxOperations : Nat := 1000000
def maxKeyBytes : Nat := 1024 * 1024
def maxValueBytes : Nat := 8 * 1024 * 1024

/-- `Mutation` (`batch.rs:14-17`). -/
inductive Mutation where
  | put (key value : Bytes)
  | delete (key : Bytes)
  deriving DecidableEq, Repr

namespace Mutation

def key : Mutation → Bytes
  | put key _ => key
  | delete key => key

/-- The stored value: `None` for a delete. -/
def value : Mutation → Option Bytes
  | put _ value => some value
  | delete _ => none

/-- `Mutation::validate` (`batch.rs:26-41`). -/
def validate (mutation : Mutation) : Except Error Unit := do
  rejectIf (mutation.key = [] ∨ mutation.key.length > maxKeyBytes)
    (.invalidBatch s!"key length must be in 1..={maxKeyBytes} bytes")
  match mutation with
  | put _ value =>
    rejectIf (value.length > maxValueBytes)
      (.invalidBatch s!"value length exceeds {maxValueBytes} bytes")
  | delete _ => pure ()

end Mutation

/-- `WriteBatch` (`batch.rs:44-47`). -/
structure WriteBatch where
  operations : List Mutation
  deriving DecidableEq, Repr

namespace WriteBatch

/-- `for operation in &self.operations { operation.validate()? }`. -/
def validateOperations : List Mutation → Except Error Unit
  | [] => pure ()
  | operation :: rest => do
    operation.validate
    validateOperations rest

/-- `WriteBatch::validate` (`batch.rs:170-180`). -/
def validate (batch : WriteBatch) : Except Error Unit := do
  rejectIf (batch.operations = [] ∨ batch.operations.length > maxOperations)
    (.invalidBatch s!"operation count must be in 1..={maxOperations}")
  validateOperations batch.operations

/-- `WriteBatch::new` (`batch.rs:50-54`). -/
def new (operations : List Mutation) : Except Error WriteBatch := do
  let batch : WriteBatch := ⟨operations⟩
  batch.validate
  return batch

/-- The kind byte, key and value that an operation is written with. -/
def operationParts : Mutation → UInt8 × Bytes × Bytes
  | .put key value => (1, key, value)
  | .delete key => (2, key, [])

/-- The loop of `WriteBatch::encode` (`batch.rs:73-96`) over an output buffer. -/
def encodeOperations : List Mutation → Bytes → Except Error Bytes
  | [], output => pure output
  | operation :: rest, output => do
    let (kind, key, value) := operationParts operation
    let keyLen ← u32TryFrom key.length (.invalidBatch "key length exceeds u32")
    let valueLen ← u32TryFrom value.length (.invalidBatch "value length exceeds u32")
    let output := output ++ ([kind] ++ [0, 0, 0] ++ toBE 4 keyLen ++ toBE 4 valueLen ++ key ++ value)
    rejectIf (output.length > walMaxPayloadBytes)
      (.invalidBatch s!"encoded batch exceeds {walMaxPayloadBytes} bytes")
    encodeOperations rest output

/-- `WriteBatch::encode` (`batch.rs:64-98`). -/
def encode (batch : WriteBatch) : Except Error Bytes := do
  batch.validate
  let count ← u32TryFrom batch.operations.length (.invalidBatch "operation count exceeds u32")
  encodeOperations batch.operations
    (batchMagic ++ toBE 2 batchFormatVersion ++ toBE 2 0 ++ toBE 4 count)

/-- The body of the decoding loop (`batch.rs:124-160`): one operation at `cursor`, and the
position after it. -/
def decodeOperation (bytes : Bytes) (cursor : Nat) : Except Error (Mutation × Nat) := do
  let headerEnd := cursor + opHeaderBytes
  let header ← okOr (slice? bytes cursor headerEnd) (.invalidBatch "incomplete operation header")
  let kind := header.headD 0
  rejectIf (slice header 1 4 ≠ [0, 0, 0]) (.invalidBatch "unknown operation flags")
  let keyLen := ofBE (slice header 4 8)
  let valueLen := ofBE (slice header 8 12)
  rejectIf (keyLen = 0 ∨ keyLen > maxKeyBytes ∨ valueLen > maxValueBytes)
    (.invalidBatch "operation key/value length exceeds its contract")
  let stop := headerEnd + keyLen + valueLen
  let body ← okOr (slice? bytes headerEnd stop) (.invalidBatch "incomplete operation body")
  let key := body.take keyLen
  let value := body.drop keyLen
  if kind = 1 then return (.put key value, stop)
  else if kind = 2 then
    if value = [] then return (.delete key, stop)
    else throw (.invalidBatch "delete operation carries a value")
  else throw (.invalidBatch s!"unknown operation kind {kind}")

/-- `for _ in 0..count` (`batch.rs:123-161`). -/
def decodeOperations (bytes : Bytes) : Nat → Nat → Except Error (List Mutation × Nat)
  | 0, cursor => pure ([], cursor)
  | count + 1, cursor => do
    let (operation, next) ← decodeOperation bytes cursor
    let (rest, stop) ← decodeOperations bytes count next
    return (operation :: rest, stop)

/-- `WriteBatch::decode` (`batch.rs:100-168`). -/
def decode (bytes : Bytes) : Except Error WriteBatch := do
  rejectIf (bytes.length < batchHeaderBytes) (.invalidBatch "incomplete batch header")
  rejectIf (slice bytes 0 8 ≠ batchMagic) (.invalidBatch "batch magic does not match")
  let version := ofBE (slice bytes 8 10)
  rejectIf (version ≠ batchFormatVersion) (.unsupportedVersion "write batch" version)
  rejectIf (slice bytes 10 12 ≠ [0, 0]) (.invalidBatch "unknown batch flags")
  let count := ofBE (slice bytes 12 16)
  rejectIf (count = 0 ∨ count > maxOperations)
    (.invalidBatch s!"invalid operation count {count}")
  let (operations, cursor) ← decodeOperations bytes count batchHeaderBytes
  rejectIf (cursor ≠ bytes.length)
    (.invalidBatch s!"{bytes.length - cursor} trailing byte(s) after the declared batch")
  new operations

/-! ## Decoding inverts encoding -/

/-- The encoding of one operation. -/
def operationBytes (operation : Mutation) : Bytes :=
  let (kind, key, value) := operationParts operation
  [kind] ++ [0, 0, 0] ++ toBE 4 key.length ++ toBE 4 value.length ++ key ++ value

/-- The twelve header bytes of one operation. -/
def operationHeader (operation : Mutation) : Bytes :=
  let (kind, key, value) := operationParts operation
  [kind] ++ [0, 0, 0] ++ toBE 4 key.length ++ toBE 4 value.length

theorem mutation_validate_ok {m : Mutation} :
    m.validate = .ok () ↔ m.key ≠ [] ∧ m.key.length ≤ maxKeyBytes ∧
      (operationParts m).2.2.length ≤ maxValueBytes := by
  cases m with
  | put key value =>
    simp only [Mutation.validate, except_bind_ok, rejectIf_ok, exists_const, Mutation.key,
      operationParts, not_or, not_lt, gt_iff_lt, ne_eq, and_assoc]
  | delete key =>
    simp [Mutation.validate, except_bind_ok, rejectIf_ok, Mutation.key, operationParts, pure,
      Except.pure]

theorem validateOperations_ok {operations : List Mutation} :
    validateOperations operations = .ok () ↔ ∀ m ∈ operations, m.validate = .ok () := by
  induction operations with
  | nil => simp [validateOperations, pure, Except.pure]
  | cons m rest ih =>
    simp only [validateOperations, except_bind_ok, ih, List.forall_mem_cons]
    exact ⟨fun ⟨_, h, t⟩ => ⟨h, t⟩, fun ⟨h, t⟩ => ⟨(), h, t⟩⟩

theorem validate_ok {batch : WriteBatch} :
    batch.validate = .ok () ↔ (batch.operations ≠ [] ∧ batch.operations.length ≤ maxOperations) ∧
      ∀ m ∈ batch.operations, m.validate = .ok () := by
  simp only [validate, except_bind_ok, rejectIf_ok, exists_const, validateOperations_ok, not_or,
    not_lt, gt_iff_lt, ne_eq]

theorem operationBytes_eq (m : Mutation) :
    operationBytes m = operationHeader m ++ ((operationParts m).2.1 ++ (operationParts m).2.2) := by
  simp [operationBytes, operationHeader]

@[simp] theorem length_operationHeader (m : Mutation) :
    (operationHeader m).length = opHeaderBytes := by
  simp [operationHeader, opHeaderBytes]

theorem operationParts_key (m : Mutation) : (operationParts m).2.1 = m.key := by
  cases m <;> rfl

/-- A successful encoding loop appended the operations' encodings to its buffer. -/
theorem encodeOperations_ok {operations : List Mutation} {output result : Bytes}
    (h : encodeOperations operations output = .ok result) :
    result = output ++ operations.flatMap operationBytes ∧
      (operations ≠ [] → result.length ≤ walMaxPayloadBytes) := by
  induction operations generalizing output with
  | nil =>
    cases h
    simp
  | cons m rest ih =>
    simp only [encodeOperations, except_bind_ok, u32TryFrom_ok, rejectIf_ok, exists_const,
      not_lt, gt_iff_lt] at h
    obtain ⟨keyLen, ⟨-, rfl⟩, valueLen, ⟨-, rfl⟩, small, h⟩ := h
    obtain ⟨rfl, bound⟩ := ih h
    refine ⟨by simp [operationBytes], fun _ => ?_⟩
    cases rest with
    | nil => simpa using small
    | cons m' rest => exact bound (by simp)

/-- The encoding loop takes valid operations as long as its buffer stays within the limit. -/
theorem encodeOperations_of_small {operations : List Mutation} {output : Bytes}
    (valid : ∀ m ∈ operations, m.validate = .ok ())
    (small : (output ++ operations.flatMap operationBytes).length ≤ walMaxPayloadBytes) :
    encodeOperations operations output = .ok (output ++ operations.flatMap operationBytes) := by
  induction operations generalizing output with
  | nil => simp [encodeOperations]
  | cons m rest ih =>
    obtain ⟨first, others⟩ := List.forall_mem_cons.mp valid
    rw [List.flatMap_cons, ← List.append_assoc] at small
    have here : (output ++ operationBytes m).length ≤ walMaxPayloadBytes := by
      rw [List.length_append] at small
      omega
    have parts : (operationParts m).2.1.length < 2 ^ 32 ∧ (operationParts m).2.2.length < 2 ^ 32 := by
      rw [operationBytes_eq, List.length_append, List.length_append, List.length_append, walMaxPayloadBytes] at here
      omega
    simp only [encodeOperations, u32TryFrom, if_pos parts.1, if_pos parts.2, except_ok_bind]
    rw [rejectIf_of_not, except_ok_bind]
    · show encodeOperations rest (output ++ operationBytes m) = _
      rw [ih others small, List.flatMap_cons, List.append_assoc]
    · rw [gt_iff_lt, not_lt]
      exact here

/-- An operation is read back from wherever its encoding stands. -/
theorem decodeOperation_operationBytes {m : Mutation} (valid : m.validate = .ok ())
    (before after : Bytes) :
    decodeOperation (before ++ (operationBytes m ++ after)) before.length =
      .ok (m, before.length + (operationBytes m).length) := by
  obtain ⟨nonempty, keySmall, valueSmall⟩ := mutation_validate_ok.mp valid
  have keyPos : 0 < m.key.length := List.length_pos_iff.mpr nonempty
  have keyWidth : m.key.length < 256 ^ 4 := lt_of_le_of_lt keySmall (by decide)
  have valueWidth : (operationParts m).2.2.length < 256 ^ 4 := lt_of_le_of_lt valueSmall (by decide)
  have headerRead : slice? (before ++ (operationBytes m ++ after)) before.length
      (before.length + opHeaderBytes) = some (operationHeader m) := by
    rw [slice?_eq_some_iff]
    refine ⟨by omega, by simp [operationBytes_eq], ?_⟩
    rw [operationBytes_eq, List.append_assoc, slice_append rfl (by simp)]
  have flags : slice (operationHeader m) 1 4 = [0, 0, 0] := by
    apply slice_of_eq [(operationParts m).1] (toBE 4 (operationParts m).2.1.length
      ++ toBE 4 (operationParts m).2.2.length) <;> simp [operationHeader]
  have keyField : ofBE (slice (operationHeader m) 4 8) = m.key.length := by
    have field : slice (operationHeader m) 4 8 = toBE 4 m.key.length := by
      apply slice_of_eq ([(operationParts m).1] ++ [0, 0, 0]) (toBE 4 (operationParts m).2.2.length)
        <;> simp [operationHeader, operationParts_key]
    rw [field]
    exact ofBE_toBE_of_lt keyWidth
  have valueField : ofBE (slice (operationHeader m) 8 12) = (operationParts m).2.2.length := by
    have field : slice (operationHeader m) 8 12 = toBE 4 (operationParts m).2.2.length := by
      apply slice_of_eq ([(operationParts m).1] ++ [0, 0, 0] ++ toBE 4 m.key.length) []
        <;> simp [operationHeader, operationParts_key]
    rw [field]
    exact ofBE_toBE_of_lt valueWidth
  have bodyRead : slice? (before ++ (operationBytes m ++ after)) (before.length + opHeaderBytes)
      (before.length + opHeaderBytes + m.key.length + (operationParts m).2.2.length) =
      some (m.key ++ (operationParts m).2.2) := by
    rw [slice?_eq_some_iff]
    refine ⟨by omega, by simp [operationBytes_eq, operationParts_key, Nat.add_assoc], ?_⟩
    apply slice_of_eq (before ++ operationHeader m) after
    · simp [operationBytes_eq, operationParts_key]
    · simp
    · simp; omega
  have stop : before.length + (operationBytes m).length =
      before.length + opHeaderBytes + m.key.length + (operationParts m).2.2.length := by
    simp [operationBytes_eq, operationParts_key]; omega
  have lengths : ¬ (m.key.length = 0 ∨ m.key.length > maxKeyBytes ∨
      (operationParts m).2.2.length > maxValueBytes) := by omega
  simp only [decodeOperation, headerRead, okOr_some, except_ok_bind, flags, keyField, valueField,
    bodyRead, stop, rejectIf_of_not lengths, rejectIf_ne_self]
  cases m with
  | put key value => simp [operationHeader, operationParts, Mutation.key]
  | delete key => simp [operationHeader, operationParts, Mutation.key]

theorem decodeOperations_flatMap {operations : List Mutation}
    (valid : ∀ m ∈ operations, m.validate = .ok ()) (before after : Bytes) :
    decodeOperations (before ++ (operations.flatMap operationBytes ++ after)) operations.length
      before.length = .ok (operations, before.length + (operations.flatMap operationBytes).length) := by
  induction operations generalizing before with
  | nil => simp [decodeOperations]
  | cons m rest ih =>
    have head := decodeOperation_operationBytes (valid m (by simp)) before
      (rest.flatMap operationBytes ++ after)
    have tail := ih (fun m' hm' => valid m' (by simp [hm'])) (before ++ operationBytes m)
    simp only [List.flatMap_cons, List.append_assoc, List.length_append, List.length_cons] at head tail ⊢
    simp only [decodeOperations, head, except_ok_bind, tail, except_pure, Nat.add_assoc]

/-- The sixteen header bytes of a batch. -/
def header (batch : WriteBatch) : Bytes :=
  batchMagic ++ toBE 2 batchFormatVersion ++ toBE 2 0 ++ toBE 4 batch.operations.length

/-- The bytes of a batch that `encode` accepts. -/
def payload (batch : WriteBatch) : Bytes :=
  batch.header ++ batch.operations.flatMap operationBytes

@[simp] theorem length_header (batch : WriteBatch) : batch.header.length = batchHeaderBytes := by
  simp [header, batchMagic, batchHeaderBytes]

theorem length_payload (batch : WriteBatch) :
    batch.payload.length = batchHeaderBytes + (batch.operations.flatMap operationBytes).length := by
  rw [payload, List.length_append, length_header]

theorem length_payload_pos (batch : WriteBatch) : 0 < batch.payload.length := by
  rw [length_payload, batchHeaderBytes]
  omega

theorem encode_ok {batch : WriteBatch} {bytes : Bytes} (h : batch.encode = .ok bytes) :
    batch.validate = .ok () ∧ bytes = batch.payload ∧ bytes.length ≤ walMaxPayloadBytes := by
  simp only [encode, except_bind_ok, u32TryFrom_ok] at h
  obtain ⟨⟨⟩, valid, count, ⟨-, rfl⟩, h⟩ := h
  obtain ⟨rfl, bound⟩ := encodeOperations_ok h
  exact ⟨valid, rfl, bound (validate_ok.mp valid).1.1⟩

theorem encode_of_small {batch : WriteBatch} (valid : batch.validate = .ok ())
    (small : batch.payload.length ≤ walMaxPayloadBytes) : batch.encode = .ok batch.payload := by
  obtain ⟨⟨-, count⟩, members⟩ := validate_ok.mp valid
  have fits : batch.operations.length < 2 ^ 32 := by
    rw [maxOperations] at count
    omega
  rw [encode, valid, except_ok_bind, u32TryFrom, if_pos fits, except_ok_bind]
  exact encodeOperations_of_small members small

/-- `decode` inverts `encode`. -/
theorem decode_encode {batch : WriteBatch} {bytes : Bytes} (h : batch.encode = .ok bytes) :
    decode bytes = .ok batch := by
  obtain ⟨valid, rfl, -⟩ := encode_ok h
  obtain ⟨⟨nonempty, count⟩, members⟩ := validate_ok.mp valid
  have countPos : 0 < batch.operations.length := List.length_pos_iff.mpr nonempty
  have countWidth : batch.operations.length < 256 ^ 4 := lt_of_le_of_lt count (by decide)
  let rest := batch.operations.flatMap operationBytes
  have magic : slice batch.payload 0 8 = batchMagic :=
    slice_of_eq [] (toBE 2 batchFormatVersion ++ toBE 2 0 ++
      toBE 4 batch.operations.length ++ rest) (by simp [payload, header, rest]) rfl rfl
  have version : slice batch.payload 8 10 = toBE 2 batchFormatVersion :=
    slice_of_eq batchMagic (toBE 2 0 ++ toBE 4 batch.operations.length ++ rest)
      (by simp [payload, header, rest]) rfl rfl
  have flags : slice batch.payload 10 12 = [0, 0] :=
    slice_of_eq (batchMagic ++ toBE 2 batchFormatVersion) (toBE 4 batch.operations.length ++ rest)
      (by simp [payload, header, rest]; rfl) rfl rfl
  have countField : ofBE (slice batch.payload 12 16) = batch.operations.length := by
    have field : slice batch.payload 12 16 = toBE 4 batch.operations.length := by
      apply slice_of_eq (batchMagic ++ toBE 2 batchFormatVersion ++ toBE 2 0) rest
      · simp [payload, header, rest]
      · simp [batchMagic]
      · simp [batchMagic]
    rw [field]
    exact ofBE_toBE_of_lt countWidth
  have operations : decodeOperations batch.payload batch.operations.length batchHeaderBytes =
      .ok (batch.operations, batch.payload.length) := by
    have read := decodeOperations_flatMap members batch.header []
    rwa [List.append_nil, length_header, ← payload, ← length_payload] at read
  have long : ¬ batch.payload.length < batchHeaderBytes := by
    rw [length_payload]
    omega
  have counted : ¬ (batch.operations.length = 0 ∨ batch.operations.length > maxOperations) := by omega
  have current : ofBE (toBE 2 batchFormatVersion) = batchFormatVersion := by decide
  simp only [decode, rejectIf_of_not long, except_ok_bind, magic, version, flags, countField, current,
    rejectIf_of_not counted, rejectIf_ne_self, operations, new, valid, except_pure]

end WriteBatch
end Vyrm.Kv
