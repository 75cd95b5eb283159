import Vyrm.Kv.Memtable.Spec
import Vyrm.Kv.Wal.Prefix

/-!
# Replaying a log into a memtable

A database keeps the batches accepted since its last flush twice: as frames of
its active log and as versions of its memtable. Both are functions of the list of
these batches and of the durable sequence below them, and replaying the one
gives the other.
-/

namespace Vyrm.Kv
open Lib Mvcc

/-- All operations of a list of batches, in the order they were accepted. -/
def operationsOf (batches : List WriteBatch) : List Mutation := batches.flatMap (·.operations)

@[simp] theorem operationsOf_nil : operationsOf [] = [] := rfl

@[simp] theorem operationsOf_append (xs ys : List WriteBatch) :
    operationsOf (xs ++ ys) = operationsOf xs ++ operationsOf ys := by simp [operationsOf]

@[simp] theorem operationsOf_singleton (batch : WriteBatch) :
    operationsOf [batch] = batch.operations := by simp [operationsOf]

theorem operationsOf_cons (batch : WriteBatch) (rest : List WriteBatch) :
    operationsOf (batch :: rest) = batch.operations ++ operationsOf rest := rfl

/-- Batches that the encoder accepts. -/
def Encodable (batches : List WriteBatch) : Prop := ∀ b ∈ batches, b.encode = .ok b.payload

/-- The log records of a list of batches, numbered from `start`. -/
def logOf : Nat → List WriteBatch → List WalBatch
  | _, [] => []
  | start, batch :: rest =>
    ⟨start, start + (batch.operations.length - 1), batch.payload⟩ ::
      logOf (start + batch.operations.length) rest

theorem logOf_append (start : Nat) (xs ys : List WriteBatch) :
    logOf start (xs ++ ys) = logOf start xs ++ logOf (start + (operationsOf xs).length) ys := by
  induction xs generalizing start with
  | nil => rfl
  | cons x xs ih =>
    rw [List.cons_append, logOf, ih, logOf, operationsOf_cons, List.length_append, Nat.add_assoc,
      List.cons_append]

theorem encode_nonempty {batch : WriteBatch} (encodes : batch.encode = .ok batch.payload) :
    0 < batch.operations.length :=
  List.length_pos_iff.mpr (WriteBatch.validate_ok.mp (WriteBatch.encode_ok encodes).1).1.1

theorem encode_key_ne_nil {batch : WriteBatch} (encodes : batch.encode = .ok batch.payload)
    {m : Mutation} (member : m ∈ batch.operations) : m.key ≠ [] :=
  (WriteBatch.mutation_validate_ok.mp
    ((WriteBatch.validate_ok.mp (WriteBatch.encode_ok encodes).1).2 m member)).1

theorem Encodable.key_ne_nil {batches : List WriteBatch} (encodes : Encodable batches)
    {m : Mutation} (member : m ∈ operationsOf batches) : m.key ≠ [] := by
  obtain ⟨batch, inBatches, inBatch⟩ := List.mem_flatMap.mp member
  exact encode_key_ne_nil (encodes batch inBatches) inBatch

theorem encodable_cons {batch : WriteBatch} {rest : List WriteBatch} :
    Encodable (batch :: rest) ↔ batch.encode = .ok batch.payload ∧ Encodable rest :=
  List.forall_mem_cons

theorem nextAfter_logOf {start : Nat} {batches : List WriteBatch} (encodes : Encodable batches) :
    nextAfter start (logOf start batches) = start + (operationsOf batches).length := by
  induction batches generalizing start with
  | nil => rfl
  | cons batch rest ih =>
    obtain ⟨first, encodes⟩ := encodable_cons.mp encodes
    have positive := encode_nonempty first
    have last : start + (batch.operations.length - 1) + 1 = start + batch.operations.length := by
      omega
    rw [logOf, nextAfter, last, ih encodes, operationsOf_cons, List.length_append, Nat.add_assoc]

/-- The record of an encodable batch passes the log's validation. -/
theorem validate_logRecord {batch : WriteBatch} {start : Nat}
    (encodes : batch.encode = .ok batch.payload) (positive : start ≠ 0)
    (room : start + batch.operations.length ≤ u64Max) :
    WalBatch.validate ⟨start, start + (batch.operations.length - 1), batch.payload⟩ = .ok () := by
  have some_ := encode_nonempty encodes
  obtain ⟨-, -, small⟩ := WriteBatch.encode_ok encodes
  rw [walBatch_validate_ok]
  exact ⟨positive, by dsimp only; omega, by dsimp only; omega,
    List.ne_nil_of_length_pos batch.length_payload_pos, small⟩

theorem chain_logOf {start : Nat} {batches : List WriteBatch} (encodes : Encodable batches)
    (positive : start ≠ 0) (room : start + (operationsOf batches).length ≤ u64Max) :
    Chain start (logOf start batches) := by
  induction batches generalizing start with
  | nil => trivial
  | cons batch rest ih =>
    obtain ⟨first, encodes⟩ := encodable_cons.mp encodes
    have some_ := encode_nonempty first
    rw [operationsOf_cons, List.length_append] at room
    have last : start + (batch.operations.length - 1) + 1 = start + batch.operations.length := by
      omega
    refine ⟨validate_logRecord first positive (by omega), rfl, ?_⟩
    rw [last]
    exact ih encodes (by omega) (by omega)

namespace Memtable

variable [Platform]

theorem apply_recoveredAt {offset durable : Nat} {operations : List Mutation} {batch : WriteBatch}
    (encodes : batch.encode = .ok batch.payload)
    (room : durable + operations.length + batch.operations.length < u64Max) :
    (holding durable operations).apply (recoveredAt offset
      ⟨durable + operations.length + 1,
        durable + operations.length + 1 + (batch.operations.length - 1), batch.payload⟩) =
      .ok (holding durable (operations ++ batch.operations)) := by
  have some_ := encode_nonempty encodes
  have last : durable + operations.length + 1 + (batch.operations.length - 1) =
      durable + operations.length + batch.operations.length := by omega
  rw [last, apply]
  dsimp only [recoveredAt]
  rw [WriteBatch.decode_encode encodes, except_ok_bind]
  exact applyWriteBatch_holding (List.ne_nil_of_length_pos some_) room

theorem applyAll_placed {durable : Nat} (offset : Nat) (operations : List Mutation)
    {batches : List WriteBatch} (encodes : Encodable batches)
    (room : durable + operations.length + (operationsOf batches).length < u64Max) :
    (holding durable operations).applyAll
      (placed offset (logOf (durable + operations.length + 1) batches)) =
      .ok (holding durable (operations ++ operationsOf batches)) := by
  induction batches generalizing offset operations with
  | nil => simp [logOf, placed, applyAll]
  | cons batch rest ih =>
    obtain ⟨first, encodes⟩ := encodable_cons.mp encodes
    rw [operationsOf_cons, List.length_append] at room
    rw [logOf, placed, applyAll, apply_recoveredAt first (by omega), except_ok_bind,
      operationsOf_cons, ← List.append_assoc]
    have rest_ := ih (offset + (frame ⟨durable + operations.length + 1,
      durable + operations.length + 1 + (batch.operations.length - 1), batch.payload⟩).length)
      (operations ++ batch.operations) encodes
      (by rw [List.length_append]; omega)
    rw [List.length_append] at rest_
    have shift : durable + operations.length + 1 + batch.operations.length =
        durable + (operations.length + batch.operations.length) + 1 := by omega
    rw [shift]
    exact rest_

/-- Replaying the log of a list of batches gives the memtable that holds them. -/
theorem recoverFrom_placed {offset durable : Nat} {batches : List WriteBatch}
    (encodes : Encodable batches) (room : durable + (operationsOf batches).length < u64Max) :
    Memtable.recoverFrom (placed offset (logOf (durable + 1) batches)) durable =
      .ok (holding durable (operationsOf batches)) := by
  have replayed := applyAll_placed offset [] encodes
    (by simpa using room)
  simpa [Memtable.recoverFrom] using replayed

end Memtable
end Vyrm.Kv
