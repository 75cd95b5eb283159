import Vyrm.Core.Key.Order
import Vyrm.Store.Native.View

/-!
# The compatibility store

The claim log of `Store` (`crates/vyrm-store/src/store.rs`), over the keyspaces of a
Fjall database. A keyspace is an ordered map, and a transaction is applied as a whole
when it commits.
-/

namespace Vyrm.Store
open Lib Vyrm.Core Serde

/-- `Store` (`store.rs:26-53`), by the contents of its keyspaces. -/
structure Fjall where
  rows : Keyspace → OrdMap Bytes Bytes

namespace Fjall

/-- `tx.insert(space, key, value)`. -/
def insert (store : Fjall) (space : Keyspace) (key value : Bytes) : Fjall :=
  { rows := Function.update store.rows space ((store.rows space).insert key value) }

/-- `tx.get(space, key)`. -/
def get (store : Fjall) (space : Keyspace) (key : Bytes) : Option Bytes := (store.rows space)[key]?

/-- `sequence` (`store.rs:219-225`). -/
def sequence (store : Fjall) : Except Error UInt64 :=
  match store.get .metadata MetaKey.sequenceWatermark.bytes with
  | some value => View.decodeSequence value
  | none => .ok 0

variable [Codec]

/-- The loop of `append_batch` (`store.rs:736-756`), over the transaction. -/
def insertClaims (store : Fjall) (sequence : UInt64) : List Claim → Except Error (UInt64 × Fjall)
  | [] => .ok (sequence, store)
  | claim :: rest => do
    kernel claim.validate
    let sequence ← checkedSucc sequence
    insertClaims ((store.insert .sequenceIndex (sequenceKey sequence) claim.key).insert
      .claims claim.key (toVec claim)) sequence rest

/-- `append_batch` (`store.rs:715-773`): the outcome, and the store once the transaction has
committed. -/
def appendBatch (store : Fjall) (claims : List Claim) : Except Error (AppendOutcome × Fjall) := do
  let start ← store.sequence
  if claims = [] then
    return ({ firstSequence := start, lastSequence := start, count := 0 }, store)
  let (sequence, store) ← store.insertClaims start claims
  let store := store.insert .metadata MetaKey.sequenceWatermark.bytes (Format.nat.print sequence.toNat)
  return ({ firstSequence := start + 1, lastSequence := sequence, count := claims.length }, store)

/-! ## What the store has recorded -/

section Recorded

omit [Codec] in
theorem get_insert_self (store : Fjall) (space : Keyspace) (key value : Bytes) :
    (store.insert space key value).get space key = some value := by
  simp [insert, get]

omit [Codec] in
theorem get_insert_of_ne {store : Fjall} {space other : Keyspace} {key found value : Bytes}
    (different : other ≠ space ∨ found ≠ key) :
    (store.insert space key value).get other found = store.get other found := by
  by_cases same : other = space
  · subst same
    have keys : key ≠ found := fun h => different.elim (fun h' => h' rfl) fun h' => h' h.symm
    simp only [get, insert, Function.update_self]
    rw [OrdMap.getElem?_insert_of_ne keys]
  · simp [get, insert, Function.update_of_ne same]

/-- After the sequences up to `first`, the index names the claims of a log in their order, and under
each key stands the last claim of the log with that key. All else is as in `base`. -/
structure Records (base : Fjall) (first : Nat) (log : List Claim) (store : Fjall) : Prop where
  room : first + log.length < 2 ^ 64
  index : ∀ i claim, log[i]? = some claim →
    store.get .sequenceIndex (sequenceKey (UInt64.ofNat (first + i + 1))) = some claim.key
  others : ∀ sequence : UInt64, sequence.toNat ≤ first ∨ first + log.length < sequence.toNat →
    store.get .sequenceIndex (sequenceKey sequence) = base.get .sequenceIndex (sequenceKey sequence)
  claims : ∀ key, store.get .claims key =
    ((log.filter fun claim => claim.key = key).getLast?.map toVec).or (base.get .claims key)

/-- The store with its watermark at the end of the log. -/
structure Holds (base : Fjall) (first : Nat) (log : List Claim) (store : Fjall) : Prop
    extends Records base first log store where
  sequence : store.sequence = .ok (UInt64.ofNat (first + log.length))

variable {base store store' : Fjall} {first : Nat} {log claims : List Claim}

theorem Holds.start {sequence : UInt64} (start : base.sequence = .ok sequence) :
    Holds base sequence.toNat [] base := by
  refine ⟨⟨sequence.toNat_lt, by simp, fun _ _ => rfl, by simp⟩, ?_⟩
  simpa using start

theorem Records.add (claim : Claim) (records : Records base first log store)
    (room : first + log.length + 1 < 2 ^ 64) :
    Records base first (log ++ [claim]) ((store.insert .sequenceIndex
      (sequenceKey (UInt64.ofNat (first + log.length) + 1)) claim.key).insert .claims claim.key
        (toVec claim)) := by
  have next : (UInt64.ofNat (first + log.length) + 1).toNat = first + log.length + 1 := by
    rw [UInt64.toNat_add, UInt64.toNat_ofNat']
    have one : (1 : UInt64).toNat = 1 := rfl
    omega
  have length : first + (log ++ [claim]).length = first + log.length + 1 := by
    rw [List.length_append, List.length_singleton]
    omega
  -- of the index, only the row of the new sequence changes
  have kept : ∀ sequence : UInt64, sequence.toNat ≠ first + log.length + 1 →
      ((store.insert .sequenceIndex (sequenceKey (UInt64.ofNat (first + log.length) + 1)) claim.key).insert
        .claims claim.key (toVec claim)).get .sequenceIndex (sequenceKey sequence) =
      store.get .sequenceIndex (sequenceKey sequence) := by
    intro sequence different
    rw [get_insert_of_ne (.inl (by decide)), get_insert_of_ne]
    right
    intro same
    apply different
    rw [field_inj.mp same, next]
  constructor
  · rw [length]
    exact room
  · intro i other found
    by_cases old : i < log.length
    · rw [List.getElem?_append_left old] at found
      rw [kept]
      · exact records.index i other found
      · rw [UInt64.toNat_ofNat']
        omega
    · have last : i = log.length := by
        have := (List.getElem?_eq_some_iff.mp found).1
        rw [List.length_append, List.length_singleton] at this
        omega
      subst last
      rw [List.getElem?_concat_length, Option.some.injEq] at found
      subst found
      have same : UInt64.ofNat (first + log.length + 1) = UInt64.ofNat (first + log.length) + 1 := by
        rw [← UInt64.toNat_inj, next, UInt64.toNat_ofNat']
        omega
      rw [same, get_insert_of_ne (.inl (by decide)), get_insert_self]
  · intro sequence outside
    rw [length] at outside
    rw [kept sequence (by omega)]
    apply records.others
    omega
  · intro key
    rw [List.filter_append]
    by_cases same : key = claim.key
    · subst same
      rw [get_insert_self]
      simp
    · have other : claim.key ≠ key := fun h => same h.symm
      rw [get_insert_of_ne (.inr same), get_insert_of_ne (.inl (by decide)), records.claims]
      simp [other]

/-- The claims that `append_batch` inserts go to the end of the log. -/
theorem Records.insertClaims {last : UInt64} (records : Records base first log store)
    (inserted : store.insertClaims (UInt64.ofNat (first + log.length)) claims = .ok (last, store')) :
    Records base first (log ++ claims) store' ∧ last = UInt64.ofNat (first + (log ++ claims).length) ∧
      ∀ key, store'.get .metadata key = store.get .metadata key := by
  induction claims generalizing store log with
  | nil =>
    rw [Fjall.insertClaims, Except.ok.injEq, Prod.mk.injEq] at inserted
    obtain ⟨rfl, rfl⟩ := inserted
    rw [List.append_nil]
    exact ⟨records, rfl, fun _ => rfl⟩
  | cons claim rest ih =>
    rw [Fjall.insertClaims, except_bind_ok] at inserted
    obtain ⟨⟨⟩, -, inserted⟩ := inserted
    obtain ⟨sequence, fits, inserted⟩ := except_bind_ok.mp inserted
    rw [checkedSucc, except_reject_ok, Except.ok.injEq, ← UInt64.toNat_inj, UInt64.toNat_ofNat',
      toNat_u64Max] at fits
    obtain ⟨below, rfl⟩ := fits
    have room := records.room
    have next : UInt64.ofNat (first + log.length) + 1 = UInt64.ofNat (first + (log ++ [claim]).length) := by
      rw [List.length_append, List.length_singleton, ← Nat.add_assoc]
      exact (UInt64.ofNat_add _ 1).symm
    have grown := records.add claim (by omega)
    have done := ih grown (by rw [← next]; exact inserted)
    rw [List.append_assoc, List.singleton_append] at done
    refine ⟨done.1, done.2.1, fun key => ?_⟩
    rw [done.2.2, get_insert_of_ne (.inl (by decide)), get_insert_of_ne (.inl (by decide))]

/-- An accepted batch goes to the end of the log, in its order. -/
theorem Holds.appendBatch {outcome : AppendOutcome} (holds : Holds base first log store)
    (accepted : store.appendBatch claims = .ok (outcome, store')) :
    Holds base first (log ++ claims) store' ∧ outcome.count = claims.length := by
  rw [Fjall.appendBatch, holds.sequence, except_ok_bind] at accepted
  by_cases empty : claims = []
  · subst empty
    rw [if_pos rfl, except_pure, Except.ok.injEq, Prod.mk.injEq] at accepted
    obtain ⟨rfl, rfl⟩ := accepted
    rw [List.append_nil]
    exact ⟨holds, rfl⟩
  · simp only [if_neg empty] at accepted
    obtain ⟨⟨last, inner⟩, inserted, accepted⟩ := except_bind_ok.mp accepted
    rw [except_pure, Except.ok.injEq, Prod.mk.injEq] at accepted
    obtain ⟨rfl, rfl⟩ := accepted
    obtain ⟨records, rfl, -⟩ := holds.toRecords.insertClaims inserted
    refine ⟨⟨⟨records.room, ?_, ?_, ?_⟩, ?_⟩, rfl⟩
    · intro i claim found
      rw [get_insert_of_ne (.inl (by decide))]
      exact records.index i claim found
    · intro sequence outside
      rw [get_insert_of_ne (.inl (by decide))]
      exact records.others sequence outside
    · intro key
      rw [get_insert_of_ne (.inl (by decide))]
      exact records.claims key
    · rw [Fjall.sequence, get_insert_self]
      exact View.decodeSequence_print _

end Recorded

end Fjall

end Vyrm.Store
