import Vyrm.Store.Migration

/-!
# What an export carries

The rows of an export are the rows of the store, each once and in the order the archive
demands, so a finished archive is read back to them; and the operations made of them
leave a native database with just these rows.
-/

namespace Vyrm.Store
open Lib Vyrm.Core

namespace Migration

/-- A row belongs to a store. -/
theorem mem_archiveRows {store : Fjall} {row : Row} :
    row ∈ archiveRows store ↔
      ∃ space, Keyspace.all[row.space]? = some space ∧ store.get space row.key = some row.value := by
  simp only [archiveRows, List.mem_flatMap, List.mem_map, Prod.exists, List.mem_zipIdx_iff_getElem?,
    Std.ExtTreeMap.mem_toList_iff_getElem?_eq_some, Fjall.get]
  constructor
  · rintro ⟨space, ordinal, listed, key, value, found, same⟩
    subst same
    exact ⟨space, listed, found⟩
  · rintro ⟨space, listed, found⟩
    exact ⟨space, row.space, listed, row.key, row.value, found, rfl⟩

theorem canonical_of_mem {store : Fjall} {row : Row} (member : row ∈ archiveRows store) :
    row.space < Keyspace.all.length := by
  obtain ⟨space, listed, -⟩ := mem_archiveRows.mp member
  exact (List.getElem?_eq_some_iff.mp listed).1

theorem pairwise_archiveRows (store : Fjall) : (archiveRows store).Pairwise ArchiveReader.Before := by
  rw [archiveRows, List.pairwise_flatMap]
  constructor
  · intro ⟨space, ordinal⟩ _
    rw [List.pairwise_map]
    apply Std.ExtTreeMap.ordered_keys_toList.imp
    intro a b below
    exact .inr ⟨rfl, Std.compare_eq_lt.mp below⟩
  · have ordinals : (Keyspace.all.zipIdx.map Prod.snd).Pairwise (· < ·) := by decide
    rw [List.pairwise_map] at ordinals
    apply ordinals.imp
    intro (space, ordinal) (space', ordinal') below x first y second
    simp only [List.mem_map] at first second
    obtain ⟨_, -, rfl⟩ := first
    obtain ⟨_, -, rfl⟩ := second
    exact .inl below

/-- The key under which a row is imported. -/
theorem operation_key {row : Row} {space : Keyspace} (listed : Keyspace.all[row.space]? = some space) :
    row.operation.key = storageKey space row.key := by
  rw [Row.operation, Kv.Mutation.key, List.getD_eq_getElem?_getD, listed, Option.getD_some]

/-- No two rows are imported under one key. -/
theorem nodup_operations (store : Fjall) :
    ((archiveRows store).map fun row => row.operation.key).Nodup := by
  rw [List.Nodup, List.pairwise_map]
  apply (pairwise_archiveRows store).imp_of_mem
  intro a b first second before same
  obtain ⟨space, listed, -⟩ := mem_archiveRows.mp first
  obtain ⟨space', listed', -⟩ := mem_archiveRows.mp second
  rw [operation_key listed, operation_key listed', storageKey_inj] at same
  obtain ⟨rfl, keys⟩ := same
  have spaces : a.space = b.space := by
    have unique : Keyspace.all.Nodup := by decide
    have inside := (List.getElem?_eq_some_iff.mp listed).1
    have inside' := (List.getElem?_eq_some_iff.mp listed').1
    exact (List.getElem?_inj inside unique).mp (listed.trans listed'.symm)
  rcases before with below | ⟨-, below⟩
  · omega
  · exact absurd below (by rw [keys]; exact lt_irrefl _)

/-- The rows of a store as a native database holds them. -/
def nativeRows (store : Fjall) : Rows := Rows.ofHistory ((archiveRows store).map Row.operation)

/-- A native database with the rows of a store has each of its records, under the name of the
keyspace, and nothing else. -/
theorem getElem?_nativeRows (store : Fjall) (key value : Bytes) :
    (nativeRows store)[key]? = some value ↔
      ∃ space k, key = storageKey space k ∧ store.get space k = some value := by
  have puts : (archiveRows store).map Row.operation =
      (archiveRows store).map fun row => .put row.operation.key row.value := rfl
  rw [nativeRows, puts, Rows.getElem?_ofPuts (nodup_operations store)]
  constructor
  · intro ⟨row, member, here, found⟩
    obtain ⟨space, listed, stored⟩ := mem_archiveRows.mp member
    exact ⟨space, row.key, by rw [← here, operation_key listed], by rw [stored, found]⟩
  · intro ⟨space, k, here, stored⟩
    obtain ⟨ordinal, listed⟩ : ∃ ordinal : Nat, Keyspace.all[ordinal]? = some space := by
      apply List.mem_iff_getElem?.mp
      cases space <;> decide
    refine ⟨⟨ordinal, k, value⟩, mem_archiveRows.mpr ⟨space, listed, stored⟩, ?_, rfl⟩
    rw [here]
    exact operation_key listed

theorem getElem?_nativeRows_storageKey (store : Fjall) (space : Keyspace) (key : Bytes) :
    (nativeRows store)[storageKey space key]? = store.get space key := by
  apply Option.ext
  intro value
  rw [getElem?_nativeRows]
  constructor
  · intro ⟨other, k, same, stored⟩
    obtain ⟨rfl, rfl⟩ := storageKey_inj.mp same
    exact stored
  · intro stored
    exact ⟨space, key, rfl, stored⟩

/-- Every row is found again in the database it was imported into. -/
theorem getElem?_nativeRows_operation {store : Fjall} {row : Row} (member : row ∈ archiveRows store) :
    (nativeRows store)[row.operation.key]? = some row.value := by
  obtain ⟨space, listed, stored⟩ := mem_archiveRows.mp member
  rw [operation_key listed, getElem?_nativeRows_storageKey, stored]

theorem compareRows_nativeRows (store : Fjall) :
    compareRows (nativeRows store) (archiveRows store) = .ok () := by
  have all : ∀ rows : List Row, (∀ row ∈ rows, (nativeRows store)[row.operation.key]? = some row.value) →
      compareRows (nativeRows store) rows = .ok () := by
    intro rows
    induction rows with
    | nil => exact fun _ => rfl
    | cons row rest ih =>
      intro found
      obtain ⟨first, others⟩ := List.forall_mem_cons.mp found
      rw [compareRows, if_neg (not_not.mpr first)]
      exact ih others
  exact all _ fun row member => getElem?_nativeRows_operation member

/-- A scan of the whole database sees as many rows as the store has. -/
theorem length_range_nativeRows (store : Fjall) :
    ((nativeRows store).range [] none).length = (archiveRows store).length := by
  have whole : (nativeRows store).range [] none = (nativeRows store).toList := by
    rw [OrdMap.range, List.filter_eq_self]
    intro pair _
    have least : (compare ([] : Bytes) pair.1).isLE = true := by
      rw [Std.isLE_compare]
      exact List.nil_le _
    simp [least]
  have same : (nativeRows store).toList.Perm
      ((archiveRows store).map fun row => (row.operation.key, row.value)) := by
    have sorted := Std.ExtTreeMap.ordered_keys_toList (t := nativeRows store)
    apply (List.perm_ext_iff_of_nodup _ _).mpr
    · rintro ⟨key, value⟩
      rw [Std.ExtTreeMap.mem_toList_iff_getElem?_eq_some, nativeRows]
      have puts : (archiveRows store).map Row.operation =
          (archiveRows store).map fun row => .put row.operation.key row.value := rfl
      rw [puts, Rows.getElem?_ofPuts (nodup_operations store)]
      simp
    · apply sorted.imp
      intro a b below same
      rw [Std.compare_eq_lt, same] at below
      exact lt_irrefl _ below
    · apply List.Nodup.of_map Prod.fst
      rw [List.map_map]
      exact nodup_operations store
  rw [whole, same.length_eq, List.length_map]

/-! ## Archives of a store -/

/-- A store that the archive can carry. -/
structure Exportable (original : FjallDirectory) : Prop where
  known : original.unknown = []
  fits : ∀ row ∈ archiveRows original.store, row.Fits
  bounded : (Totals.zero.plusAll (archiveRows original.store)).Bounded

/-- The archive that an export of the store finishes, and its inventory. -/
structure Archived (original : FjallDirectory) (archive : Bytes) (inventory : MigrationInventory) : Prop where
  known : original.unknown = []
  finished : ∃ writer, ArchiveWriter.create.recordAll (archiveRows original.store) = .ok writer ∧
    writer.finish = (archive, inventory)

variable {original : FjallDirectory} {archive archive' : Bytes} {inventory inventory' : MigrationInventory}

theorem Archived.exportable (archived : Archived original archive inventory) : Exportable original := by
  obtain ⟨known, writer, recorded, -⟩ := archived
  obtain ⟨fits, bounded, -⟩ := (ArchiveWriter.recordAll_ok_iff Totals.bounded_zero).mp recorded
  exact ⟨known, fits, bounded⟩

theorem Exportable.recorded (exportable : Exportable original) :
    ∃ writer, ArchiveWriter.create.recordAll (archiveRows original.store) = .ok writer :=
  ⟨_, (ArchiveWriter.recordAll_ok_iff Totals.bounded_zero).mpr ⟨exportable.fits, exportable.bounded, rfl⟩⟩

theorem Archived.read (archived : Archived original archive inventory) :
    readArchive archive = (archiveRows original.store, .ok inventory) := by
  obtain ⟨-, writer, recorded, finished⟩ := archived
  have read := readArchive_finish recorded (fun _ member => canonical_of_mem member)
    (pairwise_archiveRows original.store)
  rwa [finished] at read

theorem Archived.unique (archived : Archived original archive inventory)
    (other : Archived original archive' inventory') : archive' = archive ∧ inventory' = inventory := by
  obtain ⟨-, writer, recorded, finished⟩ := archived
  obtain ⟨-, writer', recorded', finished'⟩ := other
  rw [recorded, Except.ok.injEq] at recorded'
  rw [← recorded', finished, Prod.mk.injEq] at finished'
  exact ⟨finished'.1.symm, finished'.2.symm⟩

/-- An inventory counts the rows. -/
theorem Archived.entries (archived : Archived original archive inventory) :
    inventory.entries = (archiveRows original.store).length := by
  obtain ⟨-, writer, recorded, finished⟩ := archived
  obtain ⟨-, -, rfl⟩ := (ArchiveWriter.recordAll_ok_iff Totals.bounded_zero).mp recorded
  have count : ∀ (totals : Totals) (rows : List Row),
      (totals.plusAll rows).entries = totals.entries + rows.length := by
    intro totals rows
    induction rows generalizing totals with
    | nil => rfl
    | cons row rest ih =>
      show ((totals.plus row).plusAll rest).entries = _
      rw [ih, List.length_cons, Totals.plus]
      dsimp only
      omega
  have same := congrArg (fun pair => pair.2.entries) finished
  dsimp only at same
  rw [← same]
  show (ArchiveWriter.create.totals.plusAll _).entries = _
  rw [count]
  exact Nat.zero_add _

end Migration

end Vyrm.Store
