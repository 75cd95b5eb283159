import Vyrm.Kv.Segment.ReadPaths
import Vyrm.Kv.Wal.Frames

/-!
# What a memtable holds

The versions of a memtable as a list of entries in canonical order, its reads in
terms of that list, and the numbering of operations that connects a memtable to
the batches it was filled from.
-/

namespace Vyrm.Kv
open Lib Mvcc

/-- The entries that a list of operations makes when they are numbered from `first`. -/
def numbered : Nat → List Mutation → List Entry
  | _, [] => []
  | first, operation :: rest =>
    (operation.key, ⟨first, operation.value⟩) :: numbered (first + 1) rest

theorem numbered_append (first : Nat) (xs ys : List Mutation) :
    numbered first (xs ++ ys) = numbered first xs ++ numbered (first + xs.length) ys := by
  induction xs generalizing first with
  | nil => rfl
  | cons x xs ih =>
    rw [List.cons_append, numbered, ih, numbered, List.cons_append, List.length_cons]
    have shift : first + 1 + xs.length = first + (xs.length + 1) := by omega
    rw [shift]

@[simp] theorem length_numbered (first : Nat) (operations : List Mutation) :
    (numbered first operations).length = operations.length := by
  induction operations generalizing first with
  | nil => rfl
  | cons _ _ ih => rw [numbered, List.length_cons, ih, List.length_cons]

theorem numbered_bounds {first : Nat} {operations : List Mutation} {e : Entry}
    (member : e ∈ numbered first operations) :
    first ≤ e.2.sequence ∧ e.2.sequence < first + operations.length := by
  induction operations generalizing first with
  | nil => cases member
  | cons operation rest ih =>
    rw [List.length_cons]
    rcases List.mem_cons.mp member with rfl | later
    · exact ⟨Nat.le_refl _, by dsimp only; omega⟩
    · have bounds := ih later
      exact ⟨by omega, by omega⟩

theorem numbered_increasing (first : Nat) (operations : List Mutation) (key : Bytes) :
    (versionsOf key (numbered first operations)).Pairwise fun u v => u.sequence < v.sequence := by
  induction operations generalizing first with
  | nil => exact List.Pairwise.nil
  | cons operation rest ih =>
    have later : ∀ v ∈ versionsOf key (numbered (first + 1) rest), first < v.sequence := by
      intro v member
      exact (numbered_bounds (mem_versionsOf.mp member)).1
    by_cases same : operation.key = key
    · have split : versionsOf key (numbered first (operation :: rest)) =
          ⟨first, operation.value⟩ :: versionsOf key (numbered (first + 1) rest) := by
        simp [versionsOf, numbered, same]
      rw [split]
      exact List.pairwise_cons.mpr ⟨later, ih _⟩
    · have split : versionsOf key (numbered first (operation :: rest)) =
          versionsOf key (numbered (first + 1) rest) := by
        simp [versionsOf, numbered, same]
      rw [split]
      exact ih _

namespace Memtable

/-- The versions a memtable keeps for a key. -/
def versionsAt (table : Memtable) (key : Bytes) : List VersionedValue := table.versions[key]?.getD []

/-- A memtable over a durable sequence: version lists are not empty, strictly increasing, newer
than the durable sequence and not newer than the table. -/
structure Over (table : Memtable) (durable : Nat) : Prop where
  nonempty : ∀ (key : Bytes) versions, table.versions[key]? = some versions → versions ≠ []
  keyNonempty : ∀ (key : Bytes) versions, table.versions[key]? = some versions → key ≠ []
  increasing : ∀ key, (table.versionsAt key).Pairwise fun u v => u.sequence < v.sequence
  newer : ∀ key, ∀ v ∈ table.versionsAt key, durable < v.sequence
  bounded : ∀ key, ∀ v ∈ table.versionsAt key, v.sequence ≤ table.maximumSequence
  durable_le : durable ≤ table.maximumSequence

variable {table : Memtable} {durable : Nat}

theorem over_atSequence (sequence : Nat) : (atSequence sequence).Over sequence :=
  { nonempty := by simp [atSequence]
    keyNonempty := by simp [atSequence]
    increasing := by simp [atSequence, versionsAt]
    newer := by simp [atSequence, versionsAt]
    bounded := by simp [atSequence, versionsAt]
    durable_le := Nat.le_refl _ }

/-! ## The versions as entries -/

theorem mem_flatVersions {e : Entry} :
    e ∈ table.flatVersions ↔ e.2 ∈ table.versionsAt e.1 := by
  unfold flatVersions allVersions versionsAt
  simp only [List.mem_flatMap, List.mem_map, Prod.exists]
  constructor
  · rintro ⟨key, versions, listed, version, member, rfl⟩
    rw [Std.TreeMap.mem_toList_iff_getElem?_eq_some] at listed
    rw [listed]
    exact member
  · intro member
    cases stored : table.versions[e.1]? with
    | none =>
      rw [stored] at member
      cases member
    | some versions =>
      rw [stored] at member
      exact ⟨e.1, versions, Std.TreeMap.mem_toList_iff_getElem?_eq_some.mpr stored, e.2, member, rfl⟩

theorem versionsOf_map_pair (key other : Bytes) (versions : List VersionedValue) :
    versionsOf key (versions.map fun version => (other, version)) =
      if other = key then versions else [] := by
  by_cases same : other = key
  · simp [versionsOf, same, List.filter_map, Function.comp_def]
  · simp [versionsOf, same, List.filter_map, Function.comp_def]

/-- The versions of a key in a list of groups with distinct keys. -/
theorem versionsOf_groups {groups : List (Bytes × List VersionedValue)} {key : Bytes}
    {answer : Bytes → Option (List VersionedValue)} (graph : IsGraph groups answer) :
    versionsOf key (groups.flatMap fun (k, versions) => versions.map fun v => (k, v)) =
      (answer key).getD [] := by
  have inGroups : ∀ groups : List (Bytes × List VersionedValue),
      groups.Pairwise (fun a b => a.1 < b.1) →
      (∀ versions, (key, versions) ∈ groups →
        versionsOf key (groups.flatMap fun (k, versions) => versions.map fun v => (k, v)) =
          versions) ∧
      ((∀ versions, (key, versions) ∉ groups) →
        versionsOf key (groups.flatMap fun (k, versions) => versions.map fun v => (k, v)) = []) := by
    intro groups sorted
    induction groups with
    | nil => exact ⟨fun _ h => (List.not_mem_nil h).elim, fun _ => rfl⟩
    | cons group rest ih =>
      obtain ⟨k, stored⟩ := group
      obtain ⟨before, sorted⟩ := List.pairwise_cons.mp sorted
      obtain ⟨present, absent⟩ := ih sorted
      rw [List.flatMap_cons, versionsOf_append, versionsOf_map_pair]
      constructor
      · intro versions member
        rcases List.mem_cons.mp member with first | later
        · cases first
          have missing : ∀ versions, (key, versions) ∉ rest := fun _ h =>
            absurd (before _ h) (lt_irrefl _)
          rw [absent missing, if_pos rfl, List.append_nil]
        · rw [present versions later, if_neg (ne_of_lt (before _ later)), List.nil_append]
      · intro missing
        have different : k ≠ key := by
          rintro rfl
          exact missing stored List.mem_cons_self
        rw [absent fun versions h => missing versions (List.mem_cons_of_mem _ h), if_neg different]
        rfl
  obtain ⟨present, absent⟩ := inGroups groups graph.sorted
  cases stored : answer key with
  | none => exact absent fun versions h => by rw [(graph.mem key versions).mp h] at stored; cases stored
  | some versions => exact present versions ((graph.mem key versions).mpr stored)

/-- The versions of a key among the entries are the stored list. -/
theorem versionsOf_flatVersions (table : Memtable) (key : Bytes) :
    versionsOf key table.flatVersions = table.versionsAt key :=
  versionsOf_groups (isGraph_toList table.versions)

theorem values_eq_map_toList {β : Type} (t : Std.TreeMap Bytes β) :
    t.values = t.toList.map Prod.snd := by
  change t.foldr (fun _ v l => v :: l) [] = _
  rw [Std.TreeMap.foldr_eq_foldr_toList]
  induction t.toList with
  | nil => rfl
  | cons pair rest ih => rw [List.foldr_cons, ih, List.map_cons]

theorem length_flatVersions (table : Memtable) : table.flatVersions.length = table.versionCount := by
  unfold flatVersions versionCount allVersions
  rw [List.length_flatMap, values_eq_map_toList, List.map_map]
  congr 1
  apply List.map_congr_left
  rintro ⟨key, versions⟩ -
  simp

theorem flatVersions_eq_nil_iff (table : Memtable) :
    table.flatVersions = [] ↔ table.versionCount = 0 := by
  rw [← length_flatVersions, List.length_eq_zero_iff]

/-- The entries are in canonical order. -/
theorem Over.sorted (isOver : table.Over durable) : table.flatVersions.Pairwise Entry.Before := by
  have inGroups : ∀ groups : List (Bytes × List VersionedValue),
      groups.Pairwise (fun a b => a.1 < b.1) →
      (∀ group ∈ groups, group.2.Pairwise fun u v => u.sequence < v.sequence) →
      (groups.flatMap fun (k, versions) => versions.map fun v => (k, v)).Pairwise Entry.Before := by
    intro groups sorted increasing
    induction groups with
    | nil => exact List.Pairwise.nil
    | cons group rest ih =>
      obtain ⟨k, stored⟩ := group
      obtain ⟨before, sorted⟩ := List.pairwise_cons.mp sorted
      rw [List.flatMap_cons]
      apply List.pairwise_append.mpr
      refine ⟨?_, ih sorted fun g h => increasing g (List.mem_cons_of_mem _ h), ?_⟩
      · exact List.pairwise_map.mpr
          ((increasing (k, stored) List.mem_cons_self).imp fun less => .inr ⟨rfl, less⟩)
      · intro a inFirst b later
        obtain ⟨v, -, rfl⟩ := List.mem_map.mp inFirst
        obtain ⟨⟨k', versions⟩, member, inGroup⟩ := List.mem_flatMap.mp later
        obtain ⟨u, -, rfl⟩ := List.mem_map.mp inGroup
        exact .inl (before _ member)
  apply inGroups _ (isGraph_toList table.versions).sorted
  rintro ⟨key, versions⟩ member
  have stored := Std.TreeMap.mem_toList_iff_getElem?_eq_some.mp member
  have increasing := isOver.increasing key
  rw [versionsAt, stored] at increasing
  exact increasing

theorem Over.entry_bounds (isOver : table.Over durable) {e : Entry}
    (member : e ∈ table.flatVersions) :
    durable < e.2.sequence ∧ e.2.sequence ≤ table.maximumSequence :=
  ⟨isOver.newer e.1 e.2 (mem_flatVersions.mp member),
    isOver.bounded e.1 e.2 (mem_flatVersions.mp member)⟩

/-! ## Reads -/

theorem findVisible_eq_select {versions : List VersionedValue} (s : Nat)
    (increasing : versions.Pairwise fun u v => u.sequence < v.sequence) :
    findVisible versions s = select s versions := by
  rw [select_of_pairwise increasing, findVisible, ← List.head?_filter,
    List.filter_reverse, List.head?_reverse]
  rfl

/-- The point read of a memtable. -/
theorem Over.getVersion (isOver : table.Over durable) (key : Bytes) (s : Nat) :
    table.getVersion key s = newest table.flatVersions key s := by
  rw [newest, versionsOf_flatVersions, Memtable.getVersion]
  have increasing := isOver.increasing key
  unfold versionsAt at increasing ⊢
  cases stored : table.versions[key]? with
  | none => rfl
  | some versions =>
    rw [stored] at increasing
    exact findVisible_eq_select s increasing

/-- The traversal of the visible versions. -/
theorem Over.visibleVersions (isOver : table.Over durable) (s : Nat) :
    IsGraph (table.visibleVersions s) (newest table.flatVersions · s) := by
  have graph := (isGraph_toList table.versions).filterMap (findVisible · s)
  have answers : (fun k => (table.versions[k]?).bind (findVisible · s)) =
      (newest table.flatVersions · s) := by
    funext k
    exact isOver.getVersion k s
  rw [answers] at graph
  exact graph

/-! ## Filling a memtable -/

theorem getElem?_pushVersion (versions : VersionMap) (key other : Bytes) (version : VersionedValue) :
    (pushVersion versions key version)[other]? =
      if key = other then some (versions[other]?.getD [] ++ [version]) else versions[other]? := by
  unfold pushVersion
  rw [Std.TreeMap.getElem?_alter]
  simp only [compare_eq_iff']
  split
  · rename_i same
    rw [same]
  · rfl

/-- The loop over the operations of a batch appends their versions, key by key. -/
theorem getElem?_pushOperations (versions : VersionMap) (first : Nat) (operations : List Mutation)
    (key : Bytes) :
    (pushOperations versions first operations)[key]?.getD [] =
      versions[key]?.getD [] ++ versionsOf key (numbered first operations) := by
  induction operations generalizing versions first with
  | nil => simp [pushOperations, numbered, versionsOf]
  | cons operation rest ih =>
    rw [pushOperations, ih, getElem?_pushVersion]
    by_cases same : operation.key = key
    · simp [numbered, versionsOf, same]
    · simp [numbered, versionsOf, same]

theorem pushOperations_nonempty {versions : VersionMap} {first : Nat} {operations : List Mutation}
    (nonempty : ∀ (key : Bytes) stored, versions[key]? = some stored → stored ≠ []) :
    ∀ (key : Bytes) stored, (pushOperations versions first operations)[key]? = some stored → stored ≠ [] := by
  induction operations generalizing versions first with
  | nil => exact nonempty
  | cons operation rest ih =>
    apply ih
    intro key stored found
    rw [getElem?_pushVersion] at found
    split at found
    · cases found
      simp
    · exact nonempty key stored found

theorem pushOperations_keyNonempty {versions : VersionMap} {first : Nat}
    {operations : List Mutation} (valid : ∀ m ∈ operations, m.key ≠ [])
    (nonempty : ∀ (key : Bytes) stored, versions[key]? = some stored → key ≠ []) :
    ∀ (key : Bytes) stored, (pushOperations versions first operations)[key]? = some stored → key ≠ [] := by
  induction operations generalizing versions first with
  | nil => exact nonempty
  | cons operation rest ih =>
    apply ih (fun m h => valid m (List.mem_cons_of_mem _ h))
    intro key stored found
    rw [getElem?_pushVersion] at found
    split at found
    · rename_i same
      rw [← same]
      exact valid operation List.mem_cons_self
    · exact nonempty key stored found

theorem pushOperations_append (versions : VersionMap) (first : Nat) (xs ys : List Mutation) :
    pushOperations versions first (xs ++ ys) =
      pushOperations (pushOperations versions first xs) (first + xs.length) ys := by
  induction xs generalizing versions first with
  | nil => rfl
  | cons x xs ih =>
    rw [List.cons_append, pushOperations, ih, pushOperations, List.length_cons]
    have shift : first + 1 + xs.length = first + (xs.length + 1) := by omega
    rw [shift]

/-- The memtable that holds `operations` above a durable sequence. -/
def holding (durable : Nat) (operations : List Mutation) : Memtable :=
  ⟨pushOperations ∅ (durable + 1) operations, durable + operations.length⟩

@[simp] theorem holding_nil (durable : Nat) : holding durable [] = atSequence durable := rfl

theorem versionsAt_holding (durable : Nat) (operations : List Mutation) (key : Bytes) :
    (holding durable operations).versionsAt key =
      versionsOf key (numbered (durable + 1) operations) := by
  rw [versionsAt, holding, getElem?_pushOperations]
  simp

theorem newest_holding (durable : Nat) (operations : List Mutation) (key : Bytes) (s : Nat) :
    newest (holding durable operations).flatVersions key s =
      newest (numbered (durable + 1) operations) key s := by
  rw [newest, versionsOf_flatVersions, versionsAt_holding, newest]

theorem over_holding (durable : Nat) {operations : List Mutation}
    (valid : ∀ m ∈ operations, m.key ≠ []) : (holding durable operations).Over durable := by
  have bounds : ∀ key, ∀ v ∈ (holding durable operations).versionsAt key,
      durable + 1 ≤ v.sequence ∧ v.sequence < durable + 1 + operations.length := by
    intro key v member
    rw [versionsAt_holding] at member
    exact numbered_bounds (mem_versionsOf.mp member)
  refine ⟨?_, ?_, ?_, ?_, ?_, ?_⟩
  · exact pushOperations_nonempty (by simp)
  · exact pushOperations_keyNonempty valid (by simp)
  · intro key
    rw [versionsAt_holding]
    exact numbered_increasing _ _ _
  · intro key v member
    exact (bounds key v member).1
  · intro key v member
    have := (bounds key v member).2
    rw [holding]
    dsimp only
    omega
  · rw [holding]
    dsimp only
    omega

theorem versionCount_holding_eq_zero {durable : Nat} {operations : List Mutation} :
    (holding durable operations).versionCount = 0 ↔ operations = [] := by
  constructor
  · intro none
    cases operations with
    | nil => rfl
    | cons operation rest =>
      rw [← flatVersions_eq_nil_iff] at none
      have present : (⟨durable + 1, operation.value⟩ : VersionedValue) ∈
          (holding durable (operation :: rest)).versionsAt operation.key := by
        rw [versionsAt_holding, mem_versionsOf]
        exact List.mem_cons_self
      have listed := mem_flatVersions (e := (operation.key, ⟨durable + 1, operation.value⟩)).mpr
        present
      rw [none] at listed
      cases listed
  · rintro rfl
    rfl

/-- Applying a batch in sequence. -/
theorem applyWriteBatch_holding {durable : Nat} {operations : List Mutation} {batch : WriteBatch}
    (nonempty : batch.operations ≠ [])
    (room : durable + operations.length + batch.operations.length < u64Max) :
    (holding durable operations).applyWriteBatch batch (durable + operations.length + 1)
      (durable + operations.length + batch.operations.length) =
      .ok (holding durable (operations ++ batch.operations)) := by
  have positive : 0 < batch.operations.length := List.length_pos_iff.mpr nonempty
  have last : durable + operations.length + 1 + (batch.operations.length - 1) =
      durable + operations.length + batch.operations.length := by omega
  have bounded : durable + operations.length + 1 + (batch.operations.length - 1) ≤ u64Max := by
    omega
  have next : saturatingAdd (holding durable operations).maximumSequence 1 =
      durable + operations.length + 1 := by
    exact saturatingAdd_of_lt (by change durable + operations.length < u64Max; omega)
  have accepted : ¬ (durable + operations.length + 1 ≠
      saturatingAdd (holding durable operations).maximumSequence 1 ∨
      durable + operations.length + batch.operations.length ≠
        durable + operations.length + 1 + (batch.operations.length - 1)) := by
    rw [next, last]
    simp
  unfold applyWriteBatch checkedAdd
  rw [if_pos bounded, except_ok_bind, rejectIf_of_not accepted, except_ok_bind]
  unfold holding
  rw [pushOperations_append, List.length_append]
  have shift : durable + 1 + operations.length = durable + operations.length + 1 := by omega
  have total : durable + (operations.length + batch.operations.length) =
      durable + operations.length + batch.operations.length := by omega
  rw [shift, total]
  rfl

end Memtable
end Vyrm.Kv
