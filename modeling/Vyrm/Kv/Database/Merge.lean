import Vyrm.Kv.Database.ReadSpec

/-!
# Merging and retention

What a compaction keeps. The merge of the segments is a map from keys and
sequences to values, and it exists only when no two segments disagree. Of the
merged versions those survive that some protected sequence selects, for keys
that keep at least one live version; reads at the protected sequences are the
same on what survives.
-/

namespace Vyrm.Kv
open Lib Mvcc
namespace Database

variable [Platform]

/-! ## The merge -/

/-- The value that a merged map has for a key and a sequence. -/
def Merged.at (merged : Merged) (key : Bytes) (sequence : Nat) : Option (Option Bytes) :=
  (merged[key]?.getD ∅)[sequence]?

omit [Platform] in
theorem mergeVersions_ok {versions : List VersionedValue}
    {target result : Std.TreeMap Nat (Option Bytes)}
    (h : mergeVersions versions target = .ok result) (sequence : Nat) (value : Option Bytes) :
    result[sequence]? = some value ↔
      target[sequence]? = some value ∨ ⟨sequence, value⟩ ∈ versions := by
  induction versions generalizing target with
  | nil =>
    cases h
    simp
  | cons version rest ih =>
    unfold mergeVersions at h
    cases found : target[version.sequence]? with
    | some existing =>
      simp only [found, except_bind_ok, rejectIf_ok, not_not] at h
      obtain ⟨_, rfl, h⟩ := h
      rw [ih h, List.mem_cons]
      constructor
      · rintro (old | later)
        · exact .inl old
        · exact .inr (.inr later)
      · rintro (old | rfl | later)
        · exact .inl old
        · exact .inl found
        · exact .inr later
    | none =>
      simp only [found] at h
      rw [ih h, getElem?_insert_eq, List.mem_cons]
      by_cases same : version.sequence = sequence
      · subst same
        rw [if_pos rfl, found]
        constructor
        · rintro (new | later)
          · cases new
            exact .inr (.inl rfl)
          · exact .inr (.inr later)
        · rintro (old | new | later)
          · cases old
          · exact .inl (by rw [← new])
          · exact .inr later
      · rw [if_neg same]
        constructor
        · rintro (old | later)
          · exact .inl old
          · exact .inr (.inr later)
        · rintro (old | rfl | later)
          · exact .inl old
          · exact absurd rfl same
          · exact .inr later

omit [Platform] in
theorem mergeGroups_ok {groups : List (Bytes × List VersionedValue)} {merged result : Merged}
    (h : mergeGroups groups merged = .ok result) (key : Bytes) (sequence : Nat)
    (value : Option Bytes) :
    Merged.at result key sequence = some value ↔ Merged.at merged key sequence = some value ∨
      (key, ⟨sequence, value⟩) ∈ Segment.ungroup groups := by
  induction groups generalizing merged with
  | nil =>
    cases h
    simp [Segment.ungroup]
  | cons group rest ih =>
    obtain ⟨first, versions⟩ := group
    simp only [mergeGroups, except_bind_ok] at h
    obtain ⟨target, joined, h⟩ := h
    have joined := mergeVersions_ok joined sequence value
    have members : (key, ⟨sequence, value⟩) ∈ Segment.ungroup ((first, versions) :: rest) ↔
        first = key ∧ ⟨sequence, value⟩ ∈ versions ∨
          (key, ⟨sequence, value⟩) ∈ Segment.ungroup rest := by
      simp [Segment.ungroup, and_comm]
    rw [ih h, members]
    unfold Merged.at
    rw [getElem?_insert_eq]
    by_cases same : first = key
    · subst same
      rw [if_pos rfl, Option.getD_some, joined]
      simp only [true_and, or_assoc]
    · rw [if_neg same]
      simp only [same, false_and, false_or]

theorem mergeSegments_ok {segments : List Segment} {durable : Nat} {merged result : Merged}
    (layers : Layers segments durable) (h : mergeSegments segments merged = .ok result)
    (key : Bytes) (sequence : Nat) (value : Option Bytes) :
    Merged.at result key sequence = some value ↔ Merged.at merged key sequence = some value ∨
      (key, ⟨sequence, value⟩) ∈ segments.flatMap Segment.entries := by
  induction segments generalizing merged with
  | nil =>
    cases h
    simp
  | cons segment rest ih =>
    obtain ⟨holds, layers⟩ := layers.cons
    obtain ⟨groups, traversed, inv⟩ := holds.allVersions
    simp only [mergeSegments, traversed, except_ok_bind, except_bind_ok] at h
    obtain ⟨joined, first, h⟩ := h
    rw [ih layers h, mergeGroups_ok first, inv.content, List.flatMap_cons, List.mem_append, or_assoc]

/-- The merge of all segments holds their versions, and they agree. -/
theorem mergeSegments_spec {segments : List Segment} {durable : Nat} {merged : Merged}
    (layers : Layers segments durable) (h : mergeSegments segments ∅ = .ok merged) (key : Bytes)
    (v : VersionedValue) :
    Merged.at merged key v.sequence = some v.value ↔
      (key, v) ∈ segments.flatMap Segment.entries := by
  rw [mergeSegments_ok layers h]
  simp [Merged.at]

theorem agree_of_merged {segments : List Segment} {durable : Nat} {merged : Merged}
    (layers : Layers segments durable) (h : mergeSegments segments ∅ = .ok merged) (key : Bytes) :
    Agree (versionsOf key (segments.flatMap Segment.entries)) := by
  intro u hu v hv same
  rw [mem_versionsOf, ← mergeSegments_spec layers h] at hu hv
  have same : u.sequence = v.sequence := same
  rw [same, hv, Option.some.injEq] at hu
  cases u
  cases v
  simp_all

/-! ## Selection -/

omit [Platform] in
/-- The versions of a merged key, oldest first. -/
theorem increasing_toList (versions : Std.TreeMap Nat (Option Bytes)) :
    (versions.toList.map fun version => (⟨version.1, version.2⟩ : VersionedValue)).Pairwise
      fun u v => u.sequence < v.sequence := by
  rw [List.pairwise_map]
  exact (isGraph_toList versions).sorted

omit [Platform] in
theorem newestThrough_eq_select (versions : Std.TreeMap Nat (Option Bytes)) (s : Nat) :
    (newestThrough versions s).map (fun version => (⟨version.1, version.2⟩ : VersionedValue)) =
      select s (versions.toList.map fun version => ⟨version.1, version.2⟩) := by
  rw [select_of_pairwise (increasing_toList versions), List.filter_map, List.getLast?_map]
  rfl

/-- What the merge selects for a key is what a read of the segments returns. -/
theorem newestThrough_merged {segments : List Segment} {durable : Nat} {merged : Merged}
    (layers : Layers segments durable) (h : mergeSegments segments ∅ = .ok merged) (key : Bytes)
    (s : Nat) :
    (newestThrough (merged[key]?.getD ∅) s).map (fun version => ⟨version.1, version.2⟩) =
      newest (segments.flatMap Segment.entries) key s := by
  rw [newestThrough_eq_select, newest]
  apply select_congr (agree_of_pairwise (increasing_toList _))
  intro v
  rw [mem_versionsOf, ← mergeSegments_spec layers h, List.mem_map]
  constructor
  · rintro ⟨⟨sequence, value⟩, member, rfl⟩
    exact ((isGraph_toList _).mem sequence value).mp member
  · intro found
    exact ⟨(v.sequence, v.value), ((isGraph_toList _).mem _ _).mpr found, rfl⟩

omit [Platform] in
theorem getElem?_insertMany_of_agree {versions target : Std.TreeMap Nat (Option Bytes)}
    {pairs : List (Nat × Option Bytes)}
    (agree : ∀ pair ∈ pairs, versions[pair.1]? = some pair.2) (sequence : Nat) :
    (target.insertMany pairs)[sequence]? =
      if sequence ∈ pairs.map Prod.fst then versions[sequence]? else target[sequence]? := by
  induction pairs generalizing target with
  | nil => simp
  | cons pair rest ih =>
    obtain ⟨n, value⟩ := pair
    obtain ⟨first, agree⟩ := List.forall_mem_cons.mp agree
    rw [Std.TreeMap.insertMany_cons, ih agree, getElem?_insert_eq, List.map_cons]
    by_cases later : sequence ∈ rest.map Prod.fst
    · rw [if_pos later, if_pos (List.mem_cons_of_mem _ later)]
    · rw [if_neg later]
      by_cases same : n = sequence
      · subst same
        rw [if_pos rfl, if_pos List.mem_cons_self]
        exact first.symm
      · have notIn : sequence ∉ n :: rest.map Prod.fst := by
          rw [List.mem_cons]
          rintro (rfl | member)
          · exact same rfl
          · exact later member
        rw [if_neg same, if_neg notIn]

omit [Platform] in
theorem newestThrough_mem {versions : Std.TreeMap Nat (Option Bytes)} {s : Nat}
    {pair : Nat × Option Bytes} (h : newestThrough versions s = some pair) :
    versions[pair.1]? = some pair.2 := by
  have member := (List.mem_filter.mp (List.mem_of_getLast? h)).1
  exact ((isGraph_toList versions).mem pair.1 pair.2).mp member

omit [Platform] in
/-- The selected versions of a key are those that some protected sequence reads. -/
theorem selectProtected_spec (sequences : List Nat) (versions : Std.TreeMap Nat (Option Bytes))
    (sequence : Nat) (value : Option Bytes) :
    (selectProtected sequences versions)[sequence]? = some value ↔
      ∃ s ∈ sequences, newestThrough versions s = some (sequence, value) := by
  have agree : ∀ pair ∈ sequences.filterMap (newestThrough versions),
      versions[pair.1]? = some pair.2 := by
    intro pair member
    obtain ⟨s, -, found⟩ := List.mem_filterMap.mp member
    exact newestThrough_mem found
  unfold selectProtected
  rw [Std.TreeMap.ofList_eq_insertMany_empty, getElem?_insertMany_of_agree agree]
  split
  · rename_i member
    obtain ⟨⟨n, stored⟩, inside, rfl⟩ := List.mem_map.mp member
    constructor
    · intro found
      rw [agree _ inside] at found
      cases found
      exact List.mem_filterMap.mp inside
    · rintro ⟨s, protected_, found⟩
      exact newestThrough_mem found
  · rename_i absent
    constructor
    · intro found
      simp at found
    · rintro ⟨s, protected_, found⟩
      exact absurd (List.mem_map.mpr
        ⟨(sequence, value), List.mem_filterMap.mpr ⟨s, protected_, found⟩, rfl⟩) absent

/-! ## Retention -/

/-- The versions a compaction keeps of one merged key. -/
def keptVersions (sequences : List Nat) (versions : Std.TreeMap Nat (Option Bytes)) :
    Option (List VersionedValue) :=
  let selected := selectProtected sequences versions
  if selected.toList.all (fun version => version.2.isNone) then none
  else some (selected.toList.map fun version => ⟨version.1, version.2⟩)

omit [Platform] in
theorem getElem?_retain {sequences : List Nat}
    {groups : List (Bytes × Std.TreeMap Nat (Option Bytes))} {retained : VersionMap}
    {answer : Bytes → Option (Std.TreeMap Nat (Option Bytes))} (graph : IsGraph groups answer)
    (key : Bytes) :
    (retain sequences groups retained)[key]? =
      ((answer key).bind (keptVersions sequences)).or retained[key]? := by
  induction groups generalizing retained answer with
  | nil =>
    have nothing : answer key = none := by
      cases found : answer key with
      | none => rfl
      | some versions => exact absurd ((graph.mem key versions).mpr found) List.not_mem_nil
    rw [retain, nothing]
    rfl
  | cons group rest ih =>
    obtain ⟨first, versions⟩ := group
    obtain ⟨below, sorted⟩ := List.pairwise_cons.mp graph.sorted
    have restGraph : IsGraph rest (fun k => if k = first then none else answer k) := by
      refine ⟨sorted, ?_⟩
      intro k a
      by_cases same : k = first
      · rw [if_pos same]
        constructor
        · intro member
          exact absurd (below _ member) (by rw [same]; exact lt_irrefl _)
        · intro h
          cases h
      · rw [if_neg same, ← graph.mem, List.mem_cons]
        constructor
        · exact .inr
        · rintro (h | h)
          · cases h
            exact absurd rfl same
          · exact h
    have here : answer first = some versions := (graph.mem _ _).mp List.mem_cons_self
    have step : retain sequences ((first, versions) :: rest) retained =
        retain sequences rest (match keptVersions sequences versions with
          | none => retained
          | some kept => retained.insert first kept) := by
      rw [retain, keptVersions]
      split <;> rfl
    rw [step, ih restGraph]
    by_cases same : key = first
    · subst same
      rw [if_pos rfl, here, Option.bind_none, Option.none_or, Option.bind_some]
      cases keptVersions sequences versions with
      | none => rfl
      | some kept =>
        dsimp only
        rw [getElem?_insert_eq, if_pos rfl]
        rfl
    · rw [if_neg same]
      congr 1
      cases keptVersions sequences versions with
      | none => rfl
      | some kept =>
        dsimp only
        rw [getElem?_insert_eq, if_neg (Ne.symm same)]

omit [Platform] in
theorem mem_keptVersions {sequences : List Nat} {versions : Std.TreeMap Nat (Option Bytes)}
    {v : VersionedValue} :
    v ∈ (keptVersions sequences versions).getD [] ↔
      (∃ s ∈ sequences, newestThrough versions s = some (v.sequence, v.value)) ∧
        ∃ s ∈ sequences, ∃ pair, newestThrough versions s = some pair ∧ pair.2.isSome := by
  have listed : ∀ n value, (n, value) ∈ (selectProtected sequences versions).toList ↔
      ∃ s ∈ sequences, newestThrough versions s = some (n, value) := by
    intro n value
    rw [(isGraph_toList _).mem]
    exact selectProtected_spec _ _ _ _
  unfold keptVersions
  dsimp only
  split
  · rename_i dead
    rw [List.all_eq_true] at dead
    constructor
    · intro member
      cases member
    · rintro ⟨-, s, protected_, ⟨n, value⟩, found, alive⟩
      have gone := dead (n, value) ((listed n value).mpr ⟨s, protected_, found⟩)
      dsimp only at gone alive
      rw [Option.isNone_iff_eq_none.mp gone] at alive
      cases alive
  · rename_i alive
    rw [List.all_eq_true] at alive
    push Not at alive
    obtain ⟨⟨n, value⟩, member, isLive⟩ := alive
    obtain ⟨s', protected', found'⟩ := (listed n value).mp member
    rw [Option.getD_some, List.mem_map]
    constructor
    · rintro ⟨⟨m, stored⟩, inside, rfl⟩
      exact ⟨(listed m stored).mp inside, s', protected', (n, value), found', by
        simpa [Option.isSome_iff_ne_none] using isLive⟩
    · rintro ⟨found, -⟩
      exact ⟨(v.sequence, v.value), (listed _ _).mpr found, rfl⟩

/-- What the retention loop makes of the merged segments. -/
theorem retain_spec {segments : List Segment} {durable : Nat} {merged : Merged}
    (layers : Layers segments durable) (h : mergeSegments segments ∅ = .ok merged)
    (sequences : List Nat) :
    Retains (· ∈ sequences) (fun v : VersionedValue => v.value.isSome)
      (segments.flatMap Segment.entries)
      (Memtable.flatVersions ⟨retain sequences merged.toList ∅, durable⟩) := by
  intro key v
  have stored : Memtable.versionsAt ⟨retain sequences merged.toList ∅, durable⟩ key =
      (keptVersions sequences (merged[key]?.getD ∅)).getD [] := by
    unfold Memtable.versionsAt
    dsimp only
    rw [getElem?_retain (isGraph_toList merged)]
    cases merged[key]? with
    | some versions => simp
    | none =>
      have empty : ∀ s, newestThrough (∅ : Std.TreeMap Nat (Option Bytes)) s = none := by
        intro s
        simp [newestThrough]
      have nothing : ∀ v, v ∉ (keptVersions sequences (∅ : Std.TreeMap Nat (Option Bytes))).getD [] := by
        intro v member
        obtain ⟨⟨s, -, found⟩, -⟩ := mem_keptVersions.mp member
        rw [empty] at found
        cases found
      simpa using (List.eq_nil_iff_forall_not_mem.mpr nothing).symm
  have read := newestThrough_merged layers h key
  rw [Memtable.mem_flatVersions]
  dsimp only
  rw [stored, mem_keptVersions]
  have first : ∀ s, newestThrough (merged[key]?.getD ∅) s = some (v.sequence, v.value) ↔
      newest (segments.flatMap Segment.entries) key s = some v := by
    intro s
    rw [← read s]
    cases newestThrough (merged[key]?.getD ∅) s with
    | none => simp
    | some pair =>
      obtain ⟨n, value⟩ := pair
      cases v
      simp
  have second : ∀ s, (∃ pair, newestThrough (merged[key]?.getD ∅) s = some pair ∧ pair.2.isSome) ↔
      ∃ u : VersionedValue, newest (segments.flatMap Segment.entries) key s = some u ∧ u.value.isSome := by
    intro s
    rw [← read s]
    cases newestThrough (merged[key]?.getD ∅) s with
    | none => simp
    | some pair => simp
  constructor
  · rintro ⟨⟨s, protected_, found⟩, s', protected', alive⟩
    obtain ⟨u, found', isLive⟩ := (second s').mp alive
    exact ⟨⟨s, protected_, (first s).mp found⟩, s', u, protected', found', isLive⟩
  · rintro ⟨⟨s, protected_, found⟩, s', u, protected', found', isLive⟩
    exact ⟨⟨s, protected_, (first s).mpr found⟩, s', protected', (second s').mpr ⟨u, found', isLive⟩⟩

/-! ## The compacted table -/

omit [Platform] in
theorem checkVersions_ok {maximum previous : Nat} {versions : List VersionedValue}
    (h : Memtable.checkVersions maximum previous versions = .ok ()) :
    versions.Pairwise (fun u v => u.sequence < v.sequence) ∧
      ∀ v ∈ versions, previous < v.sequence ∧ v.sequence ≤ maximum := by
  induction versions generalizing previous with
  | nil => simp
  | cons value rest ih =>
    simp only [Memtable.checkVersions, except_bind_ok, rejectIf_ok, exists_const] at h
    obtain ⟨accepted, h⟩ := h
    obtain ⟨increasing, bounds⟩ := ih h
    have first : previous < value.sequence ∧ value.sequence ≤ maximum := by omega
    refine ⟨List.pairwise_cons.mpr ⟨fun v member => (bounds v member).1, increasing⟩, ?_⟩
    intro v member
    rcases List.mem_cons.mp member with rfl | later
    · exact first
    · have := bounds v later
      omega

omit [Platform] in
theorem checkGroups_ok {maximum : Nat} {groups : List (Bytes × List VersionedValue)}
    (h : Memtable.checkGroups maximum groups = .ok ()) :
    ∀ group ∈ groups, group.1 ≠ [] ∧ group.2 ≠ [] ∧
      group.2.Pairwise (fun u v => u.sequence < v.sequence) ∧
      ∀ v ∈ group.2, 0 < v.sequence ∧ v.sequence ≤ maximum := by
  induction groups with
  | nil => simp
  | cons group rest ih =>
    obtain ⟨key, values⟩ := group
    simp only [Memtable.checkGroups, except_bind_ok, rejectIf_ok, exists_const, not_or] at h
    obtain ⟨⟨nonempty, some_⟩, ⟨⟩, checked, h⟩ := h
    intro group member
    rcases List.mem_cons.mp member with rfl | later
    · exact ⟨nonempty, some_, checkVersions_ok checked⟩
    · exact ih h group later

omit [Platform] in
/-- A memtable that `from_versions` accepts. -/
theorem over_of_fromVersions {versions : VersionMap} {maximum : Nat} {table : Memtable}
    (h : Memtable.fromVersions versions maximum = .ok table) :
    table = ⟨versions, maximum⟩ ∧ table.Over 0 := by
  simp only [Memtable.fromVersions, except_bind_ok, except_pure, Except.ok.injEq] at h
  obtain ⟨⟨⟩, checked, rfl⟩ := h
  have each : ∀ (key : Bytes) stored, versions[key]? = some stored → key ≠ [] ∧ stored ≠ [] ∧
      stored.Pairwise (fun u v => u.sequence < v.sequence) ∧
      ∀ v ∈ stored, 0 < v.sequence ∧ v.sequence ≤ maximum := fun key stored found =>
    checkGroups_ok checked (key, stored) (((isGraph_toList versions).mem _ _).mpr found)
  have at_ : ∀ key, (Memtable.versionsAt ⟨versions, maximum⟩ key).Pairwise
      (fun u v => u.sequence < v.sequence) ∧
      ∀ v ∈ Memtable.versionsAt ⟨versions, maximum⟩ key, 0 < v.sequence ∧ v.sequence ≤ maximum := by
    intro key
    unfold Memtable.versionsAt
    dsimp only
    cases found : versions[key]? with
    | none => simp
    | some stored => exact (each key stored found).2.2
  exact ⟨rfl,
    { nonempty := fun key stored found => (each key stored found).2.1
      keyNonempty := fun key stored found => (each key stored found).1
      increasing := fun key => (at_ key).1
      newer := fun key v member => ((at_ key).2 v member).1
      bounded := fun key v member => ((at_ key).2 v member).2
      durable_le := Nat.zero_le _ }⟩

omit [Platform] in
theorem mem_protectedSequences {snapshots : List Snapshot} {durable s : Nat} :
    s ∈ protectedSequences snapshots durable ↔
      s = durable ∨ s ≤ durable ∧ ⟨s⟩ ∈ snapshots := by
  unfold protectedSequences
  rw [Std.TreeSet.mem_toList, Std.TreeSet.mem_ofList]
  simp only [List.contains_iff_mem, List.mem_append, List.mem_filter, List.mem_map,
    List.mem_singleton, decide_eq_true_eq]
  constructor
  · rintro (⟨⟨⟨s⟩, member, rfl⟩, below⟩ | rfl)
    · exact .inr ⟨below, member⟩
    · exact .inl rfl
  · rintro (rfl | ⟨below, member⟩)
    · exact .inr rfl
    · exact .inl ⟨⟨⟨s⟩, member, rfl⟩, below⟩

end Database
end Vyrm.Kv
