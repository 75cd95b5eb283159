import Vyrm.Lib.OrdMap

/-!
# Differences of maps

What was removed, added and changed between two maps, and the map that comes of applying that to the
first one. The three parts are about different keys, so the order in which they are applied does not
matter.
-/

namespace Vyrm.Lib.OrdMap
open Std

variable {κ α : Type} [Ord κ] [TransOrd κ] [LawfulEqOrd κ] {key : α → κ} {before after : OrdMap κ α}

/-- The values of the second map under keys that the first one lacks. -/
def missing (before after : OrdMap κ α) : List α :=
  (after.toList.filter fun entry => entry.1 ∉ before).map Prod.snd

theorem mem_missing {before after : OrdMap κ α} {a : α} :
    a ∈ missing before after ↔ ∃ k : κ, before[k]? = none ∧ after[k]? = some a := by
  have absent : ∀ k : κ, k ∉ before ↔ before[k]? = none := by
    intro k
    rw [ExtTreeMap.mem_iff_isSome_getElem?, Bool.not_eq_true, Option.isSome_eq_false_iff, Option.isNone_iff_eq_none]
  simp only [missing, List.mem_map, List.mem_filter, Prod.exists, exists_eq_right,
    ExtTreeMap.mem_toList_iff_getElem?_eq_some, decide_eq_true_eq, absent]
  exact exists_congr fun _ => and_comm

/-- What was removed is gone. -/
theorem mem_map_missing (indexed : Indexed key before) (k : κ) :
    k ∈ (missing after before).map key ↔ after[k]? = none ∧ before[k]? ≠ none := by
  rw [List.mem_map]
  constructor
  · rintro ⟨a, member, rfl⟩
    obtain ⟨k, late, early⟩ := mem_missing.mp member
    obtain rfl := indexed k a early
    exact ⟨late, by simp [early]⟩
  · rintro ⟨late, present⟩
    obtain ⟨a, early⟩ := Option.ne_none_iff_exists'.mp present
    exact ⟨a, mem_missing.mpr ⟨k, late, early⟩, indexed k a early⟩

/-- What was removed and what was added is under different keys. -/
theorem disjoint_missing (first : Indexed key before) (second : Indexed key after) :
    ((missing after before).map key).Disjoint ((missing before after).map key) := by
  intro k removed added
  exact ((mem_map_missing second k).mp added).2 ((mem_map_missing first k).mp removed).1

/-- The last of a list whose members are what an option holds. -/
theorem getLast?_of_only {items : List α} {found : Option α} (only : ∀ a, a ∈ items ↔ found = some a) :
    items.getLast? = found := by
  cases found with
  | none =>
    have empty : items = [] := List.eq_nil_iff_forall_not_mem.mpr fun a member => by cases (only a).mp member
    rw [empty]
    rfl
  | some a =>
    have member := (only a).mpr rfl
    cases last : items.getLast? with
    | none => rw [List.getLast?_eq_none_iff.mp last] at member; cases member
    | some b => exact ((only b).mp (List.mem_of_getLast? last)).symm

section

variable [DecidableEq α]

/-- The values of both maps under a key where they differ. -/
def changed (before after : OrdMap κ α) : List (α × α) :=
  after.toList.filterMap fun entry =>
    before[entry.1]?.bind fun old => if old ≠ entry.2 then some (old, entry.2) else none

theorem mem_changed {before after : OrdMap κ α} {old new : α} :
    (old, new) ∈ changed before after ↔ ∃ k : κ, before[k]? = some old ∧ after[k]? = some new ∧ old ≠ new := by
  simp only [changed, List.mem_filterMap, Prod.exists, ExtTreeMap.mem_toList_iff_getElem?_eq_some,
    Option.bind_eq_some_iff]
  constructor
  · rintro ⟨k, a, late, b, early, same⟩
    by_cases differs : b ≠ a
    · rw [if_pos differs] at same
      obtain ⟨rfl, rfl⟩ := Prod.mk.inj (Option.some.inj same)
      exact ⟨k, early, late, differs⟩
    · rw [if_neg differs] at same
      cases same
  · rintro ⟨k, early, late, differs⟩
    exact ⟨k, new, late, old, early, if_pos differs⟩

/-- What changed is under keys of both maps. -/
theorem disjoint_changed (first : Indexed key before) (second : Indexed key after) :
    ((missing after before).map key).Disjoint ((changed before after).map fun pair => key pair.2) ∧
      ((missing before after).map key).Disjoint ((changed before after).map fun pair => key pair.2) := by
  have both : ∀ k, k ∈ (changed before after).map (fun pair => key pair.2) → before[k]? ≠ none ∧ after[k]? ≠ none := by
    intro k member
    obtain ⟨⟨old, new⟩, listed, rfl⟩ := List.mem_map.mp member
    obtain ⟨k, early, late, -⟩ := mem_changed.mp listed
    obtain rfl := second k new late
    exact ⟨by simp [early], by simp [late]⟩
  constructor
  · intro k removed changes
    exact (both k changes).2 ((mem_map_missing first k).mp removed).1
  · intro k added changes
    exact (both k changes).1 ((mem_map_missing second k).mp added).1

/-- Nothing was removed, added or changed exactly when the maps are the same. -/
theorem delta_eq_nil_iff : missing after before = [] ∧ missing before after = [] ∧ changed before after = [] ↔
    before = after := by
  constructor
  · rintro ⟨removed, added, changes⟩
    apply ExtTreeMap.ext_getElem?
    intro k
    cases early : before[k]? with
    | none =>
      cases late : after[k]? with
      | none => rfl
      | some a =>
        have member := mem_missing.mpr ⟨k, early, late⟩
        rw [added] at member
        cases member
    | some old =>
      cases late : after[k]? with
      | none =>
        have member := mem_missing.mpr ⟨k, late, early⟩
        rw [removed] at member
        cases member
      | some new =>
        by_cases same : old = new
        · rw [same]
        · have member := mem_changed.mpr ⟨k, early, late, same⟩
          rw [changes] at member
          cases member
  · rintro rfl
    refine ⟨List.eq_nil_iff_forall_not_mem.mpr fun a member => ?_, List.eq_nil_iff_forall_not_mem.mpr fun a member => ?_,
      List.eq_nil_iff_forall_not_mem.mpr fun a member => ?_⟩
    · obtain ⟨k, none_, some_⟩ := mem_missing.mp member
      rw [none_] at some_
      cases some_
    · obtain ⟨k, none_, some_⟩ := mem_missing.mp member
      rw [none_] at some_
      cases some_
    · obtain ⟨k, early, late, differs⟩ := mem_changed.mp (show (a.1, a.2) ∈ _ from member)
      rw [early] at late
      exact differs (Option.some.inj late)

variable [DecidableEq κ]

/-- A map without the values of a list, and then with those of two more. -/
def patch (key : α → κ) (before : OrdMap κ α) (removed added changed : List α) : OrdMap κ α :=
  insertAll key (insertAll key (before.filter fun k _ => k ∉ removed.map key) added) changed

omit [DecidableEq α] in
/-- What was added under a key. -/
theorem getLast?_missing (indexed : Indexed key after) (k : κ) :
    ((missing before after).filter fun a => key a = k).getLast? = if before[k]? = none then after[k]? else none := by
  apply getLast?_of_only
  intro a
  rw [List.mem_filter, mem_missing, decide_eq_true_eq]
  constructor
  · rintro ⟨⟨k', early, late⟩, rfl⟩
    obtain rfl := indexed k' a late
    rw [if_pos early, late]
  · intro found
    by_cases early : before[k]? = none
    · rw [if_pos early] at found
      exact ⟨⟨k, early, found⟩, indexed k a found⟩
    · rw [if_neg early] at found
      cases found

/-- What was changed under a key. -/
theorem getLast?_changed (indexed : Indexed key after) (k : κ) :
    (((changed before after).map Prod.snd).filter fun a => key a = k).getLast? =
      if before[k]? = none ∨ before[k]? = after[k]? then none else after[k]? := by
  apply getLast?_of_only
  intro a
  rw [List.mem_filter, List.mem_map, decide_eq_true_eq]
  constructor
  · rintro ⟨⟨⟨old, new⟩, member, rfl⟩, rfl⟩
    obtain ⟨k', early, late, differs⟩ := mem_changed.mp member
    obtain rfl := indexed k' new late
    rw [early, late, if_neg]
    simpa using differs
  · intro found
    by_cases same : before[k]? = none ∨ before[k]? = after[k]?
    · rw [if_pos same] at found
      cases found
    · rw [if_neg same] at found
      obtain ⟨present, differs⟩ := not_or.mp same
      obtain ⟨old, early⟩ := Option.ne_none_iff_exists'.mp present
      rw [early, found] at differs
      exact ⟨⟨(old, a), mem_changed.mpr ⟨k, early, found, fun same => differs (same ▸ rfl)⟩, rfl⟩, indexed k a found⟩

/-- The difference leads from one map to the other. -/
theorem patch_eq (first : Indexed key before) (second : Indexed key after) :
    patch key before (missing after before) (missing before after) ((changed before after).map Prod.snd) = after := by
  apply ExtTreeMap.ext_getElem?
  intro k
  rw [patch, getElem?_insertAll, getElem?_insertAll, getLast?_changed second, getLast?_missing second,
    ExtTreeMap.getElem?_filter']
  have gone : k ∈ (missing after before).map key ↔ after[k]? = none ∧ before[k]? ≠ none := mem_map_missing first k
  cases early : before[k]? with
  | none =>
    rw [early] at gone
    cases after[k]? with
    | none => simp
    | some a => simp
  | some old =>
    rw [early] at gone
    cases late : after[k]? with
    | none =>
      rw [late] at gone
      simp [Option.filter, gone.mpr ⟨rfl, by simp⟩]
    | some a =>
      rw [late] at gone
      have kept : k ∉ (missing after before).map key := fun member => by cases (gone.mp member).1
      by_cases same : old = a
      · simp [Option.filter, kept, same]
      · simp [same]

end

end Vyrm.Lib.OrdMap
