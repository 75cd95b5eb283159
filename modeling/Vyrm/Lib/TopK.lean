import Mathlib.Data.List.Count
import Mathlib.Data.List.Pairwise
import Mathlib.Data.List.Sort
import Mathlib.Data.List.Perm.Basic

/-!
# The best of a list

Results that are sorted and cut off. Where the order tells the items apart, the sorted list is the
same for every order of the input, and items that are added change what is kept exactly when one of
them is among the first. Of a sorted list the last item that passes a test is the greatest that does.
-/

namespace Vyrm.Lib

section Comparison

variable {α : Type} {cmp : α → α → Ordering} [Std.TransCmp cmp]

/-- Of two items one is not after the other. -/
theorem total_of_cmp : Std.Total fun a b => cmp a b ≠ .gt where
  total a b := by
    have swap : cmp b a = (cmp a b).swap := Std.OrientedCmp.eq_swap
    by_cases after : cmp a b = .gt
    · refine .inr ?_
      rw [swap, after]
      decide
    · exact .inl after

theorem isTrans_of_cmp : IsTrans α fun a b => cmp a b ≠ .gt where
  trans _ _ _ first second := Ordering.isLE_iff_ne_gt.mp
    (Std.TransCmp.isLE_trans (Ordering.isLE_iff_ne_gt.mpr first) (Ordering.isLE_iff_ne_gt.mpr second))

/-- Two items neither of which is after the other compare equal. -/
theorem eq_of_not_after {a b : α} (first : cmp a b ≠ .gt) (second : cmp b a ≠ .gt) : cmp a b = .eq := by
  have swap : cmp b a = (cmp a b).swap := Std.OrientedCmp.eq_swap
  rw [swap] at second
  cases compared : cmp a b with
  | lt =>
    rw [compared] at second
    exact absurd rfl second
  | eq => rfl
  | gt => exact absurd compared first

end Comparison

variable {α : Type}

section Sorted

variable (r : α → α → Prop) [DecidableRel r]

/-- The order tells the items of a list apart. -/
def Separates (items : List α) : Prop := ∀ a ∈ items, ∀ b ∈ items, r a b → r b a → a = b

variable {r}

omit [DecidableRel r] in
theorem Separates.of_subset {items some : List α} (separates : Separates r items) (subset : some ⊆ items) :
    Separates r some :=
  fun a ha b hb => separates a (subset ha) b (subset hb)

variable [Std.Total r] [IsTrans α r]

theorem insertionSort_congr {items other : List α} (separates : Separates r items) (perm : items.Perm other) :
    items.insertionSort r = other.insertionSort r := by
  have same : (items.insertionSort r).Perm (other.insertionSort r) :=
    ((List.perm_insertionSort r items).trans perm).trans (List.perm_insertionSort r other).symm
  refine same.eq_of_pairwise ?_ (List.pairwise_insertionSort r items) (List.pairwise_insertionSort r other)
  intro a b left right
  exact separates a ((List.mem_insertionSort r).mp left) b (perm.mem_iff.mpr ((List.mem_insertionSort r).mp right))

/-- Some items, sorted, come in the order of all items. -/
theorem insertionSort_sublist {items few : List α} (separates : Separates r items) (nodup : items.Nodup)
    (fewNodup : few.Nodup) (subset : few ⊆ items) : (few.insertionSort r).Sublist (items.insertionSort r) := by
  classical
  have once : (items.insertionSort r).Nodup := (List.perm_insertionSort r items).nodup_iff.mpr nodup
  have kept : ((items.insertionSort r).filter (· ∈ few)).Perm few := by
    rw [List.perm_ext_iff_of_nodup (once.filter _) fewNodup]
    intro a
    rw [List.mem_filter, List.mem_insertionSort, decide_eq_true_iff]
    exact ⟨fun both => both.2, fun listed => ⟨subset listed, listed⟩⟩
  have same : few.insertionSort r = (items.insertionSort r).filter (· ∈ few) := by
    refine ((List.perm_insertionSort r few).trans kept.symm).eq_of_pairwise ?_ (List.pairwise_insertionSort r few)
      ((List.pairwise_insertionSort r items).sublist List.filter_sublist)
    intro a b left right
    exact separates a (subset ((List.mem_insertionSort r).mp left)) b
      (subset ((kept.mem_iff).mp right))
  rw [same]
  exact List.filter_sublist

/-- What is sorted by itself and below everything else comes first. -/
theorem insertionSort_append_of_le {first rest : List α} (separates : Separates r (first ++ rest))
    (below : ∀ a ∈ first, ∀ b ∈ rest, r a b) :
    (first ++ rest).insertionSort r = first.insertionSort r ++ rest.insertionSort r := by
  have same : ((first ++ rest).insertionSort r).Perm (first.insertionSort r ++ rest.insertionSort r) :=
    (List.perm_insertionSort r _).trans
      ((List.perm_insertionSort r first).symm.append (List.perm_insertionSort r rest).symm)
  refine same.eq_of_pairwise ?_ (List.pairwise_insertionSort r _) ?_
  · intro a b left right
    rw [List.mem_insertionSort] at left
    rw [List.mem_append, List.mem_insertionSort, List.mem_insertionSort, ← List.mem_append] at right
    exact separates a left b right
  · rw [List.pairwise_append]
    refine ⟨List.pairwise_insertionSort r first, List.pairwise_insertionSort r rest, fun a left b right => ?_⟩
    exact below a ((List.mem_insertionSort r).mp left) b ((List.mem_insertionSort r).mp right)

/-- The best `k` stay the same when items are added that are each behind `k` others. -/
theorem take_insertionSort_append {items more : List α} {k : Nat} (separates : Separates r (items ++ more))
    (nodup : (items ++ more).Nodup) :
    ((items ++ more).insertionSort r).take k = (items.insertionSort r).take k ↔
      ∀ b ∈ more, k ≤ items.countP (r · b) := by
  have own : Separates r items := separates.of_subset (List.subset_append_left _ _)
  have sorted := List.pairwise_insertionSort r items
  have perm := List.perm_insertionSort r items
  constructor
  · intro same b added
    -- `b` is not among the first, so these are `k` items, and below it
    have all := List.pairwise_insertionSort r (items ++ more)
    have listed : b ∈ (items ++ more).insertionSort r :=
      (List.mem_insertionSort r).mpr (List.mem_append_right _ added)
    have other : b ∉ items := fun member => (List.disjoint_of_nodup_append nodup) member added
    have late : b ∉ ((items ++ more).insertionSort r).take k := by
      rw [same]
      exact fun early => other ((List.mem_insertionSort r).mp (List.mem_of_mem_take early))
    rw [← List.take_append_drop k ((items ++ more).insertionSort r)] at listed all
    have dropped := (List.mem_append.mp listed).resolve_left late
    have below := (List.pairwise_append.mp all).2.2
    rw [same] at below
    have full : ((items.insertionSort r).take k).length = k := by
      rw [← same, List.length_take]
      have := List.length_pos_of_mem dropped
      rw [List.length_drop] at this
      omega
    calc k = ((items.insertionSort r).take k).countP (r · b) := by
          rw [List.countP_eq_length.mpr, full]
          intro a early
          exact decide_eq_true (below a early b dropped)
      _ ≤ (items.insertionSort r).countP (r · b) := (List.take_sublist _ _).countP_le
      _ = items.countP (r · b) := perm.countP_eq _
  · intro behind
    cases none : more with
    | nil => rw [List.append_nil]
    | cons b rest =>
      rw [← none]
      have enough : k ≤ (items.insertionSort r).length := by
        have := behind b (by rw [none]; exact List.mem_cons_self)
        rw [List.length_insertionSort]
        exact Nat.le_trans this List.countP_le_length
      -- the best `k`, sorted, and all others
      have split := List.take_append_drop k (items.insertionSort r)
      have parts : (items ++ more).Perm ((items.insertionSort r).take k ++ ((items.insertionSort r).drop k ++ more)) := by
        rw [← List.append_assoc, split]
        exact perm.symm.append_right more
      have apart : Separates r ((items.insertionSort r).take k ++ ((items.insertionSort r).drop k ++ more)) :=
        separates.of_subset parts.symm.subset
      have sortedFirst : ((items.insertionSort r).take k).Pairwise r := sorted.sublist (List.take_sublist _ _)
      have below : ∀ a ∈ (items.insertionSort r).take k, ∀ c ∈ (items.insertionSort r).drop k ++ more, r a c := by
        intro a early c late
        rcases List.mem_append.mp late with late | added
        · rw [← split] at sorted
          exact (List.pairwise_append.mp sorted).2.2 a early c late
        · by_contra above
          have less : r c a := (Std.Total.total a c).resolve_left above
          -- the items below `c` are among the best `k`, and `a` is none of them
          have late : ((items.insertionSort r).drop k).countP (r · c) = 0 := by
            rw [List.countP_eq_zero]
            intro x dropped below
            have below := of_decide_eq_true below
            rw [← split] at sorted
            have after := (List.pairwise_append.mp sorted).2.2 a early x dropped
            have listed : ∀ y ∈ items.insertionSort r, y ∈ items := fun y => (List.mem_insertionSort r).mp
            have equal := own a (listed a (List.mem_of_mem_take early)) x (listed x (List.mem_of_mem_drop dropped))
              after (trans_of r below less)
            have once : (items.insertionSort r).Nodup := perm.nodup_iff.mpr (List.nodup_append.mp nodup).1
            rw [← split] at once
            exact (List.disjoint_of_nodup_append once) early (equal ▸ dropped)
          have few : ((items.insertionSort r).take k).countP (r · c) < k := by
            have less : ((items.insertionSort r).take k).countP (r · c) < ((items.insertionSort r).take k).length :=
              List.countP_lt_length_iff.mpr ⟨a, early, decide_eq_false above⟩
            exact Nat.lt_of_lt_of_le less (List.length_take_le _ _)
          have many := behind c added
          rw [← perm.countP_eq, ← split, List.countP_append, late] at many
          omega
      rw [insertionSort_congr separates parts, insertionSort_append_of_le apart below,
        sortedFirst.insertionSort_eq, List.take_append_of_le_length, List.take_take, Nat.min_self]
      rw [List.length_take]
      omega

end Sorted

/-- The last of a list by some key that passes a test. -/
theorem find?_reverse_of_sorted {key : α → Nat} {ids : List α} (test : α → Bool)
    (sorted : ids.Pairwise fun left right => key left ≤ key right)
    (distinct : ∀ a ∈ ids, ∀ b ∈ ids, key a = key b → a = b) (id : α) :
    ids.reverse.find? test = some id ↔
      id ∈ ids ∧ test id = true ∧ ∀ other ∈ ids, test other = true → key other ≤ key id := by
  have top : ∀ {last}, ids.reverse.find? test = some last → ∀ other ∈ ids, test other = true → key other ≤ key last := by
    intro last found other listed passes
    obtain ⟨-, before, after, split, none⟩ := List.find?_eq_some_iff_append.mp found
    have reversed : (before ++ last :: after).Pairwise fun left right => key right ≤ key left := by
      rw [← split, List.pairwise_reverse]
      exact sorted
    have listed : other ∈ before ++ last :: after := by
      rw [← split, List.mem_reverse]
      exact listed
    rcases List.mem_append.mp listed with early | late
    · have := none other early
      rw [passes] at this
      cases this
    · rcases List.mem_cons.mp late with rfl | later
      · exact Nat.le_refl _
      · exact List.rel_of_pairwise_cons (List.pairwise_append.mp reversed).2.1 later
  constructor
  · intro found
    refine ⟨List.mem_reverse.mp (List.mem_of_find?_eq_some found), List.find?_some found, top found⟩
  · intro ⟨listed, passes, most⟩
    cases found : ids.reverse.find? test with
    | none => exact absurd passes (List.find?_eq_none.mp found id (List.mem_reverse.mpr listed))
    | some last =>
      have lastListed := List.mem_reverse.mp (List.mem_of_find?_eq_some found)
      have same := distinct id listed last lastListed
        (Nat.le_antisymm (top found id listed passes) (most last lastListed (List.find?_some found)))
      rw [same]

/-- A list without repetitions is a part of it and the rest. -/
theorem perm_append_filter [DecidableEq α] {all part : List α} (nodup : all.Nodup) (partNodup : part.Nodup)
    (subset : part ⊆ all) : all.Perm (part ++ all.filter (· ∉ part)) := by
  refine (List.perm_ext_iff_of_nodup nodup ?_).mpr ?_
  · rw [List.nodup_append]
    refine ⟨partNodup, nodup.filter _, ?_⟩
    intro a listed b other same
    exact of_decide_eq_true (List.mem_filter.mp other).2 (same ▸ listed)
  · intro a
    rw [List.mem_append, List.mem_filter, decide_eq_true_iff]
    constructor
    · intro listed
      by_cases inside : a ∈ part
      · exact .inl inside
      · exact .inr ⟨listed, inside⟩
    · rintro (inside | ⟨listed, -⟩)
      · exact subset inside
      · exact listed

/-! ## Two orders of one list -/

theorem mergeSort_congr {le le' : α → α → Bool} {items : List α}
    (alike : ∀ a ∈ items, ∀ b ∈ items, le a b = le' a b) : items.mergeSort le = items.mergeSort le' := by
  simpa using @List.map_mergeSort _ _ le le' id items alike

theorem pairwise_mergeSort_cmp {cmp : α → α → Ordering} [Std.TransCmp cmp] (items : List α) :
    (items.mergeSort fun a b => cmp a b ≠ .gt).Pairwise fun a b => cmp a b ≠ .gt := by
  have sorted := @List.pairwise_mergeSort _ (fun a b => cmp a b ≠ .gt)
    (fun a b c first second => by
      rw [decide_eq_true_iff] at *
      exact (@isTrans_of_cmp α cmp _).trans a b c first second)
    (fun a b => by
      rw [Bool.or_eq_true, decide_eq_true_iff, decide_eq_true_iff]
      exact (@total_of_cmp α cmp _).total a b) items
  exact sorted.imp of_decide_eq_true

/-- Two orders that tell the items of a list apart and sort it the same agree on its items. -/
theorem after_iff_of_mergeSort_eq {cmp cmp' : α → α → Ordering} [Std.TransCmp cmp] [Std.TransCmp cmp']
    {items : List α} (apart : ∀ a ∈ items, ∀ b ∈ items, cmp a b = .eq → a = b)
    (apart' : ∀ a ∈ items, ∀ b ∈ items, cmp' a b = .eq → a = b)
    (same : (items.mergeSort fun a b => cmp a b ≠ .gt) = items.mergeSort fun a b => cmp' a b ≠ .gt)
    {a b : α} (here : a ∈ items) (there : b ∈ items) : cmp a b = .gt ↔ cmp' a b = .gt := by
  have after : ∀ {order : α → α → Ordering} [Std.TransCmp order] {a b : α}, order a b ≠ .gt → order a b ≠ .eq →
      order b a = .gt := by
    intro order _ a b first different
    rw [@Std.OrientedCmp.eq_swap _ order _ b a]
    cases compared : order a b with
    | lt => rfl
    | eq => exact absurd compared different
    | gt => exact absurd compared first
  let Agree (a b : α) : Prop := (cmp a b = .gt ↔ cmp' a b = .gt) ∧ (cmp b a = .gt ↔ cmp' b a = .gt)
  have symm : Std.Symm Agree := ⟨fun _ _ agree => ⟨agree.2, agree.1⟩⟩
  have refl : ∀ a, Agree a a := by
    intro a
    simp [Agree, Std.ReflCmp.compare_self]
  have listed : ∀ a, (a ∈ items.mergeSort fun a b => cmp a b ≠ .gt) ↔ a ∈ items := fun a => List.mem_mergeSort
  have both := (@pairwise_mergeSort_cmp _ cmp _ items).and (same ▸ @pairwise_mergeSort_cmp _ cmp' _ items)
  have agree : (items.mergeSort fun a b => cmp a b ≠ .gt).Pairwise Agree := by
    refine both.imp_of_mem ?_
    intro a b here there ⟨first, second⟩
    rw [listed] at here there
    by_cases equal : a = b
    · exact equal ▸ refl a
    · have later := after first fun compared => equal (apart a here b there compared)
      have later' := after second fun compared => equal (apart' a here b there compared)
      exact ⟨iff_of_false first second, iff_of_true later later'⟩
  exact (agree.forall_of_forall (fun a _ => refl a) ((listed a).mpr here) ((listed b).mpr there)).1

end Vyrm.Lib
