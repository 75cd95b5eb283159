import Mathlib.Algebra.BigOperators.Group.List.Basic
import Mathlib.Algebra.Ring.Int.Defs

/-!
# Signed tallies

Items that each count up or down in one slot. The tallies of a list vanish when its items cancel in pairs, and
only then.
-/

namespace Vyrm.Lib

/-- What an item of a sign counts for. -/
def signed (up : Bool) : Int := if up then 1 else -1

theorem signed_add_of_ne {a b : Bool} (opposite : a ≠ b) : signed a + signed b = 0 := by
  revert a b
  decide

theorem signed_mul_self (up : Bool) : signed up * signed up = 1 := by
  cases up with
  | true => rfl
  | false => rfl

variable {α ι : Type} [DecidableEq ι] {slot : α → ι} {sign : α → Bool}

/-- What the items of a slot count for. -/
def tally (slot : α → ι) (sign : α → Bool) (items : List α) (i : ι) : Int :=
  (items.map fun item => if slot item = i then signed (sign item) else 0).sum

@[simp] theorem tally_nil (i : ι) : tally slot sign [] i = 0 := rfl

@[simp] theorem tally_cons (item : α) (items : List α) (i : ι) :
    tally slot sign (item :: items) i = (if slot item = i then signed (sign item) else 0) + tally slot sign items i := by
  simp [tally]

theorem tally_perm {items others : List α} (same : items.Perm others) (i : ι) :
    tally slot sign items i = tally slot sign others i :=
  (same.map _).sum_eq

/-- Items of one sign do not count against it. -/
theorem tally_of_sign {items : List α} {i : ι} {up : Bool} (agree : ∀ item ∈ items, slot item = i → sign item = up) :
    0 ≤ signed up * tally slot sign items i := by
  induction items with
  | nil => simp
  | cons item items ih =>
    have later := ih fun other member => agree other (List.mem_cons_of_mem _ member)
    rw [tally_cons, Int.mul_add]
    by_cases here : slot item = i
    · rw [if_pos here, agree item (List.mem_cons_self ..) here, signed_mul_self]
      omega
    · rw [if_neg here]
      omega

/-- Two items of one slot and opposite signs. -/
def Cancel (slot : α → ι) (sign : α → Bool) (pair : α × α) : Prop :=
  slot pair.1 = slot pair.2 ∧ sign pair.1 ≠ sign pair.2

/-- The items are made of pairs that cancel. -/
def Paired (slot : α → ι) (sign : α → Bool) (items : List α) : Prop :=
  ∃ pairs : List (α × α), items.Perm (pairs.flatMap fun pair => [pair.1, pair.2]) ∧ ∀ pair ∈ pairs, Cancel slot sign pair

/-- An odd number of items does not cancel in pairs. -/
theorem length_of_paired {items : List α} (paired : Paired slot sign items) : items.length % 2 = 0 := by
  obtain ⟨pairs, whole, -⟩ := paired
  rw [whole.length_eq, List.length_flatMap]
  clear whole
  induction pairs with
  | nil => rfl
  | cons pair pairs ih =>
    rw [List.map_cons, List.sum_cons, Nat.add_mod, ih]
    simp

/-- A pair that cancels does not count. -/
theorem tally_cancel {a b : α} (cancel : Cancel slot sign (a, b)) (items : List α) (i : ι) :
    tally slot sign (a :: b :: items) i = tally slot sign items i := by
  obtain ⟨same, opposite⟩ := cancel
  simp only [tally_cons, same, ← Int.add_assoc]
  by_cases here : slot b = i
  · rw [if_pos here, if_pos here, signed_add_of_ne opposite, Int.zero_add]
  · rw [if_neg here, if_neg here, Int.zero_add, Int.zero_add]

theorem tally_of_paired {items : List α} (paired : Paired slot sign items) (i : ι) : tally slot sign items i = 0 := by
  obtain ⟨pairs, whole, cancel⟩ := paired
  rw [tally_perm whole]
  clear whole
  induction pairs with
  | nil => rfl
  | cons pair pairs ih =>
    rw [List.flatMap_cons]
    change tally slot sign (pair.1 :: pair.2 :: pairs.flatMap fun pair => [pair.1, pair.2]) i = 0
    rw [tally_cancel (cancel pair (List.mem_cons_self ..))]
    exact ih fun other member => cancel other (List.mem_cons_of_mem _ member)

/-- An item that does not count has one to cancel it. -/
theorem exists_cancel {item : α} {items : List α} (zero : tally slot sign (item :: items) (slot item) = 0) :
    ∃ other ∈ items, Cancel slot sign (item, other) := by
  by_contra none_
  have agree : ∀ other ∈ items, slot other = slot item → sign other = sign item := by
    intro other member same
    by_contra opposite
    exact none_ ⟨other, member, same.symm, fun here => opposite here.symm⟩
  have later := tally_of_sign agree
  rw [tally_cons, if_pos rfl] at zero
  cases up : sign item with
  | true =>
    simp only [signed, up, if_true] at zero later
    omega
  | false =>
    simp only [signed, up, Bool.false_eq_true, if_false] at zero later
    omega

/-- The tallies vanish exactly when the items cancel in pairs. -/
theorem tally_eq_zero_iff {items : List α} : (∀ i, tally slot sign items i = 0) ↔ Paired slot sign items := by
  refine ⟨fun zero => ?_, tally_of_paired⟩
  induction long : items.length using Nat.strongRecOn generalizing items with
  | ind n ih =>
    cases items with
    | nil => exact ⟨[], List.Perm.refl _, by simp⟩
    | cons item rest =>
      obtain ⟨other, member, cancel⟩ := exists_cancel (zero (slot item))
      obtain ⟨before, after, rfl⟩ := List.append_of_mem member
      have whole : (item :: (before ++ other :: after)).Perm (item :: other :: (before ++ after)) :=
        List.Perm.cons _ List.perm_middle
      have others : ∀ i, tally slot sign (before ++ after) i = 0 := by
        intro i
        rw [← tally_cancel cancel, ← tally_perm whole]
        exact zero i
      have shorter : (before ++ after).length < n := by
        rw [← long, List.length_append, List.length_cons, List.length_append, List.length_cons]
        omega
      obtain ⟨pairs, made, cancels⟩ := ih _ shorter others rfl
      refine ⟨(item, other) :: pairs, whole.trans ((made.cons _).cons _), fun pair listed => ?_⟩
      rcases List.mem_cons.mp listed with rfl | listed
      · exact cancel
      · exact cancels pair listed

end Vyrm.Lib
