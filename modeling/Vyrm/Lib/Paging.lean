import Vyrm.Lib.Fallible
import Mathlib.Data.List.Basic

/-!
# Paging

A reader that asks for one page after another, each from the cursor that the page before
reached. When a page is the kept part of a slice of a list, the pages together are the kept
part of one slice: every item up to the end is seen once, in order.
-/

namespace Vyrm.Lib

variable {α σ π ε : Type}

/-- What lies between two positions of a list is what lies up to a third one, and from it on. -/
theorem take_drop_append (items : List α) {a b c : Nat} (first : a ≤ b) (second : b ≤ c) :
    (items.take b).drop a ++ (items.take c).drop b = (items.take c).drop a := by
  have whole : c - a = (b - a) + (c - b) := by omega
  have rest : items.drop b = (items.drop a).drop (b - a) := by
    rw [List.drop_drop, Nat.add_sub_cancel' first]
  rw [List.drop_take, List.drop_take, List.drop_take, rest, whole, List.take_add]

/-- A slice starts with the item at its start. -/
theorem drop_take_cons {items : List α} {item : α} {a b : Nat} (found : items[a]? = some item) (inside : a < b) :
    (items.take b).drop a = item :: (items.take b).drop (a + 1) := by
  have first : (items.take b)[a]? = some item := by
    rw [List.getElem?_take_of_lt inside, found]
  obtain ⟨short, isItem⟩ := List.getElem?_eq_some_iff.mp first
  rw [List.drop_eq_getElem_cons short, isItem]

/-- The pages that a reader gets, with the limits it asks for. -/
def follow (page : σ → Nat → Except ε π) (next : π → σ) : σ → List Nat → Except ε (List π)
  | _, [] => .ok []
  | after, limit :: limits => do
    let first ← page after limit
    return first :: (← follow page next (next first) limits)

/-- Where a reader is after some pages. -/
def reached (next : π → σ) (after : σ) (pages : List π) : σ := (pages.getLast?.map next).getD after

@[simp] theorem reached_cons (next : π → σ) (after : σ) (first : π) (pages : List π) :
    reached next after (first :: pages) = reached next (next first) pages := by
  cases pages with
  | nil => rfl
  | cons second pages => simp [reached, List.getLast?_cons]

/-- Pages that are slices follow one another without a gap, and end where the limits allow, or at
the head. -/
theorem follow_slices {page : σ → Nat → Except ε π} {next : π → σ} {cursor : σ → Nat} {found : π → List α}
    {items : List α} {keep : α → Bool} {head : Nat}
    (slices : ∀ after limit, cursor after ≤ head → 0 < limit → ∃ first, page after limit = .ok first ∧
      cursor (next first) = min head (cursor after + limit) ∧
      found first = ((items.take (cursor (next first))).drop (cursor after)).filter keep)
    {limits : List Nat} (positive : ∀ limit ∈ limits, 0 < limit) {after : σ} (start : cursor after ≤ head) :
    ∃ pages, follow page next after limits = .ok pages ∧
      cursor (reached next after pages) = min head (cursor after + limits.sum) ∧
      pages.flatMap found =
        ((items.take (min head (cursor after + limits.sum))).drop (cursor after)).filter keep := by
  induction limits generalizing after with
  | nil => exact ⟨[], rfl, by simp [reached, start], by simp [start]⟩
  | cons limit limits ih =>
    obtain ⟨first, got, reaches, holds⟩ := slices after limit start (positive limit (by simp))
    have start' : cursor (next first) ≤ head := by omega
    obtain ⟨pages, rest, reaches', holds'⟩ := ih (fun other member => positive other (by simp [member])) start'
    have total : min head (cursor (next first) + limits.sum) =
        min head (cursor after + (limit :: limits).sum) := by
      rw [reaches, List.sum_cons]
      omega
    refine ⟨first :: pages, ?_, ?_, ?_⟩
    · simp only [follow, got, rest, except_ok_bind]
      rfl
    · rw [reached_cons, reaches', total]
    · rw [List.flatMap_cons, holds, holds', ← List.filter_append, total, take_drop_append]
      · rw [reaches]
        omega
      · rw [reaches, List.sum_cons]
        omega

end Vyrm.Lib
