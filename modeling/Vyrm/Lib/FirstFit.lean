import Vyrm.Lib.LongestPrefix

/-!
# Skipping what does not fit

A loop that takes the items that fit, one after another, and goes on behind one that does not. It takes
the longest prefix that fits exactly when nothing behind the first item left out would have fitted.
-/

namespace Vyrm.Lib

variable {α : Type} {Fits : List α → Prop} {taken items : List α}

/-- Every part of what fits from its front on fits. -/
def PrefixClosed (Fits : List α → Prop) : Prop := ∀ front back, Fits (front ++ back) → Fits front

/-- Nothing behind the first item that does not fit would fit in its place. -/
def NoneFitsBehind (Fits : List α → Prop) (items : List α) : Prop :=
  ∀ front misfit behind, items = front ++ misfit :: behind → Fits front → ¬ Fits (front ++ [misfit]) →
    ∀ item ∈ behind, ¬ Fits (front ++ [item])

/-- At the first item that does not fit, what has been taken is a longest prefix. -/
theorem isLongestPrefix_front {front behind : List α} {misfit : α} (closed : PrefixClosed Fits) (fits : Fits front)
    (exceeds : ¬ Fits (front ++ [misfit])) : IsLongestPrefix Fits (front ++ misfit :: behind) front := by
  refine ⟨List.prefix_append _ _, fits, ?_⟩
  intro other isPrefix within
  rcases List.prefix_or_prefix_of_prefix isPrefix (List.prefix_append front (misfit :: behind)) with short | ⟨more, rfl⟩
  · exact short
  rcases List.prefix_cons_iff.mp ((List.prefix_append_right_inj front).mp isPrefix) with rfl | ⟨rest, rfl, -⟩
  · rw [List.append_nil]
  · rw [List.append_cons] at within
    exact absurd (closed _ _ within) exceeds

section

variable [DecidablePred Fits]

/-- What is taken after a start, item by item. -/
def takeFitting (Fits : List α → Prop) [DecidablePred Fits] (taken : List α) : List α → List α
  | [] => taken
  | item :: items =>
    if Fits (taken ++ [item]) then takeFitting Fits (taken ++ [item]) items else takeFitting Fits taken items

theorem takeFitting_append (before after : List α) :
    takeFitting Fits taken (before ++ after) = takeFitting Fits (takeFitting Fits taken before) after := by
  induction before generalizing taken with
  | nil => rfl
  | cons item before ih =>
    rw [List.cons_append, takeFitting, takeFitting]
    split
    · exact ih
    · exact ih

theorem prefix_takeFitting : taken <+: takeFitting Fits taken items := by
  induction items generalizing taken with
  | nil => exact List.prefix_refl _
  | cons item items ih =>
    rw [takeFitting]
    split
    · exact (List.prefix_append _ _).trans ih
    · exact ih

/-- Everything is taken when everything fits. -/
theorem takeFitting_of_fits (closed : PrefixClosed Fits) (fits : Fits (taken ++ items)) :
    takeFitting Fits taken items = taken ++ items := by
  induction items generalizing taken with
  | nil => exact (List.append_nil _).symm
  | cons item items ih =>
    have together : taken ++ item :: items = taken ++ [item] ++ items := List.append_cons _ _ _
    rw [together] at fits ⊢
    rw [takeFitting, if_pos (closed _ _ fits), ih fits]

/-- Nothing is taken exactly when no item fits. -/
theorem takeFitting_eq_self_iff : takeFitting Fits taken items = taken ↔ ∀ item ∈ items, ¬ Fits (taken ++ [item]) := by
  induction items with
  | nil => simp [takeFitting]
  | cons item items ih =>
    rw [takeFitting, List.forall_mem_cons]
    split
    next fits =>
      have grown : (taken ++ [item]).length ≤ (takeFitting Fits (taken ++ [item]) items).length :=
        prefix_takeFitting.length_le
      constructor
      · intro same
        rw [same, List.length_append, List.length_singleton] at grown
        omega
      · intro misfits
        exact absurd fits misfits.1
    next misfit => rw [ih, and_iff_right misfit]

theorem fits_takeFitting (fits : Fits taken) : Fits (takeFitting Fits taken items) := by
  induction items generalizing taken with
  | nil => exact fits
  | cons item items ih =>
    rw [takeFitting]
    split
    next more => exact ih more
    next => exact ih fits

/-- A list fits, or there is a first item that does not. -/
theorem fits_or_misfit (fits : Fits []) (items : List α) :
    Fits items ∨ ∃ front misfit behind, items = front ++ misfit :: behind ∧ Fits front ∧ ¬ Fits (front ++ [misfit]) := by
  suffices ∀ taken, Fits taken → Fits (taken ++ items) ∨ ∃ front misfit behind,
      items = front ++ misfit :: behind ∧ Fits (taken ++ front) ∧ ¬ Fits (taken ++ front ++ [misfit]) from this [] fits
  induction items with
  | nil => exact fun taken fits => .inl (by rwa [List.append_nil])
  | cons item items ih =>
    intro taken fits
    by_cases more : Fits (taken ++ [item])
    · rcases ih _ more with all | ⟨front, misfit, behind, rfl, within, exceeds⟩
      · exact .inl (by rwa [List.append_cons])
      · exact .inr ⟨item :: front, misfit, behind, rfl, by rwa [List.append_cons],
          by rwa [List.append_cons taken item front]⟩
    · exact .inr ⟨[], item, items, rfl, by rwa [List.append_nil], by rwa [List.append_nil]⟩

/-- The loop takes the longest prefix that fits exactly when nothing behind the first misfit fits. -/
theorem takeFitting_isLongestPrefix_iff (closed : PrefixClosed Fits) (fits : Fits []) :
    IsLongestPrefix Fits items (takeFitting Fits [] items) ↔ NoneFitsBehind Fits items := by
  have reaches : ∀ front misfit behind, Fits front → ¬ Fits (front ++ [misfit]) →
      takeFitting Fits [] (front ++ misfit :: behind) = takeFitting Fits front behind := by
    intro front misfit behind within exceeds
    have all : takeFitting Fits [] front = front := takeFitting_of_fits closed within
    rw [takeFitting_append, all, takeFitting, if_neg exceeds]
  constructor
  · rintro longest front misfit behind rfl within exceeds
    rw [reaches front misfit behind within exceeds] at longest
    have same := longest.unique (isLongestPrefix_front closed within exceeds)
    exact takeFitting_eq_self_iff.mp same.symm
  · intro none_
    rcases fits_or_misfit fits items with all | ⟨front, misfit, behind, rfl, within, exceeds⟩
    · have whole : takeFitting Fits [] items = items := takeFitting_of_fits closed all
      rw [whole]
      exact ⟨List.prefix_refl _, all, fun _ isPrefix _ => isPrefix⟩
    · rw [reaches front misfit behind within exceeds,
        takeFitting_eq_self_iff.mpr (none_ front misfit behind rfl within exceeds)]
      exact isLongestPrefix_front closed within exceeds

end

end Vyrm.Lib
