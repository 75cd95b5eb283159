import Mathlib.Data.List.Infix

/-!
# The longest prefix that fits

A list cut where a budget runs out: what is left fits, and no longer prefix does. A loop
that takes items as long as they fit finds it, and it may cut to a number of items first.
-/

namespace Vyrm.Lib

variable {α : Type} {Fits : List α → Prop} {item : α} {items taken : List α}

structure IsLongestPrefix (Fits : List α → Prop) (items taken : List α) : Prop where
  isPrefix : taken <+: items
  fits : Fits taken
  longest : ∀ other, other <+: items → Fits other → other <+: taken

namespace IsLongestPrefix

/-- There is one at most. -/
theorem unique {other : List α} (one : IsLongestPrefix Fits items taken)
    (two : IsLongestPrefix Fits items other) : other = taken :=
  (one.longest other two.isPrefix two.fits).eq_of_length_le
    (two.longest taken one.isPrefix one.fits).length_le

theorem nil (fits : Fits []) : IsLongestPrefix Fits [] [] :=
  ⟨List.prefix_refl _, fits, fun _ isPrefix _ => isPrefix⟩

/-- The first item does not fit. -/
theorem stop (fits : Fits []) (exceeds : ∀ rest, ¬ Fits (item :: rest)) : IsLongestPrefix Fits (item :: items) [] := by
  refine ⟨List.nil_prefix, fits, ?_⟩
  intro other isPrefix within
  rcases List.prefix_cons_iff.mp isPrefix with rfl | ⟨rest, rfl, -⟩
  · exact List.prefix_refl _
  · exact absurd within (exceeds rest)

/-- The first item fits, and so does what is taken behind it. -/
theorem cons (later : IsLongestPrefix (fun rest => Fits (item :: rest)) items taken) :
    IsLongestPrefix Fits (item :: items) (item :: taken) := by
  refine ⟨?_, later.fits, ?_⟩
  · exact (List.prefix_cons_inj item).mpr later.isPrefix
  · intro other isPrefix within
    rcases List.prefix_cons_iff.mp isPrefix with rfl | ⟨rest, rfl, behind⟩
    · exact List.nil_prefix
    · exact (List.prefix_cons_inj item).mpr (later.longest rest behind within)

/-- A number of items is a budget too. -/
theorem of_take {n : Nat} (cut : IsLongestPrefix Fits (items.take n) taken) :
    IsLongestPrefix (fun some => some.length ≤ n ∧ Fits some) items taken := by
  obtain ⟨isPrefix, short⟩ := List.prefix_take_iff.mp cut.isPrefix
  refine ⟨isPrefix, ⟨short, cut.fits⟩, ?_⟩
  intro other isPrefix ⟨short, within⟩
  exact cut.longest other (List.prefix_take_iff.mpr ⟨isPrefix, short⟩) within

/-- When everything fits, nothing is cut. -/
theorem whole (cut : IsLongestPrefix Fits items taken) (fits : Fits items) : taken = items :=
  cut.isPrefix.eq_of_length_le (cut.longest items (List.prefix_refl _) fits).length_le

end IsLongestPrefix

end Vyrm.Lib
