import Mathlib.Data.List.Induction

/-!
# Entries of a log

A log only grows, and what is said of an entry in view of those before it stays true
while it does.
-/

namespace Vyrm.Lib

variable {α β : Type} {holds : List α → α → Prop} {log more : List α}

/-- Every entry of a log is as it must be, in view of those before it. -/
def Placed (holds : List α → α → Prop) (log : List α) : Prop :=
  ∀ before entry after, log = before ++ entry :: after → holds before entry

namespace Placed

theorem nil : Placed holds [] := by
  intro before entry after split
  simp at split

theorem of_append (placed : Placed holds (log ++ more)) : Placed holds log := by
  intro before entry after split
  exact placed before entry (after ++ more) (by rw [split]; simp)

theorem last {entry : α} (placed : Placed holds (log ++ [entry])) : holds log entry :=
  placed log entry [] rfl

theorem concat {entry : α} (placed : Placed holds log) (here : holds log entry) :
    Placed holds (log ++ [entry]) := by
  intro before other after split
  rcases List.eq_nil_or_concat after with rfl | ⟨init, last, rfl⟩
  · obtain ⟨rfl, same⟩ := List.append_inj' split rfl
    obtain rfl := List.singleton_inj.mp same
    exact here
  · have split : log ++ [entry] = (before ++ other :: init) ++ [last] := by simpa using split
    exact placed before other init (List.append_inj' split rfl).1

/-- Appending entries that are placed after the log. -/
theorem append (placed : Placed holds log) (next : Placed (fun before => holds (log ++ before)) more) :
    Placed holds (log ++ more) := by
  induction more using List.reverseRecOn with
  | nil => simpa using placed
  | append_singleton more entry ih =>
    rw [← List.append_assoc]
    exact (ih next.of_append).concat next.last

theorem mono {weaker : List α → α → Prop} (placed : Placed holds log)
    (weaken : ∀ before entry, holds before entry → weaker before entry) : Placed weaker log :=
  fun before entry after split => weaken before entry (placed before entry after split)

end Placed

end Vyrm.Lib
