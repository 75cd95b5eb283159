import Mathlib.Tactic.Common

/-!
# Paths of a labelled step relation

What a system does step by step: the labels of the steps in order, and what every
step keeps.
-/

namespace Vyrm.Lib

variable {σ ε : Type}

/-- The steps from one state to another, with their labels. -/
inductive Path (step : σ → ε → σ → Prop) : σ → List ε → σ → Prop where
  | nil (s : σ) : Path step s [] s
  | cons {s m s' : σ} {e : ε} {es : List ε} (first : step s e m) (rest : Path step m es s') :
      Path step s (e :: es) s'

namespace Path

variable {step : σ → ε → σ → Prop} {s s' : σ} {e : ε} {es fs : List ε}

@[simp] theorem nil_iff : Path step s [] s' ↔ s = s' := by
  constructor
  · rintro ⟨⟩
    rfl
  · rintro rfl
    exact .nil s

@[simp] theorem cons_iff : Path step s (e :: es) s' ↔ ∃ m, step s e m ∧ Path step m es s' := by
  constructor
  · rintro (_ | ⟨first, rest⟩)
    exact ⟨_, first, rest⟩
  · rintro ⟨m, first, rest⟩
    exact .cons first rest

theorem append_iff : Path step s (es ++ fs) s' ↔ ∃ m, Path step s es m ∧ Path step m fs s' := by
  induction es generalizing s with
  | nil => simp
  | cons e es ih =>
    simp only [List.cons_append, cons_iff, ih]
    constructor
    · rintro ⟨m, first, n, middle, rest⟩
      exact ⟨n, ⟨m, first, middle⟩, rest⟩
    · rintro ⟨n, ⟨m, first, middle⟩, rest⟩
      exact ⟨m, first, n, middle, rest⟩

theorem concat (path : Path step s es s') {s'' : σ} (last : step s' e s'') :
    Path step s (es ++ [e]) s'' :=
  append_iff.mpr ⟨s', path, .cons last (.nil s'')⟩

/-- What every step keeps, a path keeps. -/
theorem keeps {inv : σ → Prop} (kept : ∀ s e s', inv s → step s e s' → inv s')
    (path : Path step s es s') (holds : inv s) : inv s' := by
  induction path with
  | nil => exact holds
  | cons first _ ih => exact ih (kept _ _ _ holds first)

/-- A path of steps that are all steps of another kind. -/
theorem mono {step' : σ → ε → σ → Prop} (weaker : ∀ s e s', step s e s' → step' s e s')
    (path : Path step s es s') : Path step' s es s' := by
  induction path with
  | nil s => exact .nil s
  | cons first _ ih => exact .cons (weaker _ _ _ first) ih

/-- The path of a step function that computes through all the labels. -/
theorem of_foldlM {next : σ → ε → Option σ} (computed : es.foldlM next s = some s') :
    Path (fun s e s' => next s e = some s') s es s' := by
  induction es generalizing s with
  | nil =>
    rw [List.foldlM_nil] at computed
    cases computed
    exact .nil _
  | cons e es ih =>
    rw [List.foldlM_cons, Option.bind_eq_bind, Option.bind_eq_some_iff] at computed
    obtain ⟨m, first, rest⟩ := computed
    exact .cons first (ih rest)

end Path

end Vyrm.Lib
