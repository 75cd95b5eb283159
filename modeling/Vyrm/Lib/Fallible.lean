import Vyrm.Lib.Bytes

/-!
# Fallible computations

What a successful run of a computation in `Except` says about its parts.
-/

namespace Vyrm.Lib

variable {ε α β : Type}

@[simp] theorem except_ok_bind (a : α) (f : α → Except ε β) : ((Except.ok a : Except ε α) >>= f) = f a := rfl

@[simp] theorem except_error_bind (e : ε) (f : α → Except ε β) :
    ((Except.error e : Except ε α) >>= f) = .error e := rfl

@[simp] theorem except_pure (a : α) : (pure a : Except ε α) = .ok a := rfl

@[simp] theorem except_throw (e : ε) : (throw e : Except ε α) = .error e := rfl

theorem except_toOption_eq_some {x : Except ε α} {a : α} : x.toOption = some a ↔ x = .ok a := by
  cases x with
  | error e => simp [Except.toOption]
  | ok b => simp [Except.toOption]

/-- Peeling one fallible computation off a successful one. -/
theorem except_bind_ok {x : Except ε α} {f : α → Except ε β} {b : β} :
    (x >>= f) = .ok b ↔ ∃ a, x = .ok a ∧ f a = .ok b := by
  cases x with
  | error e => simp [Bind.bind, Except.bind]
  | ok a => simp [Bind.bind, Except.bind]

/-- Peeling a rejection off a successful computation. -/
theorem except_reject_ok {bad : Prop} [Decidable bad] {e : ε} {x : Except ε α} {a : α} :
    (if bad then .error e else x) = .ok a ↔ ¬ bad ∧ x = .ok a := by
  by_cases rejected : bad
  · simp [rejected]
  · simp [rejected]

/-- Peeling a demanded value off a successful computation. -/
theorem except_match_ok {option : Option α} {e : ε} {f : α → Except ε β} {b : β} :
    (match option with
      | some a => f a
      | none => .error e) = .ok b ↔ ∃ a, option = some a ∧ f a = .ok b := by
  cases option with
  | none => simp
  | some a => simp

/-- A check of every element succeeds when each one does. -/
theorem except_forM_ok {check : α → Except ε Unit} {items : List α} :
    items.forM check = .ok () ↔ ∀ a ∈ items, check a = .ok () := by
  induction items with
  | nil => simp
  | cons a items ih =>
    show (check a >>= fun _ => items.forM check) = .ok () ↔ _
    rw [except_bind_ok, List.forall_mem_cons, ← ih]
    constructor
    · rintro ⟨⟨⟩, first, rest⟩
      exact ⟨first, rest⟩
    · rintro ⟨first, rest⟩
      exact ⟨(), first, rest⟩

/-- A computation on every element succeeds when each one does, with their results. -/
theorem except_mapM_ok {f : α → Except ε β} {items : List α} {results : List β} :
    items.mapM f = .ok results ↔ items.map f = results.map .ok := by
  induction items generalizing results with
  | nil => cases results <;> simp
  | cons a items ih =>
    rw [List.mapM_cons, except_bind_ok]
    constructor
    · intro ⟨b, first, rest⟩
      obtain ⟨bs, more, same⟩ := except_bind_ok.mp rest
      cases same
      rw [List.map_cons, List.map_cons, first, ih.mp more]
    · intro same
      cases results with
      | nil => cases same
      | cons b bs =>
        rw [List.map_cons, List.map_cons, List.cons.injEq] at same
        refine ⟨b, same.1, ?_⟩
        rw [ih.mpr same.2]
        rfl

/-- What is computed from every element can be turned back into them all. -/
theorem except_mapM_inverse {f : α → Except ε β} {g : β → α} (inverse : ∀ a b, f a = .ok b → g b = a)
    {items : List α} {results : List β} (ran : items.mapM f = .ok results) : results.map g = items := by
  have images := except_mapM_ok.mp ran
  clear ran
  induction items generalizing results with
  | nil =>
    cases results with
    | nil => rfl
    | cons b results => cases images
  | cons a items ih =>
    cases results with
    | nil => cases images
    | cons b results =>
      rw [List.map_cons, List.map_cons, List.cons.injEq] at images
      rw [List.map_cons, inverse a b images.1, ih images.2]

end Vyrm.Lib
