import Mathlib.Logic.Relation

/-!
# Crash logic

Programs that work on a durable state, with a volatile state beside it. A crash can
come after any durable operation, and all that it leaves is the durable state as the
operation left it. What is proved of a program has therefore two parts: what holds of
each durable state that it passes through, and what holds at its end. A program that
is started again on whatever its earlier runs left keeps what each of its runs keeps.
-/

namespace Vyrm.Lib.Crash

/-- What a program did: the durable states that its operations left, in order, and how it ended. -/
structure Run (σ ρ ε α : Type) where
  passed : List σ
  result : Except ε α
  durable : σ
  volatile : ρ

/-- A program over a durable state `σ` and a volatile state `ρ`. -/
def Program (σ ρ ε α : Type) : Type := σ → ρ → Run σ ρ ε α

namespace Program

variable {σ ρ ε α β : Type}

instance : Monad (Program σ ρ ε) where
  pure a durable volatile := ⟨[], .ok a, durable, volatile⟩
  bind program next durable volatile :=
    let first := program durable volatile
    match first.result with
    | .error e => ⟨first.passed, .error e, first.durable, first.volatile⟩
    | .ok a =>
      let rest := next a first.durable first.volatile
      ⟨first.passed ++ rest.passed, rest.result, rest.durable, rest.volatile⟩

/-- Ends with an error. -/
def fail (e : ε) : Program σ ρ ε α := fun durable volatile => ⟨[], .error e, durable, volatile⟩

/-- A computation that touches neither state. -/
def lift (x : Except ε α) : Program σ ρ ε α := fun durable volatile => ⟨[], x, durable, volatile⟩

/-- Reads the durable state. -/
def look : Program σ ρ ε σ := fun durable volatile => ⟨[], .ok durable, durable, volatile⟩

/-- Reads and changes the volatile state. -/
def update (f : ρ → α × ρ) : Program σ ρ ε α := fun durable volatile =>
  ⟨[], .ok (f volatile).1, durable, (f volatile).2⟩

/-- One durable operation, which either fails or takes place as a whole. -/
def perform (operation : σ → Except ε σ) : Program σ ρ ε Unit := fun durable volatile =>
  match operation durable with
  | .error e => ⟨[], .error e, durable, volatile⟩
  | .ok next => ⟨[next], .ok (), next, volatile⟩

/-- Ends with an error if something is wrong. -/
def refuse (bad : Prop) [Decidable bad] (e : ε) : Program σ ρ ε Unit := if bad then fail e else pure ()

/-! ## Specifications -/

/-- Run on these states, the program leaves after each of its operations a durable state with `crash`,
and ends as `post` says. -/
def Ensures (program : Program σ ρ ε α) (crash : σ → Prop) (post : Except ε α → σ → ρ → Prop)
    (durable : σ) (volatile : ρ) : Prop :=
  (∀ state ∈ (program durable volatile).passed, crash state) ∧
    post (program durable volatile).result (program durable volatile).durable
      (program durable volatile).volatile

section Rules

variable {crash crash' : σ → Prop} {post post' : Except ε α → σ → ρ → Prop} {durable : σ} {volatile : ρ}

theorem Ensures.mono {program : Program σ ρ ε α} (ensures : program.Ensures crash post durable volatile)
    (crashes : ∀ state, crash state → crash' state)
    (ends : ∀ result state rest, post result state rest → post' result state rest) :
    program.Ensures crash' post' durable volatile :=
  ⟨fun state member => crashes state (ensures.1 state member), ends _ _ _ ensures.2⟩

@[simp] theorem ensures_pure {a : α} :
    (pure a : Program σ ρ ε α).Ensures crash post durable volatile ↔ post (.ok a) durable volatile := by
  simp [Ensures, pure]

@[simp] theorem ensures_fail {e : ε} :
    (fail e : Program σ ρ ε α).Ensures crash post durable volatile ↔ post (.error e) durable volatile := by
  simp [Ensures, fail]

@[simp] theorem ensures_lift {x : Except ε α} :
    (lift x : Program σ ρ ε α).Ensures crash post durable volatile ↔ post x durable volatile := by
  simp [Ensures, lift]

@[simp] theorem ensures_look {post : Except ε σ → σ → ρ → Prop} :
    (look : Program σ ρ ε σ).Ensures crash post durable volatile ↔ post (.ok durable) durable volatile := by
  simp [Ensures, look]

@[simp] theorem ensures_update {f : ρ → α × ρ} :
    (update f : Program σ ρ ε α).Ensures crash post durable volatile ↔
      post (.ok (f volatile).1) durable (f volatile).2 := by
  simp [Ensures, update]

/-- An operation that takes place can be the last one before a crash. -/
theorem ensures_perform_of_ok {operation : σ → Except ε σ} {next : σ} {post : Except ε Unit → σ → ρ → Prop}
    (done : operation durable = .ok next) :
    (perform operation : Program σ ρ ε Unit).Ensures crash post durable volatile ↔
      crash next ∧ post (.ok ()) next volatile := by
  simp [Ensures, perform, done]

theorem ensures_perform_of_error {operation : σ → Except ε σ} {e : ε} {post : Except ε Unit → σ → ρ → Prop}
    (failed : operation durable = .error e) :
    (perform operation : Program σ ρ ε Unit).Ensures crash post durable volatile ↔
      post (.error e) durable volatile := by
  simp [Ensures, perform, failed]

theorem ensures_bind {program : Program σ ρ ε α} {next : α → Program σ ρ ε β}
    {post : Except ε β → σ → ρ → Prop} :
    (program >>= next).Ensures crash post durable volatile ↔
      program.Ensures crash (fun result state rest =>
        match result with
        | .error e => post (.error e) state rest
        | .ok a => (next a).Ensures crash post state rest) durable volatile := by
  show (_ ∧ _) ↔ _ ∧ _
  simp only [bind]
  cases (program durable volatile).result with
  | error e => rfl
  | ok a => simp [Ensures, or_imp, forall_and, and_assoc]

@[simp] theorem ensures_look_bind {next : σ → Program σ ρ ε α} :
    (look >>= next).Ensures crash post durable volatile ↔
      (next durable).Ensures crash post durable volatile := by
  rw [ensures_bind, ensures_look]

theorem ensures_refuse {bad : Prop} [Decidable bad] {e : ε} {post : Except ε Unit → σ → ρ → Prop} :
    (refuse bad e : Program σ ρ ε Unit).Ensures crash post durable volatile ↔
      (bad → post (.error e) durable volatile) ∧ (¬ bad → post (.ok ()) durable volatile) := by
  unfold refuse
  by_cases wrong : bad
  · simp [wrong]
  · simp [wrong]

@[simp] theorem ensures_refuse_bind {bad : Prop} [Decidable bad] {e : ε} {next : Unit → Program σ ρ ε α} :
    (refuse bad e >>= next).Ensures crash post durable volatile ↔
      (bad → post (.error e) durable volatile) ∧ (¬ bad → (next ()).Ensures crash post durable volatile) := by
  rw [ensures_bind, ensures_refuse]

@[simp] theorem ensures_pure_bind {a : β} {next : β → Program σ ρ ε α} :
    ((pure a : Program σ ρ ε β) >>= next).Ensures crash post durable volatile ↔
      (next a).Ensures crash post durable volatile := by
  rw [ensures_bind, ensures_pure]

/-- A part of a program, by what is known of it. -/
theorem Ensures.bind {program : Program σ ρ ε α} {next : α → Program σ ρ ε β}
    {mid : Except ε α → σ → ρ → Prop} {post : Except ε β → σ → ρ → Prop}
    (first : program.Ensures crash mid durable volatile)
    (failed : ∀ e state rest, mid (.error e) state rest → post (.error e) state rest)
    (went : ∀ a state rest, mid (.ok a) state rest → (next a).Ensures crash post state rest) :
    (program >>= next).Ensures crash post durable volatile := by
  rw [ensures_bind]
  apply first.mono (fun _ crashed => crashed)
  intro result state rest known
  cases result with
  | error e => exact failed e state rest known
  | ok a => exact went a state rest known

end Rules

/-! ## Runs after runs -/

/-- The program, started on `before`, came to its end or to a crash that left `after`. -/
def Stopped (program : Program σ ρ ε α) (before after : σ) : Prop :=
  ∃ volatile, after ∈ (program before volatile).passed ∨ after = (program before volatile).durable

/-- What each run of a program keeps, at every operation and to its end. -/
def Keeps (program : Program σ ρ ε α) (holds : σ → Prop) : Prop :=
  ∀ durable volatile, holds durable → program.Ensures holds (fun _ state _ => holds state) durable volatile

theorem Keeps.stopped {program : Program σ ρ ε α} {holds : σ → Prop} (keeps : program.Keeps holds)
    {before after : σ} (start : holds before) (stopped : program.Stopped before after) : holds after := by
  obtain ⟨volatile, crashed | ended⟩ := stopped
  · exact (keeps before volatile start).1 after crashed
  · rw [ended]
    exact (keeps before volatile start).2

/-- Any number of runs, each on what the one before it left, keeps what each run keeps. -/
theorem Keeps.restarted {program : Program σ ρ ε α} {holds : σ → Prop} (keeps : program.Keeps holds)
    {first last : σ} (start : holds first) (restarted : Relation.ReflTransGen program.Stopped first last) :
    holds last := by
  induction restarted with
  | refl => exact start
  | tail _ stopped ih => exact keeps.stopped ih stopped

end Program

end Vyrm.Lib.Crash
