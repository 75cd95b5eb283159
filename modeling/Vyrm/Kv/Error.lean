import Vyrm.Lib.FaultFs
import Vyrm.Lib.Fallible

/-!
# Errors and machine integers

`crates/vyrm-kv/src/error.rs`, and the checked and saturating `u64` arithmetic
the storage code is written in. Sequence numbers, lengths and generations are
natural numbers; the explicit `checkedAdd` and `saturatingAdd` below keep the
places where the source distinguishes the end of the `u64` range.
-/

namespace Vyrm.Kv
open Lib Lib.FaultFs

/-- `Error` (`error.rs:6-31`). Rust strings that carry digests are their UTF-8 bytes. -/
inductive Error where
  | io (kind : IoKind)
  | corruption (offset : Nat) (reason : String)
  | unsupportedVersion (object : String) (version : Nat)
  | invalidBatch (reason : String)
  | invalidManifest (reason : String)
  | manifestConflict (expected actual : Option Bytes)
  | invalidSegment (reason : String)
  | tornTail (offset : Nat)
  | poisonedWriter
  | injectedFailure (mode boundary : String)
  deriving DecidableEq, Repr

instance : HasIo Error := ⟨Error.io⟩

/-- Whether an error reports a failed file operation. -/
def Error.isIo : Error → Bool
  | .io _ => true
  | _ => false

/-- `u64::MAX`. -/
def u64Max : Nat := 2 ^ 64 - 1

/-- `u64::checked_add`, with the error of the `ok_or_else` that always follows it. -/
def checkedAdd (a b : Nat) (overflow : Error) : Except Error Nat :=
  if a + b ≤ u64Max then .ok (a + b) else .error overflow

/-- `u64::saturating_add`. -/
def saturatingAdd (a b : Nat) : Nat := min (a + b) u64Max

/-- `u32::try_from(n)`, with the error of the `map_err` that follows it. -/
def u32TryFrom (n : Nat) (tooLarge : Error) : Except Error Nat :=
  if n < 2 ^ 32 then .ok n else .error tooLarge

/-- `if bad { return Err(reason) }`. -/
def rejectIf (bad : Prop) [Decidable bad] (reason : Error) : Except Error Unit :=
  if bad then .error reason else .ok ()

/-- `option.ok_or_else(|| reason)`. -/
def okOr {α : Type} (option : Option α) (reason : Error) : Except Error α :=
  match option with
  | some a => .ok a
  | none => .error reason

theorem rejectIf_ok {bad : Prop} [Decidable bad] {reason : Error} {u : Unit} :
    rejectIf bad reason = .ok u ↔ ¬ bad := by
  unfold rejectIf
  split <;> rename_i h <;> simp [h]

theorem rejectIf_error {bad : Prop} [Decidable bad] {reason e : Error} :
    rejectIf bad reason = .error e ↔ bad ∧ e = reason := by
  unfold rejectIf
  split <;> rename_i h <;> simp [h, eq_comm]

theorem okOr_ok {α : Type} {option : Option α} {reason : Error} {a : α} :
    okOr option reason = .ok a ↔ option = some a := by
  cases option <;> simp [okOr]

theorem checkedAdd_ok {a b c : Nat} {e : Error} :
    checkedAdd a b e = .ok c ↔ a + b ≤ u64Max ∧ c = a + b := by
  unfold checkedAdd
  split <;> rename_i h
  · simp [h, eq_comm]
  · simp [h]

theorem u32TryFrom_ok {n m : Nat} {e : Error} : u32TryFrom n e = .ok m ↔ n < 2 ^ 32 ∧ m = n := by
  unfold u32TryFrom
  constructor
  · intro h
    split at h
    · rename_i small
      exact ⟨small, (Except.ok.inj h).symm⟩
    · cases h
  · rintro ⟨small, rfl⟩
    exact if_pos small

theorem saturatingAdd_of_lt {a : Nat} (h : a < u64Max) : saturatingAdd a 1 = a + 1 :=
  Nat.min_eq_left h

theorem rejectIf_of_not {bad : Prop} [Decidable bad] {reason : Error} (h : ¬ bad) :
    rejectIf bad reason = .ok () := if_neg h

theorem rejectIf_of {bad : Prop} [Decidable bad] {reason : Error} (h : bad) :
    rejectIf bad reason = .error reason := if_pos h

@[simp] theorem rejectIf_ne_self {α : Type} [DecidableEq α] (a : α) (reason : Error) :
    rejectIf (a ≠ a) reason = .ok () := rejectIf_of_not (not_not.mpr rfl)

@[simp] theorem rejectIf_false [Decidable False] (reason : Error) :
    rejectIf False reason = .ok () := rejectIf_of_not not_false

@[simp] theorem okOr_some {α : Type} (a : α) (reason : Error) : okOr (some a) reason = .ok a := rfl

@[simp] theorem okOr_none {α : Type} (reason : Error) :
    okOr (none : Option α) reason = .error reason := rfl

end Vyrm.Kv
