import Vyrm.Lib.Fallible
import Vyrm.Lib.OrdMap
import Vyrm.Lib.Text

/-!
# Errors and identifiers

`crates/vyrm-core/src/error.rs` and `ident.rs`, with the identifiers of `runtime.rs`.
An identifier is a nonempty string without the byte that separates key fields;
both facts are checked by the only constructor, so they are fields of the type.
-/

namespace Vyrm.Core
open Lib

/-- `Error` (`error.rs:7-35`). -/
inductive Error where
  | emptyIdentifier (kind : String)
  | separatorInIdentifier (kind value : String)
  | invalidValidityWindow (validFrom validTo : UInt64)
  | supersessionPairMismatch
  | invalidSupersessionOrder
  | malformedKey (reason : String)
  | sequenceOverflow
  | invalidRuntime (reason : String)
  deriving DecidableEq, Repr

/-- `option.ok_or(error)`. -/
def okOr {α : Type} (option : Option α) (error : Error) : Except Error α :=
  match option with
  | some a => .ok a
  | none => .error error

@[simp] theorem okOr_some {α : Type} (a : α) (error : Error) : okOr (some a) error = .ok a := rfl

theorem okOr_ok {α : Type} {option : Option α} {error : Error} {a : α} :
    okOr option error = .ok a ↔ option = some a := by
  cases option with
  | none => simp [okOr]
  | some b => simp

/-- `SEP` (`ident.rs:12`). -/
def sep : UInt8 := 0x00

/-- The types `ident_type!` (`ident.rs:67-69`) and `runtime_ident!` (`runtime.rs:63-69`) are
applied to. The two macros check the same things. -/
inductive IdentKind where
  | subject
  | predicate
  | reader
  | runtimeScope
  | runtimeType
  | runtimeId
  | snapshotId
  | outboxId
  | projectionId
  deriving DecidableEq, Repr

/-- The label an identifier type is declared with. -/
def IdentKind.label : IdentKind → String
  | .subject => "subject"
  | .predicate => "predicate"
  | .reader => "reader"
  | .runtimeScope => "runtime scope"
  | .runtimeType => "runtime type"
  | .runtimeId => "runtime id"
  | .snapshotId => "snapshot id"
  | .outboxId => "outbox id"
  | .projectionId => "projection id"

/-- `ident_type!` (`ident.rs:14-65`), `runtime_ident!` (`runtime.rs:17-61`). -/
structure Ident (kind : IdentKind) where
  asStr : String
  nonempty : asStr ≠ ""
  separated : sep ∉ utf8 asStr
  deriving DecidableEq

abbrev Subject := Ident .subject
abbrev Predicate := Ident .predicate
abbrev Reader := Ident .reader
abbrev ScopeId := Ident .runtimeScope
abbrev RuntimeType := Ident .runtimeType
abbrev RuntimeId := Ident .runtimeId
abbrev SnapshotId := Ident .snapshotId
abbrev OutboxId := Ident .outboxId
abbrev ProjectionId := Ident .projectionId

/-- `validate_identifier` (`runtime.rs:74-85`). -/
def validateIdentifier (kind value : String) : Except Error Unit :=
  if value = "" then .error (.emptyIdentifier kind)
  else if sep ∈ utf8 value then .error (.separatorInIdentifier kind value)
  else .ok ()

theorem validateIdentifier_ok_iff {kind value : String} :
    validateIdentifier kind value = .ok () ↔ value ≠ "" ∧ sep ∉ utf8 value := by
  unfold validateIdentifier
  by_cases empty : value = ""
  · simp [empty]
  · by_cases contains : sep ∈ utf8 value
    · simp [empty, contains]
    · simp [empty, contains]

namespace Ident

variable {kind : IdentKind}

/-- `new` (`ident.rs:21-33`, `runtime.rs:25-29`). -/
def new (kind : IdentKind) (value : String) : Except Error (Ident kind) :=
  if empty : value = "" then .error (.emptyIdentifier kind.label)
  else if contains : sep ∈ utf8 value then .error (.separatorInIdentifier kind.label value)
  else .ok ⟨value, empty, contains⟩

/-- The bytes of an identifier in a key. -/
def bytes (ident : Ident kind) : Bytes := utf8 ident.asStr

theorem bytes_inj {a b : Ident kind} : a.bytes = b.bytes ↔ a = b := by
  obtain ⟨a, _, _⟩ := a
  obtain ⟨b, _, _⟩ := b
  simp [bytes, utf8_inj]

instance : Keyed (Ident kind) where
  parts ident := [ident.bytes]
  count := 1
  length_parts _ := rfl
  parts_inj _ _ same := bytes_inj.mp (List.cons.inj same).1

instance : Std.TransOrd (Ident kind) := instTransOrdKeyed

instance {second : IdentKind} : Std.TransOrd (Ident kind × Ident second) := instTransOrdKeyed

@[simp] theorem new_asStr (ident : Ident kind) : new kind ident.asStr = .ok ident := by
  rw [new, dif_neg ident.nonempty, dif_neg ident.separated]

/-- An identifier of a literal. -/
def lit (value : String) (valid : decide (value ≠ "" ∧ sep ∉ utf8 value) = true) : Ident kind :=
  ⟨value, (of_decide_eq_true valid).1, (of_decide_eq_true valid).2⟩

theorem new_ok_iff {value : String} {ident : Ident kind} : new kind value = .ok ident ↔ ident.asStr = value := by
  constructor
  · intro made
    unfold new at made
    split at made
    · cases made
    · split at made
      · cases made
      · cases made
        rfl
  · rintro rfl
    exact new_asStr ident

theorem sep_not_mem (ident : Ident kind) : sep ∉ ident.bytes := ident.separated

theorem sep_lt {ident : Ident kind} {byte : UInt8} (h : byte ∈ ident.bytes) : sep < byte := by
  have different : byte ≠ sep := fun same => ident.separated (same ▸ h)
  rw [UInt8.lt_iff_toNat_lt]
  have : byte.toNat ≠ sep.toNat := fun same => different (UInt8.toNat_inj.mp same)
  have : sep.toNat = 0 := rfl
  omega

end Ident

end Vyrm.Core
