import Vyrm.Core.Digest
import Vyrm.Core.Key
import Vyrm.Lib.PrefixFree

/-!
# Claims

`crates/vyrm-core/src/claim.rs`: one bi-temporal assertion with provenance, its
canonical bytes, and supersession. Floats are their bit patterns.
-/

namespace Vyrm.Core
open Lib

/-- `Millis` (`claim.rs:10`). -/
abbrev Millis := UInt64

/-- An `f32`, by its bits. -/
abbrev F32 := UInt32

/-- An `f64`, by its bits. -/
abbrev F64 := UInt64

/-- `Tier` (`claim.rs:17-22`). -/
inductive Tier where
  | localTier
  | primary
  | tenant
  deriving DecidableEq, Repr

/-- `PromotionState` (`claim.rs:26-32`). -/
inductive PromotionState where
  | unpromoted
  | pending
  | promoted
  | denied
  deriving DecidableEq, Repr

/-- `Producer` (`claim.rs:37-46`). -/
structure Producer where
  actor : String
  onBehalfOf : Option String
  session : Option String
  deriving DecidableEq, Repr

/-- `Claim` (`claim.rs:49-78`). -/
structure Claim where
  subject : Subject
  predicate : Predicate
  object : String
  validFrom : Millis
  validTo : Option Millis
  txTime : Millis
  producer : Producer
  confidence : Option F32
  supersedes : Option String
  signature : Option String
  tier : Tier
  promotionState : PromotionState
  deriving DecidableEq

/-! ## Fields of canonical encodings -/

/-- `u64::to_be_bytes`. -/
def be64 (value : UInt64) : Bytes := toBE 8 value.toNat

/-- `u32::to_be_bytes`. -/
def be32 (value : UInt32) : Bytes := toBE 4 value.toNat

/-- `u8::from(bool)`. -/
def flag (value : Bool) : Bytes := [if value then 1 else 0]

/-- `text` (`claim.rs:150-153`, `runtime.rs:1475-1478`). -/
def text (value : String) : Bytes := prefixed (utf8 value)

/-- A presence flag and the value if there is one. -/
def optional {α : Type} (encode : α → Bytes) : Option α → Bytes
  | none => flag false
  | some value => flag true ++ encode value

/-- `optional_text` (`claim.rs:154-157`, `runtime.rs:1480-1485`). -/
def optionalText : Option String → Bytes := optional text

/-- The tag of a tier (`claim.rs:172`). -/
def Tier.tag : Tier → UInt8
  | .localTier => 0
  | .primary => 1
  | .tenant => 2

/-- The tag of a promotion state (`claim.rs:173-178`). -/
def PromotionState.tag : PromotionState → UInt8
  | .unpromoted => 0
  | .pending => 1
  | .promoted => 2
  | .denied => 3

namespace Claim

/-- `valid_at` (`claim.rs:122-133`). -/
def validAt (claim : Claim) (asOf : Millis) : Bool :=
  if asOf < claim.validFrom then false
  else match claim.validTo with
    | some validTo => decide (asOf < validTo)
    | none => true

/-- `validate` (`claim.rs:136-146`). -/
def validate (claim : Claim) : Except Error Unit :=
  match claim.validTo with
  | some validTo =>
    if validTo ≤ claim.validFrom then .error (.invalidValidityWindow claim.validFrom validTo)
    else .ok ()
  | none => .ok ()

/-- The key of a claim. -/
def key (claim : Claim) : Bytes :=
  claimKey claim.subject claim.predicate claim.validFrom claim.txTime

/-- `vyrm-claim-v1\0`. -/
def domain : Bytes :=
  [0x76, 0x79, 0x72, 0x6d, 0x2d, 0x63, 0x6c, 0x61, 0x69, 0x6d, 0x2d, 0x76, 0x31, 0x00]

/-- `canonical_bytes` (`claim.rs:149-181`). -/
def canonicalBytes (claim : Claim) : Bytes :=
  domain ++ text claim.subject.asStr ++ text claim.predicate.asStr ++ text claim.object ++
    be64 claim.validFrom ++ optional be64 claim.validTo ++ be64 claim.txTime ++
    text claim.producer.actor ++ optionalText claim.producer.onBehalfOf ++
    optionalText claim.producer.session ++ optional be32 claim.confidence ++
    optionalText claim.supersedes ++ optionalText claim.signature ++ [claim.tier.tag] ++
    [claim.promotionState.tag]

/-- `digest` (`claim.rs:184-186`). -/
def digest (claim : Claim) : String := sha256Hex claim.canonicalBytes

end Claim

/-- `supersede` (`claim.rs:191-207`): the retirement correction and its successor. -/
def supersede (previous successor : Claim) : Except Error (Claim × Claim) := do
  if previous.subject ≠ successor.subject ∨ previous.predicate ≠ successor.predicate then
    throw .supersessionPairMismatch
  if successor.validFrom ≤ previous.validFrom ∨ successor.txTime ≤ previous.txTime then
    throw .invalidSupersessionOrder
  let previousId := previous.digest
  let retirement : Claim :=
    { previous with
      validTo := some successor.validFrom
      txTime := successor.txTime
      supersedes := some previousId }
  let successor : Claim := { successor with supersedes := some previousId }
  retirement.validate
  successor.validate
  return (retirement, successor)

end Vyrm.Core
