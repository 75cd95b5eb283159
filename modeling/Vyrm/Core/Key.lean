import Vyrm.Core.Ident

/-!
# Key encoding

`crates/vyrm-core/src/key.rs`: the keys of claims, access records and sequence
index entries, and the parsers that read them back.
-/

namespace Vyrm.Core
open Lib

/-- `CLAIM_NS` (`key.rs:28`): `c/`. -/
def claimNs : Bytes := [0x63, 0x2F]

/-- `INV_WIDTH` (`key.rs:32`). -/
def invWidth : Nat := 20

/-- `u64::MAX`. -/
def u64Max : UInt64 := 0xFFFFFFFFFFFFFFFF

/-- `invert` (`key.rs:36-38`). -/
def invert (validFrom : UInt64) : UInt64 := u64Max - validFrom

/-- `format!("{value:0width$}", width = INV_WIDTH)`. -/
def field (value : UInt64) : Bytes := Decimal.padded invWidth value.toNat

/-- `str::parse::<u64>`, of bytes that `str::from_utf8` accepted. -/
def parseU64 (text : String) : Option UInt64 :=
  match Decimal.parse (utf8 text) with
  | some n => if n < 2 ^ 64 then some (UInt64.ofNat n) else none
  | none => none

/-- `version_prefix` (`key.rs:71-79`). -/
def versionPrefix (subject : Subject) (predicate : Predicate) : Bytes :=
  claimNs ++ subject.bytes ++ [sep] ++ predicate.bytes ++ [sep]

/-- `valid_from_bound` (`key.rs:63-68`). -/
def validFromBound (subject : Subject) (predicate : Predicate) (validFrom : UInt64) : Bytes :=
  versionPrefix subject predicate ++ field (invert validFrom) ++ [sep]

/-- `claim_key` (`key.rs:48-57`). -/
def claimKey (subject : Subject) (predicate : Predicate) (validFrom txTime : UInt64) : Bytes :=
  validFromBound subject predicate validFrom ++ field (invert txTime)

/-- `subject_prefix` (`key.rs:87-93`). -/
def subjectPrefix (subject : Subject) : Bytes := claimNs ++ subject.bytes ++ [sep]

/-- `seek_key` (`key.rs:97-99`). -/
def seekKey (subject : Subject) (predicate : Predicate) (asOf : UInt64) : Bytes :=
  validFromBound subject predicate asOf

/-- The loop of `prefix_end`, over the bytes from the last to the first. -/
def prefixEndRev : Bytes → Option Bytes
  | [] => none
  | last :: rest => if last < 0xFF then some ((last + 1) :: rest).reverse else prefixEndRev rest

/-- `prefix_end` (`key.rs:110-120`). -/
def prefixEnd (front : Bytes) : Option Bytes := prefixEndRev front.reverse

/-- `access_key` (`key.rs:135-142`). -/
def accessKey (at_ : UInt64) (reader : Reader) (subject : Subject) (predicate : Predicate) : Bytes :=
  field at_ ++ [sep] ++ reader.bytes ++ [sep] ++ subject.bytes ++ [sep] ++ predicate.bytes

/-- The identifiers that follow in an access key (`key.rs:159-166`): `what` is the error of a
missing one. -/
def accessField (kind : IdentKind) (part : Option Bytes) (what : String) : Except Error (Ident kind) := do
  let raw ← okOr part (.malformedKey what)
  let text ← okOr (fromUtf8 raw) (.malformedKey "access key field is not UTF-8")
  Ident.new kind text

/-- `parse_access_key` (`key.rs:150-168`). -/
def parseAccessKey (key : Bytes) : Except Error (UInt64 × Reader × Subject × Predicate) := do
  let parts := splitn sep 4 key
  let at_ ← okOr parts[0]? (.malformedKey "access key is empty")
  let at_ ← okOr (fromUtf8 at_) (.malformedKey "access timestamp is not UTF-8")
  let at_ ← okOr (parseU64 at_) (.malformedKey "access timestamp is not numeric")
  let reader ← accessField .reader parts[1]? "access key is missing the reader"
  let subject ← accessField .subject parts[2]? "access key is missing the subject"
  let predicate ← accessField .predicate parts[3]? "access key is missing the predicate"
  return (at_, reader, subject, predicate)

/-- `key.strip_prefix(front)`. -/
def stripFront (front key : Bytes) : Option Bytes :=
  if front <+: key then some (key.drop front.length) else none

/-- `parse_claim_key` (`key.rs:174-191`). -/
def parseClaimKey (key : Bytes) : Except Error (Subject × Predicate) := do
  let body ← okOr (stripFront claimNs key) (.malformedKey "claim key lacks its namespace")
  let parts := splitn sep 3 body
  let subject ← okOr parts[0]? (.malformedKey "claim key is missing the subject")
  let predicate ← okOr parts[1]? (.malformedKey "claim key is missing the predicate")
  let subject ← okOr (fromUtf8 subject) (.malformedKey "subject is not UTF-8")
  let predicate ← okOr (fromUtf8 predicate) (.malformedKey "predicate is not UTF-8")
  return (← Ident.new .subject subject, ← Ident.new .predicate predicate)

/-- `sequence_key` (`key.rs:200-202`). -/
def sequenceKey (sequence : UInt64) : Bytes := field sequence

/-- `sequence_of` (`key.rs:205-213`). -/
def sequenceOf (key : Bytes) : Except Error UInt64 := do
  if key.length ≠ invWidth then throw (.malformedKey "sequence key has the wrong width")
  let text ← okOr (fromUtf8 key) (.malformedKey "sequence key is not UTF-8")
  okOr (parseU64 text) (.malformedKey "sequence key is not numeric")

/-- `parse_inverted` (`key.rs:231-238`). -/
def parseInverted (field : Bytes) : Except Error UInt64 := do
  let text ← okOr (fromUtf8 field) (.malformedKey "inverted timestamp is not UTF-8")
  let inverted ← okOr (parseU64 text) (.malformedKey "inverted timestamp is not numeric")
  return invert inverted

/-- `timestamps_of` (`key.rs:216-229`). -/
def timestampsOf (key : Bytes) : Except Error (UInt64 × UInt64) := do
  let length := invWidth * 2 + 1
  if key.length < length then throw (.malformedKey "shorter than the timestamp fields")
  let tail := key.drop (key.length - length)
  if tail[invWidth]? ≠ some sep then throw (.malformedKey "timestamp fields are not separated")
  let validFrom ← parseInverted (tail.take invWidth)
  let txTime ← parseInverted (tail.drop (invWidth + 1))
  return (validFrom, txTime)

end Vyrm.Core
