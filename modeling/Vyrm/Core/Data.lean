import Vyrm.Core.Runtime.Canonical

/-!
# Checks of non-relational values

`crates/vyrm-core/src/data.rs`: what a vector, a sample, a geometry or an object
reference must satisfy before it may be committed.
-/

namespace Vyrm.Core
open Lib

/-- `Err(InvalidRuntime { reason })`. -/
def invalid {α : Type} (reason : String) : Except Error α := .error (.invalidRuntime reason)

/-- `{text:?}`, of text whose characters beyond ASCII are printable. -/
def debugText (text : String) : String :=
  "\"" ++ String.join (text.toList.map escaped) ++ "\""
where
  escaped (c : Char) : String :=
    if c = '\t' then "\\t" else if c = '\r' then "\\r" else if c = '\n' then "\\n"
    else if c = '"' then "\\\"" else if c = '\\' then "\\\\" else if c.toNat = 0 then "\\0"
    else if c.toNat < 0x20 ∨ c.toNat = 0x7f then
      "\\u\x7b" ++ String.ofList (Nat.toDigits 16 c.toNat) ++ "\x7d"
    else String.singleton c

/-- `char::is_whitespace`: the characters with the Unicode property `White_Space`. -/
def isWhitespace (c : Char) : Bool :=
  let n := c.toNat
  (9 ≤ n && n ≤ 13) || n = 0x20 || n = 0x85 || n = 0xa0 || n = 0x1680 || (0x2000 ≤ n && n ≤ 0x200a) ||
    n = 0x2028 || n = 0x2029 || n = 0x202f || n = 0x205f || n = 0x3000

/-- `text.trim().is_empty()`. -/
def trimIsEmpty (text : String) : Bool := text.toList.all isWhitespace

namespace Data

/-- `validate_finite` (`data.rs:380-385`). -/
def isFinite (value : F32) : Bool := (value >>> 23) &&& 0xff ≠ 0xff

/-- `validate_text` (`data.rs:387-392`). -/
def validateText (kind value : String) : Except Error Unit :=
  if trimIsEmpty value ∨ (0 : UInt8) ∈ utf8 value then
    invalid s!"{kind} must be non-empty and contain no NUL bytes"
  else .ok ()

/-- `validate_digest` (`data.rs:394-405`). -/
def validateDigest (kind value : String) : Except Error Unit :=
  let bytes := utf8 value
  if bytes.length ≠ 64 ∨ ¬ bytes.all fun byte => isDigit byte || (97 ≤ byte.toNat && byte.toNat ≤ 102) then
    invalid s!"{kind} digest must be 64 lowercase hexadecimal characters"
  else .ok ()

/-- `validate_window` (`data.rs:407-415`, `runtime.rs:1452-1462`). -/
def validateWindow (validFrom : Millis) (validTo : Option Millis) : Except Error Unit :=
  match validTo with
  | some validTo => if validTo ≤ validFrom then .error (.invalidValidityWindow validFrom validTo) else .ok ()
  | none => .ok ()

/-- The least number that does not round to a finite `f64`. -/
def f64Limit : Nat := 2 ^ 1024 - 2 ^ 970

/-- An optional sign at the front of a text. -/
def dropSign (text : Bytes) : Bytes :=
  match text with
  | 43 :: rest => rest
  | 45 :: rest => rest
  | _ => text

/-- The exponent of a decimal: nothing, or `e` and a signed number. -/
def parseExponent : Bytes → Option Int
  | [] => some 0
  | e :: rest =>
    if e ≠ 101 ∧ e ≠ 69 then none
    else
      let digits := dropSign rest
      if digits ≠ [] ∧ digits.all isDigit then
        some (if rest.head? = some 45 then -(Format.ofDecimal digits : Int) else Format.ofDecimal digits)
      else none

/-- `value.parse::<f64>().is_ok_and(f64::is_finite)`: digits with at most one point among them and
an exponent, of a magnitude below the limit. `inf` and `nan` parse, and are not finite. -/
def isFiniteDecimal (value : Bytes) : Bool :=
  let body := dropSign value
  let whole := body.takeWhile isDigit
  let rest := body.dropWhile isDigit
  let (fraction, rest) := match rest with
    | 46 :: rest => (rest.takeWhile isDigit, rest.dropWhile isDigit)
    | rest => ([], rest)
  if whole = [] ∧ fraction = [] then false
  else match parseExponent rest with
    | none => false
    | some exponent =>
      let mantissa := Format.ofDecimal (whole ++ fraction)
      let scale := exponent - fraction.length
      if 0 ≤ scale then mantissa * 10 ^ scale.toNat < f64Limit
      else mantissa < f64Limit * 10 ^ (-scale).toNat

/-- `validate_decimal` (`data.rs:417-423`). -/
def validateDecimal (value : String) : Except Error Unit := do
  validateText "series decimal" value
  if ¬ isFiniteDecimal (utf8 value) then invalid "series decimal must be a finite numeric string"

end Data

/-! ## Vectors -/

/-- `MAX_VECTOR_DIMENSIONS` (`data.rs:10`). -/
def maxVectorDimensions : Nat := 1048576

namespace VectorValue

/-- `dimensions` (`data.rs:32-39`). -/
def dimensions : VectorValue → Nat
  | .dense values => values.length
  | .sparse dimensions _ _ => dimensions.toNat
  | .multiDense dimensions _ => dimensions.toNat

/-- `validate_finite` (`data.rs:380-385`). -/
def validateFinite (values : List F32) : Except Error Unit :=
  if values.any fun value => !Data.isFinite value then invalid "vector values must be finite" else .ok ()

/-- `indices.windows(2).any(|pair| pair[0] >= pair[1])`. -/
def outOfOrder : List UInt32 → Bool
  | first :: second :: rest => second ≤ first || outOfOrder (second :: rest)
  | _ => false

/-- `validate` (`data.rs:41-83`). -/
def validate (value : VectorValue) : Except Error Unit := do
  let dimensions := value.dimensions
  if dimensions = 0 ∨ maxVectorDimensions < dimensions then
    invalid s!"vector dimensions must be in 1..={maxVectorDimensions}, got {dimensions}"
  match value with
  | .dense values => validateFinite values
  | .sparse dimensions indices values =>
    if indices = [] ∨ indices.length ≠ values.length then
      invalid "sparse vector indices and values must have the same non-zero length"
    if indices.any fun index => dimensions ≤ index then
      invalid "sparse vector index exceeds declared dimensions"
    if outOfOrder indices then invalid "sparse vector indices must be strictly increasing"
    validateFinite values
  | .multiDense dimensions vectors =>
    if vectors = [] then invalid "multi-vector must contain at least one vector"
    vectors.forM fun vector => do
      if vector.length ≠ dimensions.toNat then
        invalid "every multi-vector row must match declared dimensions"
      validateFinite vector

/-- `normalized` (`data.rs:87-93`), in the arithmetic of `f64`. -/
def normalized (values : List F32) : Bool :=
  let squares := values.map fun value =>
    let value := (Float32.ofBits value).toFloat
    value * value
  let squaredNorm := squares.foldl (· + ·) 0
  (squaredNorm - 1.0).abs ≤ 1e-4

/-- `is_unit_l2` (`data.rs:85-97`). -/
def isUnitL2 : VectorValue → Bool
  | .dense values => normalized values
  | .sparse _ _ values => normalized values
  | .multiDense _ vectors => vectors.all normalized

end VectorValue

/-- `EmbeddingProvenance::validate` (`data.rs:121-132`). -/
def EmbeddingProvenance.validate (provenance : EmbeddingProvenance) (dimensions : Nat) :
    Except Error Unit := do
  Data.validateDigest "embedding source" provenance.sourceDigest
  Data.validateDigest "embedding model" provenance.modelDigest
  Data.validateText "embedding model" provenance.model
  let declared := provenance.dimensions
  if declared.toNat ≠ dimensions then
    invalid s!"embedding provenance dimensions {declared} do not match vector dimensions {dimensions}"

/-- `RuntimeVector::validate` (`data.rs:153-165`). -/
def RuntimeVector.validate (vector : RuntimeVector) : Except Error Unit := do
  Data.validateText "vector field" vector.field
  Data.validateWindow vector.validFrom vector.validTo
  vector.value.validate
  match vector.provenance with
  | none => pure ()
  | some provenance =>
    provenance.validate vector.value.dimensions
    if provenance.normalization = .unitL2 ∧ ¬ vector.value.isUnitL2 then
      invalid "vector marked unit_l2 is not unit normalized"

/-- `RuntimeSeriesSample::validate` (`data.rs:192-197`). -/
def RuntimeSeriesSample.validate (sample : RuntimeSeriesSample) : Except Error Unit :=
  match sample.value with
  | .decimal value => Data.validateDecimal value
  | _ => .ok ()

/-! ## Geometries -/

namespace Data

/-- `f64::is_finite`. -/
def isFinite64 (value : F64) : Bool := (value >>> 52) &&& 0x7ff ≠ 0x7ff

/-- The place of a number among the numbers of `f64`. Both zeros have place `0`. -/
def place (value : F64) : Int :=
  let magnitude := (value &&& 0x7fffffffffffffff).toNat
  if value &&& 0x8000000000000000 = 0 then magnitude else -magnitude

/-- The bits of `180.0`. -/
def f180 : F64 := 0x4066800000000000

/-- The bits of `90.0`. -/
def f90 : F64 := 0x4056800000000000

/-- `value.is_finite() && (-bound..=bound).contains(&value)`, for a positive bound. -/
def within (bound value : F64) : Bool :=
  isFinite64 value && (-place bound ≤ place value && place value ≤ place bound)

end Data

/-- `GeoPoint::validate` (`data.rs:207-215`). -/
def GeoPoint.validate (point : GeoPoint) : Except Error Unit := do
  if ¬ Data.within Data.f180 point.longitude then
    invalid "longitude must be finite and in [-180, 180]"
  if ¬ Data.within Data.f90 point.latitude then
    invalid "latitude must be finite and in [-90, 90]"

/-- `GeoValue::validate` (`data.rs:232-249`). -/
def GeoValue.validate : GeoValue → Except Error Unit
  | .point position => position.validate
  | .boundingBox southwest northeast => do
    southwest.validate
    northeast.validate
    if Data.place northeast.longitude < Data.place southwest.longitude ∨
        Data.place northeast.latitude < Data.place southwest.latitude then
      invalid "geo bounding box corners are inverted"

/-- `RuntimeGeo::validate` (`data.rs:267-271`). -/
def RuntimeGeo.validate (geo : RuntimeGeo) : Except Error Unit := do
  Data.validateText "geo field" geo.field
  Data.validateWindow geo.validFrom geo.validTo
  geo.value.validate

/-! ## Objects -/

namespace ObjectReference

/-- `canonical_key` (`data.rs:353-356`). -/
def canonicalKey (sha256 : String) : Except Error String := do
  Data.validateDigest "object" sha256
  let shard := String.ofList (sha256.toList.take 2)
  return s!"objects/sha256/{shard}/{sha256}"

/-- `validate` (`data.rs:358-377`). -/
def validate (object : ObjectReference) : Except Error Unit := do
  Data.validateDigest "object" object.sha256
  Data.validateText "object media type" object.mediaType
  Data.validateText "object backend" object.receipt.backend
  Data.validateText "object key" object.receipt.key
  match object.receipt.version with
  | some version => Data.validateText "object version" version
  | none => pure ()
  match object.receipt.etag with
  | some etag => Data.validateText "object ETag" etag
  | none => pure ()
  let expected ← canonicalKey object.sha256
  if object.receipt.key ≠ expected then
    let shown := debugText object.receipt.key
    let digest := object.sha256
    invalid s!"object key {shown} is not canonical for digest {digest}"

end ObjectReference

end Vyrm.Core
