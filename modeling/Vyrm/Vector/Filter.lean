import Mathlib.Data.List.Sort
import Vyrm.Core.Data

/-!
# Payload filters

`crates/vyrm-vector/src/filter.rs`: what a search may ask of the properties of a vector.
-/

namespace Vyrm.Vector
open Lib Vyrm.Core

/-- `FilterOperator` (`filter.rs:9-34`). -/
inductive FilterOperator where
  | equals (value : RuntimeValue)
  | notEquals (value : RuntimeValue)
  | in_ (values : List RuntimeValue)
  | range (gt gte lt lte : Option RuntimeValue)
  | exists_ (value : Bool)
  deriving DecidableEq

/-- `FilterCondition` (`filter.rs:36-41`). -/
structure FilterCondition where
  property : String
  operator : FilterOperator
  deriving DecidableEq

/-- `FilterExpression` (`filter.rs:43-50`). -/
inductive FilterExpression where
  | condition (condition : FilterCondition)
  | all (filters : List FilterExpression)
  | any (filters : List FilterExpression)
  | not (filter : FilterExpression)

def maxFilterDepth : Nat := 32
def maxFilterNodes : Nat := 4096

/-! ## Decimals -/

/-- `text.parse::<i64>().ok()`. -/
def parseI64 (text : Bytes) : Option Int :=
  let negative := text.head? = some 45
  let digits := if negative ∨ text.head? = some 43 then text.tail else text
  if digits = [] ∨ ¬ digits.all isDigit then none
  else
    let value : Int := if negative then -(Format.ofDecimal digits : Int) else Format.ofDecimal digits
    if -(2 ^ 63) ≤ value ∧ value < 2 ^ 63 then some value else none

/-- Sign, digits and exponent of a decimal. -/
structure DecimalParts where
  negative : Bool
  digits : Bytes
  exponent : Int
  deriving DecidableEq

/-- `decimal_parts` (`filter.rs:246-289`). -/
def decimalParts (value : Bytes) : Option DecimalParts := do
  let isExponent := fun byte : UInt8 => byte = 101 || byte = 69
  let mantissa := value.takeWhile fun byte => !isExponent byte
  let exponent ← match value.dropWhile fun byte => !isExponent byte with
    | [] => some 0
    | _ :: rest => do
      if rest.any isExponent then none
      let exponent ← parseI64 rest
      if 1000000 < exponent.natAbs then none else some exponent
  let negative := mantissa.head? = some 45
  let mantissa := if negative ∨ mantissa.head? = some 43 then mantissa.tail else mantissa
  let whole := mantissa.takeWhile (· ≠ 46)
  let fraction := (mantissa.dropWhile (· ≠ 46)).tail
  if 46 ∈ fraction ∨ (whole = [] ∧ fraction = []) ∨ ¬ (whole ++ fraction).all isDigit then none
  let digits := (whole ++ fraction).dropWhile (· = 48)
  if digits = [] then return ⟨false, [48], 0⟩
  let trailing := (digits.reverse.takeWhile (· = 48)).length
  return ⟨negative, digits.take (digits.length - trailing), exponent - fraction.length + trailing⟩

/-- The first difference of two digit strings, the shorter one filled up with zeros. -/
def compareDigits (left right : Bytes) : Ordering :=
  let left' := left ++ List.replicate (right.length - left.length) 48
  let right' := right ++ List.replicate (left.length - right.length) 48
  (left'.zip right').foldr (fun (a, b) rest => (compare a b).then rest) .eq

/-- `compare_decimal` (`filter.rs:212-244`). -/
def compareDecimal (left right : Bytes) : Option Ordering := do
  let left ← decimalParts left
  let right ← decimalParts right
  if left.digits = [48] ∧ right.digits = [48] then return .eq
  if left.negative ≠ right.negative then return if left.negative then .lt else .gt
  let magnitude := compare (left.digits.length + left.exponent) (right.digits.length + right.exponent)
  let ordering := magnitude.then (compareDigits left.digits right.digits)
  return if left.negative then ordering.swap else ordering

example : compareDecimal [49, 46, 50, 48, 101, 50] [49, 50, 48] = some .eq := by decide +kernel

/-- `is_orderable` (`filter.rs:182-188`). -/
def isOrderable : RuntimeValue → Bool
  | .integer _ | .unsigned _ | .string _ => true
  | .decimal value => (decimalParts (utf8 value)).isSome
  | _ => false

/-- `compare_values` (`filter.rs:190-210`). -/
def compareValues : RuntimeValue → RuntimeValue → Option Ordering
  | .integer left, .integer right => some (compare left.toInt right.toInt)
  | .unsigned left, .unsigned right => some (compare left right)
  | .integer left, .unsigned right => some (compare left.toInt (right.toNat : Int))
  | .unsigned left, .integer right => some (compare (left.toNat : Int) right.toInt)
  | .decimal left, .decimal right => compareDecimal (utf8 left) (utf8 right)
  | .string left, .string right => some (compare (utf8 left) (utf8 right))
  | _, _ => none

/-! ## Filters -/

namespace FilterCondition

/-- A name of a property, of a field or of a model (`filter.rs:112`, `contract.rs:136`). -/
def isName (value : String) : Prop := ¬ trimIsEmpty value ∧ (0 : UInt8) ∉ utf8 value

instance (value : String) : Decidable (isName value) := inferInstanceAs (Decidable (_ ∧ _))

/-- The bounds of a range (`filter.rs:119-153`). -/
def validateRange (gt gte lt lte : Option RuntimeValue) : Except Error Unit :=
  if gt.isSome ∧ gte.isSome then invalid "vector range filter cannot set both gt and gte"
  else if lt.isSome ∧ lte.isSome then invalid "vector range filter cannot set both lt and lte"
  else if gt.isNone ∧ gte.isNone ∧ lt.isNone ∧ lte.isNone then invalid "vector range filter must declare a bound"
  else if ∃ value ∈ [gt, gte, lt, lte].reduceOption, ¬ isOrderable value then
    invalid "vector range bounds must be integer, unsigned, decimal, or string"
  else
    match gt.or gte, lt.or lte with
    | some lower, some upper =>
      match compareValues lower upper with
      | none => invalid "vector range bounds use incompatible value types"
      | some ordering =>
        if ordering = .gt ∨ (ordering = .eq ∧ (gt.isSome ∨ lt.isSome)) then
          invalid "vector range lower bound must precede its upper bound"
        else .ok ()
    | _, _ => .ok ()

/-- `FilterCondition::validate` (`filter.rs:109-152`). -/
def validate (condition : FilterCondition) : Except Error Unit :=
  if ¬ isName condition.property then
    invalid "vector filter property must be non-empty and contain no NUL bytes"
  else
    match condition.operator with
    | .in_ [] => invalid "vector in filter must contain at least one value"
    | .range gt gte lt lte => validateRange gt gte lt lte
    | _ => .ok ()

/-- `FilterCondition::matches` (`filter.rs:154-179`). -/
def matches_ (condition : FilterCondition) (properties : RuntimeProperties) : Bool :=
  let actual := properties.lookup condition.property
  match condition.operator with
  | .equals value => actual = some value
  | .notEquals value => actual.any (· ≠ value)
  | .in_ values => actual.any (· ∈ values)
  | .exists_ value => actual.isSome = value
  | .range gt gte lt lte => actual.any fun actual =>
      gt.all (fun bound => compareValues actual bound = some .gt) &&
      gte.all (fun bound => (compareValues actual bound).any (· ≠ .lt)) &&
      lt.all (fun bound => compareValues actual bound = some .lt) &&
      lte.all (fun bound => (compareValues actual bound).any (· ≠ .gt))

end FilterCondition

namespace FilterExpression

mutual

/-- `FilterExpression::matches` (`filter.rs:58-65`). -/
def matches_ : FilterExpression → RuntimeProperties → Bool
  | .condition asked, properties => asked.matches_ properties
  | .all filters, properties => allMatch filters properties
  | .any filters, properties => anyMatch filters properties
  | .not filter, properties => !filter.matches_ properties

def allMatch : List FilterExpression → RuntimeProperties → Bool
  | [], _ => true
  | filter :: rest, properties => filter.matches_ properties && allMatch rest properties

def anyMatch : List FilterExpression → RuntimeProperties → Bool
  | [], _ => false
  | filter :: rest, properties => filter.matches_ properties || anyMatch rest properties

end

mutual

/-- `collect_properties` (`filter.rs:95-105`). -/
def collectProperties : FilterExpression → List String
  | .condition asked => [asked.property]
  | .all filters => collectAll filters
  | .any filters => collectAll filters
  | .not filter => filter.collectProperties

def collectAll : List FilterExpression → List String
  | [] => []
  | filter :: rest => filter.collectProperties ++ collectAll rest

end

/-- `referenced_properties` (`filter.rs:67-73`). -/
def referencedProperties (filter : FilterExpression) : List String :=
  filter.collectProperties.dedup.insertionSort fun a b => utf8 a ≤ utf8 b

mutual

/-- `validate_at` (`filter.rs:75-94`), with the nodes counted so far. -/
def validateAt : FilterExpression → Nat → Nat → Except Error Nat
  | filter, depth, nodes =>
    if maxFilterDepth < depth ∨ maxFilterNodes < nodes + 1 then
      invalid "vector filter exceeds depth or node limit"
    else
      match filter with
      | .condition asked => do
        asked.validate
        return nodes + 1
      | .all [] => invalid "vector all/any filter must contain at least one child"
      | .any [] => invalid "vector all/any filter must contain at least one child"
      | .all filters => validateEach filters depth (nodes + 1)
      | .any filters => validateEach filters depth (nodes + 1)
      | .not filter => filter.validateAt (depth + 1) (nodes + 1)

def validateEach : List FilterExpression → Nat → Nat → Except Error Nat
  | [], _, nodes => .ok nodes
  | filter :: rest, depth, nodes => do
    let nodes ← filter.validateAt (depth + 1) nodes
    validateEach rest depth nodes

end

/-- `FilterExpression::validate` (`filter.rs:53-56`). -/
def validate (filter : FilterExpression) : Except Error Unit := do
  let _ ← filter.validateAt 0 0

end FilterExpression

end Vyrm.Vector
