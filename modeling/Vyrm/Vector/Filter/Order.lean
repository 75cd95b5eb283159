import Mathlib.Algebra.Order.Field.Power
import Mathlib.Algebra.Order.Field.Rat
import Mathlib.Data.List.ReduceOption
import Mathlib.Data.List.TakeWhile
import Mathlib.Data.Prod.Lex
import Mathlib.Tactic.Linarith
import Vyrm.Lib.Digits
import Vyrm.Vector.Filter

/-!
# The order of payload values

The comparisons of `crates/vyrm-vector/src/filter.rs` against the numbers that the values denote. The
digits of zero are written as one digit, so that zero is compared as if it were just below one.
-/

namespace Vyrm.Vector
open Lib Vyrm.Core

/-! ## What a decimal denotes -/

/-- A decimal as it is spelled: its sign, the digits before and after its point, and its exponent. -/
structure Decimal where
  negative : Bool
  whole : Bytes
  fraction : Bytes
  exponent : Int
  deriving DecidableEq

namespace Decimal

/-- The exponent of a decimal, which is behind the mark. -/
def readExponent (value : Bytes) : Option Int :=
  let isExponent := fun byte : UInt8 => byte = 101 || byte = 69
  match value.dropWhile fun byte => !isExponent byte with
  | [] => some 0
  | _ :: rest => do
    if rest.any isExponent then none
    let exponent ← parseI64 rest
    if 1000000 < exponent.natAbs then none else some exponent

/-- A decimal, read part by part. -/
def read (value : Bytes) : Option Decimal := do
  let isExponent := fun byte : UInt8 => byte = 101 || byte = 69
  let mantissa := value.takeWhile fun byte => !isExponent byte
  let exponent ← readExponent value
  let negative := mantissa.head? = some 45
  let mantissa := if negative ∨ mantissa.head? = some 43 then mantissa.tail else mantissa
  let whole := mantissa.takeWhile (· ≠ 46)
  let fraction := (mantissa.dropWhile (· ≠ 46)).tail
  if 46 ∈ fraction ∨ (whole = [] ∧ fraction = []) ∨ ¬ (whole ++ fraction).all isDigit then none
  else some ⟨negative, whole, fraction, exponent⟩

/-- The number that a decimal denotes. -/
def toRat (decimal : Decimal) : ℚ :=
  (if decimal.negative then -1 else 1) *
    (Format.ofDecimal (decimal.whole ++ decimal.fraction) * 10 ^ (decimal.exponent - decimal.fraction.length))

/-- The parts of a decimal, without zeros in front of them or behind them. -/
def parts (decimal : Decimal) : DecimalParts :=
  let digits := (decimal.whole ++ decimal.fraction).dropWhile (· = 48)
  if digits = [] then ⟨false, [48], 0⟩
  else
    let trailing := (digits.reverse.takeWhile (· = 48)).length
    ⟨decimal.negative, digits.take (digits.length - trailing), decimal.exponent - decimal.fraction.length + trailing⟩

/-- The digits that are read last, and their parts. -/
theorem parts_mantissa (negative : Prop) [Decidable negative] (whole fraction : Bytes) (exponent : Int) :
    (do
      if 46 ∈ fraction ∨ (whole = [] ∧ fraction = []) ∨ ¬ (whole ++ fraction).all isDigit then none
      let digits := (whole ++ fraction).dropWhile (· = 48)
      if digits = [] then return ⟨false, [48], 0⟩
      let trailing := (digits.reverse.takeWhile (· = 48)).length
      return ⟨negative, digits.take (digits.length - trailing), exponent - fraction.length + trailing⟩ :
        Option DecimalParts) =
      (if 46 ∈ fraction ∨ (whole = [] ∧ fraction = []) ∨ ¬ (whole ++ fraction).all isDigit then none
        else some ⟨negative, whole, fraction, exponent⟩ : Option Decimal).map parts := by
  split
  · rfl
  · rw [Option.map_some, parts]
    dsimp only
    split
    · rfl
    · rfl

/-- The parts of a text are those of the decimal that it spells. -/
theorem parts_read (value : Bytes) : decimalParts value = (read value).map parts := by
  unfold decimalParts read readExponent
  dsimp only
  generalize (value.dropWhile fun byte : UInt8 => !(decide (byte = 101) || decide (byte = 69))) = behind
  cases behind with
  | nil => apply parts_mantissa
  | cons mark rest =>
    dsimp only
    split
    · rfl
    cases parseI64 rest with
    | none => rfl
    | some exponent =>
      simp only [Option.bind_eq_bind, Option.bind_some]
      split
      · rfl
      · apply parts_mantissa

theorem all_read {value : Bytes} {decimal : Decimal} (isRead : read value = some decimal) :
    (decimal.whole ++ decimal.fraction).all isDigit = true := by
  obtain ⟨exponent, -, isRead⟩ := Option.bind_eq_some_iff.mp isRead
  obtain ⟨accepted, same⟩ := Option.ite_none_left_eq_some.mp isRead
  cases same
  exact not_not.mp fun other => accepted (.inr (.inr other))

end Decimal

namespace DecimalParts

/-- The number that the parts of a decimal denote. -/
def toRat (parts : DecimalParts) : ℚ :=
  (if parts.negative then -1 else 1) * (Format.ofDecimal parts.digits * 10 ^ parts.exponent)

/-- Parts as they come of a decimal: those of zero, or digits that do not start with a zero. -/
inductive Normal : DecimalParts → Prop where
  | zero : Normal ⟨false, [48], 0⟩
  | digits {negative : Bool} {first : UInt8} {rest : Bytes} {exponent : Int} (digit : isDigit first = true)
      (notZero : first ≠ 48) (all : rest.all isDigit = true) : Normal ⟨negative, first :: rest, exponent⟩

end DecimalParts

theorem takeWhile_eq_replicate {byte : UInt8} (digits : Bytes) :
    digits.takeWhile (· = byte) = List.replicate (digits.takeWhile (· = byte)).length byte :=
  List.eq_replicate_iff.mpr ⟨rfl, fun _ member =>
    of_decide_eq_true (List.mem_takeWhile_imp (p := fun other => decide (other = byte)) member)⟩

/-- A string without the zeros at its end, and these. -/
theorem take_append_trailing (digits : Bytes) :
    digits.take (digits.length - (digits.reverse.takeWhile (· = 48)).length) ++
      List.replicate (digits.reverse.takeWhile (· = 48)).length 48 = digits := by
  have whole := congrArg List.reverse
    (List.takeWhile_append_dropWhile (p := fun byte => decide (byte = (48 : UInt8))) (l := digits.reverse))
  rw [List.reverse_append, List.reverse_reverse, takeWhile_eq_replicate, List.reverse_replicate] at whole
  generalize (digits.reverse.takeWhile (· = 48)).length = trailing at whole ⊢
  generalize (digits.reverse.dropWhile fun byte => decide (byte = 48)).reverse = core at whole
  subst whole
  simp

namespace Decimal

variable {decimal : Decimal}

theorem normal_parts (all : (decimal.whole ++ decimal.fraction).all isDigit = true) : decimal.parts.Normal := by
  unfold parts
  dsimp only
  split
  · exact .zero
  next some_ =>
    have suffix := List.dropWhile_suffix (l := decimal.whole ++ decimal.fraction) (· = (48 : UInt8))
    have first := List.head_dropWhile_not (· = (48 : UInt8)) some_
    generalize (decimal.whole ++ decimal.fraction).dropWhile (· = 48) = digits at some_ suffix first ⊢
    have all : digits.all isDigit = true := by
      rw [List.all_eq_true] at all ⊢
      exact fun byte member => all byte (suffix.subset member)
    have back := take_append_trailing digits
    generalize (digits.reverse.takeWhile (· = 48)).length = trailing at back ⊢
    generalize digits.take (digits.length - trailing) = core at back ⊢
    subst back
    cases core with
    | nil =>
      cases trailing with
      | zero => exact absurd rfl some_
      | succ trailing => simp [List.replicate_succ] at first
    | cons byte core =>
      rw [List.cons_append, List.all_cons, Bool.and_eq_true, List.all_append, Bool.and_eq_true] at all
      exact .digits all.1 (of_decide_eq_false first) all.2.1

/-- The parts of a decimal denote what it denotes. -/
theorem toRat_parts : decimal.parts.toRat = decimal.toRat := by
  have front := List.takeWhile_append_dropWhile (p := fun byte => decide (byte = (48 : UInt8)))
    (l := decimal.whole ++ decimal.fraction)
  rw [takeWhile_eq_replicate] at front
  have number : Format.ofDecimal (decimal.whole ++ decimal.fraction) =
      Format.ofDecimal ((decimal.whole ++ decimal.fraction).dropWhile (· = 48)) := by
    conv_lhs => rw [← front, Format.ofDecimal_append, Format.ofDecimal_zeros, Nat.zero_mul, Nat.zero_add]
  rw [parts, toRat, number]
  dsimp only
  split
  next none_ =>
    rw [none_]
    simp [DecimalParts.toRat, Format.ofDecimal]
  next some_ =>
    generalize (decimal.whole ++ decimal.fraction).dropWhile (· = 48) = digits
    have back := take_append_trailing digits
    generalize (digits.reverse.takeWhile (· = 48)).length = trailing at back ⊢
    generalize digits.take (digits.length - trailing) = core at back ⊢
    rw [DecimalParts.toRat, ← back, Format.ofDecimal_append, Format.ofDecimal_zeros, List.length_replicate,
      zpow_add₀ (by norm_num), zpow_natCast]
    push_cast
    ring

end Decimal

/-! ## Positive decimals -/

section

variable {left right : Bytes} {e e' : Int}

theorem compare_scaled {n m : Nat} {scale : ℚ} (positive : 0 < scale) :
    compare ((n : ℚ) * scale) (m * scale) = compare n m := by
  have mono : StrictMono fun k : Nat => (k : ℚ) * scale := fun _ _ less =>
    mul_lt_mul_of_pos_right (Nat.cast_lt.mpr less) positive
  have same := mono.cmp_map_eq n m
  rwa [cmp_eq_compare, cmp_eq_compare] at same

theorem compareDigits_eq (leftDigits : left.all isDigit = true) (rightDigits : right.all isDigit = true) :
    compareDigits left right = compare (Format.ofDecimal left * 10 ^ (right.length - left.length))
      (Format.ofDecimal right * 10 ^ (left.length - right.length)) := by
  have zeros : ∀ n, (List.replicate n (48 : UInt8)).all isDigit = true := fun n => by
    rw [List.all_replicate]
    split
    · rfl
    · rfl
  have padded : Format.firstDifference (left ++ List.replicate (right.length - left.length) 48)
      (right ++ List.replicate (left.length - right.length) 48) = _ := Format.firstDifference_eq
    (by simp only [List.length_append, List.length_replicate]; omega)
    (by rw [List.all_append, leftDigits, zeros]; rfl) (by rw [List.all_append, rightDigits, zeros]; rfl)
  simp only [Format.ofDecimal_append, Format.ofDecimal_zeros, List.length_replicate, Nat.add_zero] at padded
  exact padded

/-- Decimals of one magnitude are compared digit by digit. -/
theorem compareDigits_scaled (leftDigits : left.all isDigit = true) (rightDigits : right.all isDigit = true)
    (sameMagnitude : left.length + e = right.length + e') : compareDigits left right =
      compare ((Format.ofDecimal left : ℚ) * 10 ^ e) (Format.ofDecimal right * 10 ^ e') := by
  have scaled : ∀ (n k : Nat) (z : Int), ((n * 10 ^ k : Nat) : ℚ) * 10 ^ (z - k) = n * 10 ^ z := by
    intro n k z
    rw [zpow_sub₀ (by norm_num), zpow_natCast]
    push_cast
    rw [mul_assoc, mul_div_assoc', mul_div_cancel_left₀ _ (pow_ne_zero _ (by norm_num))]
  have sameScale : e - (right.length - left.length : Nat) = e' - (left.length - right.length : Nat) := by omega
  rw [compareDigits_eq leftDigits rightDigits, ← scaled _ (right.length - left.length) e,
    ← scaled _ (left.length - right.length) e', sameScale, compare_scaled (by positivity)]

/-- A decimal that does not start with a zero has the magnitude of its digits and its exponent. -/
theorem magnitude_bounds {first : UInt8} {rest : Bytes} (digit : isDigit first = true) (notZero : first ≠ 48)
    (all : rest.all isDigit = true) : (10 : ℚ) ^ (rest.length + e) ≤ Format.ofDecimal (first :: rest) * 10 ^ e ∧
      (Format.ofDecimal (first :: rest) * 10 ^ e : ℚ) < 10 ^ (rest.length + 1 + e) := by
  have low : 10 ^ rest.length ≤ Format.ofDecimal (first :: rest) := Format.le_ofDecimal digit notZero
  have high : Format.ofDecimal (first :: rest) < 10 ^ (first :: rest).length :=
    Format.ofDecimal_lt (by rw [List.all_cons, digit, all]; rfl)
  rw [List.length_cons] at high
  have scale : (0 : ℚ) < 10 ^ e := by positivity
  constructor
  · rw [zpow_add₀ (by norm_num), zpow_natCast]
    exact mul_le_mul_of_nonneg_right (by exact_mod_cast low) scale.le
  · rw [zpow_add₀ (by norm_num)]
    refine mul_lt_mul_of_pos_right ?_ scale
    exact_mod_cast high

end

/-! ## Comparison -/

namespace DecimalParts

/-- What `compare_decimal` does with the parts of two decimals (`filter.rs:212-244`). -/
def order (left right : DecimalParts) : Ordering :=
  if left.digits = [48] ∧ right.digits = [48] then .eq
  else if left.negative ≠ right.negative then (if left.negative then .lt else .gt)
  else
    let magnitude := compare (left.digits.length + left.exponent) (right.digits.length + right.exponent)
    let ordering := magnitude.then (compareDigits left.digits right.digits)
    if left.negative then ordering.swap else ordering

theorem compareDecimal_eq (left right : Bytes) :
    compareDecimal left right = do return (← decimalParts left).order (← decimalParts right) := by
  unfold compareDecimal
  cases decimalParts left with
  | none => rfl
  | some left =>
    cases decimalParts right with
    | none => rfl
    | some right =>
      simp only [Option.bind_eq_bind, Option.bind_some, order]
      split
      · rfl
      split
      · split
        · rfl
        · rfl
      · split
        · rfl
        · rfl

/-- Where the comparison has a number: zero is just below one. -/
def rank (x : ℚ) : ℚ ×ₗ Nat := if x = 0 then toLex (1, 0) else toLex (x, 1)

end DecimalParts

section

variable {first first' : UInt8} {rest rest' : Bytes} {e e' : Int}

/-- Of decimals that do not start with zeros, the magnitudes decide, or else the digits. -/
theorem compare_positive (digit : isDigit first = true) (notZero : first ≠ 48) (all : rest.all isDigit = true)
    (digit' : isDigit first' = true) (notZero' : first' ≠ 48) (all' : rest'.all isDigit = true) :
    (compare ((first :: rest).length + e) ((first' :: rest').length + e')).then
        (compareDigits (first :: rest) (first' :: rest')) =
      compare ((Format.ofDecimal (first :: rest) : ℚ) * 10 ^ e) (Format.ofDecimal (first' :: rest') * 10 ^ e') := by
  obtain ⟨low, high⟩ := magnitude_bounds (e := e) digit notZero all
  obtain ⟨low', high'⟩ := magnitude_bounds (e := e') digit' notZero' all'
  simp only [List.length_cons, Nat.cast_add, Nat.cast_one]
  rcases lt_trichotomy ((rest.length : Int) + 1 + e) (rest'.length + 1 + e') with less | same | more
  · have between : (10 : ℚ) ^ (rest.length + 1 + e) ≤ 10 ^ (rest'.length + e') :=
      zpow_le_zpow_right₀ (by norm_num) (by omega)
    rw [compare_lt_iff_lt.mpr less, Ordering.lt_then, eq_comm, compare_lt_iff_lt]
    linarith
  · rw [compare_eq_iff_eq.mpr same, Ordering.eq_then]
    refine compareDigits_scaled (by rw [List.all_cons, digit, all]; rfl) (by rw [List.all_cons, digit', all']; rfl) ?_
    simpa using same
  · have between : (10 : ℚ) ^ (rest'.length + 1 + e') ≤ 10 ^ (rest.length + e) :=
      zpow_le_zpow_right₀ (by norm_num) (by omega)
    rw [compare_gt_iff_gt.mpr more, Ordering.gt_then, eq_comm, compare_gt_iff_gt]
    linarith

/-- A decimal that does not start with a zero is not zero, and its magnitude says on which side of one it is. -/
theorem positive_and_lt_one_iff (digit : isDigit first = true) (notZero : first ≠ 48) (all : rest.all isDigit = true) :
    (0 : ℚ) < Format.ofDecimal (first :: rest) * 10 ^ e ∧
      ((Format.ofDecimal (first :: rest) * 10 ^ e : ℚ) < 1 ↔ rest.length + 1 + e ≤ 0) := by
  obtain ⟨low, high⟩ := magnitude_bounds (e := e) digit notZero all
  have positive : (0 : ℚ) < 10 ^ (rest.length + e) := by positivity
  refine ⟨lt_of_lt_of_le positive low, ?_⟩
  constructor
  · intro small
    by_contra large
    have above : (1 : ℚ) ≤ 10 ^ (rest.length + e) := one_le_zpow₀ (by norm_num) (by omega)
    linarith
  · intro small
    have below : (10 : ℚ) ^ (rest.length + 1 + e) ≤ 1 := zpow_le_one_of_nonpos₀ (by norm_num) small
    linarith

/-- Zero, which has one digit, is above what is below one and below the rest. -/
theorem compare_zero_digits (digit : isDigit first = true) (notZero : first ≠ 48) :
    (compare (([48] : Bytes).length + (0 : Int)) ((first :: rest).length + e)).then (compareDigits [48] (first :: rest)) =
      if rest.length + 1 + e ≤ 0 then .gt else .lt := by
  have above : (48 : UInt8) < first := by
    have bounds := Format.bounds_of_isDigit digit
    have differs : first.toNat ≠ 48 := fun same => notZero (UInt8.toNat_inj.mp same)
    rw [UInt8.lt_iff_toNat_lt]
    show 48 < first.toNat
    omega
  have digits : compareDigits [48] (first :: rest) = .lt := by
    simp [compareDigits, Std.compare_eq_lt.mpr above]
  rw [digits]
  simp only [List.length_cons, List.length_nil, Nat.cast_add, Nat.cast_one]
  split
  next small => rw [compare_gt_iff_gt.mpr (by simp; omega), Ordering.gt_then]
  next large =>
    rcases lt_or_eq_of_le (show (0 : Int) + 1 + 0 ≤ rest.length + 1 + e by omega) with less | same
    · rw [compare_lt_iff_lt.mpr (by simpa using less), Ordering.lt_then]
    · rw [compare_eq_iff_eq.mpr (by simpa using same), Ordering.eq_then]

theorem compare_digits_zero (digit : isDigit first = true) (notZero : first ≠ 48) (all : rest.all isDigit = true) :
    (compare ((first :: rest).length + e) (([48] : Bytes).length + (0 : Int))).then (compareDigits (first :: rest) [48]) =
      if rest.length + 1 + e ≤ 0 then .lt else .gt := by
  have digits : (first :: rest).all isDigit = true := by rw [List.all_cons, digit, all]; rfl
  have swapped := congrArg Ordering.swap (@compare_zero_digits first rest e digit notZero)
  rw [Ordering.swap_then, compareDigits_eq rfl digits, Std.OrientedCmp.eq_swap.symm, Std.OrientedCmp.eq_swap.symm,
    ← compareDigits_eq digits rfl] at swapped
  rw [swapped]
  split
  · rfl
  · rfl

end

namespace DecimalParts

theorem compare_rank {x y : ℚ} (left : x ≠ 0) (right : y ≠ 0) : compare (rank x) (rank y) = compare x y := by
  have mono : StrictMono fun z : ℚ => (toLex (z, 1) : ℚ ×ₗ Nat) := fun _ _ less => Prod.Lex.toLex_lt_toLex.mpr (.inl less)
  have same := mono.cmp_map_eq x y
  rw [rank, rank, if_neg left, if_neg right]
  rwa [cmp_eq_compare, cmp_eq_compare] at same

theorem rank_lt_rank_zero_iff {x : ℚ} (left : x ≠ 0) : rank x < rank 0 ↔ x < 1 := by
  rw [rank, rank, if_pos rfl, if_neg left, Prod.Lex.toLex_lt_toLex]
  simp

theorem rank_zero_lt_rank_iff {x : ℚ} (right : x ≠ 0) : rank 0 < rank x ↔ 1 ≤ x := by
  rw [rank, rank, if_pos rfl, if_neg right, Prod.Lex.toLex_lt_toLex]
  simp [le_iff_lt_or_eq]

theorem toRat_zero : toRat ⟨false, [48], 0⟩ = 0 := by simp [toRat, Format.ofDecimal]

theorem toRat_positive (digits : Bytes) (e : Int) : toRat ⟨false, digits, e⟩ = Format.ofDecimal digits * 10 ^ e :=
  one_mul _

theorem toRat_negative (digits : Bytes) (e : Int) :
    toRat ⟨true, digits, e⟩ = -1 * (Format.ofDecimal digits * 10 ^ e) := rfl

theorem compare_neg (x y : ℚ) : compare (-1 * x) (-1 * y) = (compare x y).swap := by
  have anti : StrictAnti fun z : ℚ => -1 * z := fun _ _ less => by dsimp only; linarith
  have same := anti.cmp_map_eq x y
  rw [cmp_eq_compare, cmp_eq_compare] at same
  rw [same, ← Std.OrientedCmp.eq_swap]

/-- The comparison is that of the ranks. -/
theorem order_eq {left right : DecimalParts} (leftNormal : left.Normal) (rightNormal : right.Normal) :
    left.order right = compare (rank left.toRat) (rank right.toRat) := by
  cases leftNormal with
  | zero =>
    cases rightNormal with
    | zero => rw [order, if_pos ⟨rfl, rfl⟩, compare_eq_iff_eq.mpr rfl]
    | @digits negative first rest e digit notZero all =>
      obtain ⟨positive, small⟩ := positive_and_lt_one_iff (e := e) digit notZero all
      have other : ¬ (([48] : Bytes) = [48] ∧ first :: rest = [48]) := fun same => notZero (List.cons.inj same.2).1
      rw [order, if_neg other, toRat_zero]
      cases negative with
      | true =>
        rw [if_pos Bool.false_ne_true, if_neg Bool.false_ne_true, toRat_negative, eq_comm, compare_gt_iff_gt]
        exact (rank_lt_rank_zero_iff (by linarith)).mpr (by linarith)
      | false =>
        simp only [ne_eq, not_true_eq_false, if_false, Bool.false_eq_true]
        rw [compare_zero_digits digit notZero, toRat_positive]
        split
        next below => rw [eq_comm, compare_gt_iff_gt, rank_lt_rank_zero_iff positive.ne', small]; exact below
        next above =>
          rw [eq_comm, compare_lt_iff_lt, rank_zero_lt_rank_iff positive.ne']
          exact not_lt.mp fun less => above (small.mp less)
  | @digits negative first rest e digit notZero all =>
    obtain ⟨positive, small⟩ := positive_and_lt_one_iff (e := e) digit notZero all
    have other : ∀ digits : Bytes, ¬ (first :: rest = [48] ∧ digits = [48]) := fun _ same =>
      notZero (List.cons.inj same.1).1
    cases rightNormal with
    | zero =>
      rw [order, if_neg (other _), toRat_zero]
      cases negative with
      | true =>
        rw [if_pos Bool.false_ne_true.symm, if_pos rfl, toRat_negative, eq_comm, compare_lt_iff_lt]
        exact (rank_lt_rank_zero_iff (by linarith)).mpr (by linarith)
      | false =>
        simp only [ne_eq, not_true_eq_false, if_false, Bool.false_eq_true]
        rw [compare_digits_zero digit notZero all, toRat_positive]
        split
        next below => rw [eq_comm, compare_lt_iff_lt, rank_lt_rank_zero_iff positive.ne', small]; exact below
        next above =>
          rw [eq_comm, compare_gt_iff_gt, rank_zero_lt_rank_iff positive.ne']
          exact not_lt.mp fun less => above (small.mp less)
    | @digits negative' first' rest' e' digit' notZero' all' =>
      obtain ⟨positive', -⟩ := positive_and_lt_one_iff (e := e') digit' notZero' all'
      have digits := @compare_positive first first' rest rest' e e' digit notZero all digit' notZero' all'
      rw [order, if_neg (other _)]
      cases negative with
      | true =>
        cases negative' with
        | true =>
          simp only [ne_eq, not_true_eq_false, if_false, if_true, toRat_negative]
          rw [digits, compare_rank (by linarith) (by linarith), compare_neg]
        | false =>
          rw [if_pos Bool.false_ne_true.symm, if_pos rfl, toRat_negative, toRat_positive, compare_rank (by linarith) positive'.ne',
            eq_comm, compare_lt_iff_lt]
          linarith
      | false =>
        cases negative' with
        | true =>
          rw [if_pos Bool.false_ne_true, if_neg Bool.false_ne_true, toRat_negative, toRat_positive,
            compare_rank positive.ne' (by linarith), eq_comm, compare_gt_iff_gt]
          linarith
        | false =>
          simp only [ne_eq, not_true_eq_false, if_false, Bool.false_eq_true, toRat_positive]
          rw [digits, compare_rank positive.ne' positive'.ne']

end DecimalParts

/-! ## What the comparison says of the numbers -/

/-- The number that a text denotes, if it is a decimal. -/
def decimalValue (value : Bytes) : Option ℚ := (Decimal.read value).map Decimal.toRat

theorem isSome_decimalValue (value : Bytes) : (decimalValue value).isSome = (decimalParts value).isSome := by
  rw [decimalValue, Decimal.parts_read, Option.isSome_map, Option.isSome_map]

/-- Two decimals are compared by the ranks of the numbers that they denote. -/
theorem compareDecimal_eq_rank (left right : Bytes) : compareDecimal left right = do
    return compare (DecimalParts.rank (← decimalValue left)) (DecimalParts.rank (← decimalValue right)) := by
  rw [DecimalParts.compareDecimal_eq, Decimal.parts_read, Decimal.parts_read, decimalValue, decimalValue]
  cases isLeft : Decimal.read left with
  | none => rfl
  | some left =>
    cases isRight : Decimal.read right with
    | none => rfl
    | some right =>
      simp only [Option.map_some, Option.bind_eq_bind, Option.bind_some, Option.pure_def, Option.some.injEq]
      rw [DecimalParts.order_eq (Decimal.normal_parts (Decimal.all_read isLeft))
        (Decimal.normal_parts (Decimal.all_read isRight)), Decimal.toRat_parts, Decimal.toRat_parts]

/-- One number is zero, and the other one is between zero and one. -/
def Straddles (x y : ℚ) : Prop := x = 0 ∧ 0 < y ∧ y < 1 ∨ y = 0 ∧ 0 < x ∧ x < 1

open DecimalParts in
/-- The ranks are in the order of the numbers unless one of these is zero and the other one below one. -/
theorem compare_rank_iff (x y : ℚ) : compare (rank x) (rank y) = compare x y ↔ ¬ Straddles x y := by
  by_cases left : x = 0
  · subst left
    by_cases right : y = 0
    · subst right
      simp [Straddles]
    · rcases lt_or_ge y 1 with below | above
      · rw [compare_gt_iff_gt.mpr ((rank_lt_rank_zero_iff right).mpr below), eq_comm, compare_gt_iff_gt]
        simp only [Straddles, right, below, true_and, and_true, false_and, or_false, not_lt]
        exact ⟨le_of_lt, fun atMost => lt_of_le_of_ne atMost right⟩
      · rw [compare_lt_iff_lt.mpr ((rank_zero_lt_rank_iff right).mpr above), eq_comm, compare_lt_iff_lt]
        simp [Straddles, right, not_lt.mpr above]
        linarith
  · by_cases right : y = 0
    · subst right
      rcases lt_or_ge x 1 with below | above
      · rw [compare_lt_iff_lt.mpr ((rank_lt_rank_zero_iff left).mpr below), eq_comm, compare_lt_iff_lt]
        simp only [Straddles, left, below, true_and, and_true, false_and, false_or, not_lt]
        exact ⟨le_of_lt, fun atMost => lt_of_le_of_ne atMost left⟩
      · rw [compare_gt_iff_gt.mpr ((rank_zero_lt_rank_iff left).mpr above), eq_comm, compare_gt_iff_gt]
        simp [Straddles, left, not_lt.mpr above]
        linarith
    · rw [compare_rank left right]
      simp [Straddles, left, right]

/-! ## Values -/

/-- What a value is compared by: an integer, the rank of a decimal, or a text. -/
inductive OrderKey where
  | integer (value : Int)
  | decimal (rank : ℚ ×ₗ Nat)
  | text (value : Bytes)

/-- The order of keys of one class. -/
def OrderKey.compare : OrderKey → OrderKey → Option Ordering
  | .integer left, .integer right => some (Ord.compare left right)
  | .decimal left, .decimal right => some (Ord.compare left right)
  | .text left, .text right => some (Ord.compare left right)
  | _, _ => none

/-- The key of an orderable value. -/
def orderKey : RuntimeValue → Option OrderKey
  | .integer value => some (.integer value.toInt)
  | .unsigned value => some (.integer value.toNat)
  | .decimal value => (decimalValue (utf8 value)).map fun x => .decimal (DecimalParts.rank x)
  | .string value => some (.text (utf8 value))
  | _ => none

/-- The order of the numbers and the texts that values stand for. -/
def valueOrder : RuntimeValue → RuntimeValue → Option Ordering
  | .integer left, .integer right => some (compare left.toInt right.toInt)
  | .unsigned left, .unsigned right => some (compare (left.toNat : Int) right.toNat)
  | .integer left, .unsigned right => some (compare left.toInt (right.toNat : Int))
  | .unsigned left, .integer right => some (compare (left.toNat : Int) right.toInt)
  | .decimal left, .decimal right => do return compare (← decimalValue (utf8 left)) (← decimalValue (utf8 right))
  | .string left, .string right => some (compare (utf8 left) (utf8 right))
  | _, _ => none

/-- Two decimals of which one is zero and the other one between zero and one. -/
def StraddlingValues : RuntimeValue → RuntimeValue → Prop
  | .decimal left, .decimal right =>
    ∃ x ∈ decimalValue (utf8 left), ∃ y ∈ decimalValue (utf8 right), Straddles x y
  | _, _ => False

theorem compare_uint64 (a b : UInt64) : compare a b = compare (a.toNat : Int) b.toNat := by
  rcases Nat.lt_trichotomy a.toNat b.toNat with less | same | more
  · rw [Std.compare_eq_lt.mpr (UInt64.lt_iff_toNat_lt.mpr less), eq_comm, Std.compare_eq_lt]
    omega
  · rw [UInt64.toNat_inj.mp same, Std.ReflOrd.compare_self, Std.ReflOrd.compare_self]
  · rw [Std.compare_eq_gt.mpr (UInt64.lt_iff_toNat_lt.mpr more), eq_comm, Std.compare_eq_gt]
    omega

/-- Values are compared by their keys. -/
theorem compareValues_eq (left right : RuntimeValue) : compareValues left right =
    (orderKey left).bind fun key => (orderKey right).bind fun key' => key.compare key' := by
  have decimalRight : ∀ (key : OrderKey) (value : String), (∀ rank, key ≠ .decimal rank) →
      ((orderKey (.decimal value)).bind fun key' => key.compare key') = none := by
    intro key value other
    rw [orderKey]
    cases decimalValue (utf8 value) with
    | none => rfl
    | some x =>
      cases key with
      | decimal rank => exact absurd rfl (other rank)
      | _ => rfl
  have decimalLeft : ∀ (value : String) (other : RuntimeValue), (∀ text, other ≠ .decimal text) →
      ((orderKey (.decimal value)).bind fun key => (orderKey other).bind fun key' => key.compare key') = none := by
    intro value other notDecimal
    rw [orderKey]
    cases decimalValue (utf8 value) with
    | none => rfl
    | some x =>
      cases other with
      | decimal text => exact absurd rfl (notDecimal text)
      | _ => rfl
  cases left with
  | integer left =>
    cases right with
    | decimal right => exact (decimalRight _ right fun _ same => by cases same).symm
    | _ => rfl
  | unsigned left =>
    cases right with
    | unsigned right => exact congrArg some (compare_uint64 left right)
    | decimal right => exact (decimalRight _ right fun _ same => by cases same).symm
    | _ => rfl
  | string left =>
    cases right with
    | decimal right => exact (decimalRight _ right fun _ same => by cases same).symm
    | _ => rfl
  | decimal left =>
    cases right with
    | decimal right =>
      rw [compareValues, compareDecimal_eq_rank, orderKey, orderKey]
      cases decimalValue (utf8 left) with
      | none => rfl
      | some x =>
        cases decimalValue (utf8 right) with
        | none => rfl
        | some y => rfl
    | _ => exact (decimalLeft left _ fun _ same => by cases same).symm
  | _ => rfl

theorem isOrderable_iff (value : RuntimeValue) : isOrderable value = (orderKey value).isSome := by
  cases value with
  | decimal value => rw [isOrderable, orderKey, Option.isSome_map, isSome_decimalValue]
  | _ => rfl

namespace OrderKey

theorem compare_self (key : OrderKey) : key.compare key = some .eq := by
  cases key with
  | integer value => exact congrArg some Std.ReflOrd.compare_self
  | decimal rank => exact congrArg some (compare_eq_iff_eq.mpr rfl)
  | text value => exact congrArg some Std.ReflOrd.compare_self

theorem compare_swap (left right : OrderKey) : right.compare left = (left.compare right).map Ordering.swap := by
  cases left with
  | integer left =>
    cases right with
    | integer right => exact congrArg some Std.OrientedOrd.eq_swap
    | _ => rfl
  | decimal left =>
    cases right with
    | decimal right => exact congrArg some (by rw [← cmp_eq_compare, ← cmp_eq_compare, cmp_swap])
    | _ => rfl
  | text left =>
    cases right with
    | text right => exact congrArg some Std.OrientedOrd.eq_swap
    | _ => rfl

/-- Keys of one class are compared. -/
theorem isSome_compare_trans {left middle right : OrderKey} (first : (left.compare middle).isSome)
    (second : (middle.compare right).isSome) : (left.compare right).isSome := by
  cases left with
  | integer left =>
    cases middle with
    | integer middle => cases right with
      | integer right => rfl
      | _ => cases second
    | _ => cases first
  | decimal left =>
    cases middle with
    | decimal middle => cases right with
      | decimal right => rfl
      | _ => cases second
    | _ => cases first
  | text left =>
    cases middle with
    | text middle => cases right with
      | text right => rfl
      | _ => cases second
    | _ => cases first

theorem any_ne_gt_trans {α : Type} [Ord α] [Std.TransOrd α] {a b c : α} (first : (Ord.compare a b) ≠ .gt)
    (second : (Ord.compare b c) ≠ .gt) : (Ord.compare a c) ≠ .gt := by
  exact Ordering.isLE_iff_ne_gt.mp (Std.TransCmp.isLE_trans (Ordering.isLE_iff_ne_gt.mpr first)
    (Ordering.isLE_iff_ne_gt.mpr second))

theorem compare_trans {left middle right : OrderKey} (first : (left.compare middle).any (· ≠ .gt))
    (second : (middle.compare right).any (· ≠ .gt)) : (left.compare right).any (· ≠ .gt) := by
  cases left with
  | integer left =>
    cases middle with
    | integer middle => cases right with
      | integer right => exact decide_eq_true (any_ne_gt_trans (of_decide_eq_true first) (of_decide_eq_true second))
      | _ => cases second
    | _ => cases first
  | decimal left =>
    cases middle with
    | decimal middle => cases right with
      | decimal right => exact decide_eq_true (any_ne_gt_trans (of_decide_eq_true first) (of_decide_eq_true second))
      | _ => cases second
    | _ => cases first
  | text left =>
    cases middle with
    | text middle => cases right with
      | text right => exact decide_eq_true (any_ne_gt_trans (of_decide_eq_true first) (of_decide_eq_true second))
      | _ => cases second
    | _ => cases first

end OrderKey

/-- A comparison that is a total preorder on each class of the values that it orders. -/
structure TotalPreorders (orderable : RuntimeValue → Bool) (compare : RuntimeValue → RuntimeValue → Option Ordering) :
    Prop where
  refl : ∀ a, orderable a = true → compare a a = some .eq
  orderable : ∀ a b, (compare a b).isSome → orderable a = true ∧ orderable b = true
  swap : ∀ a b, compare b a = (compare a b).map Ordering.swap
  classes : ∀ a b c, (compare a b).isSome → (compare b c).isSome → (compare a c).isSome
  trans : ∀ a b c, (compare a b).any (· ≠ .gt) → (compare b c).any (· ≠ .gt) → (compare a c).any (· ≠ .gt)

theorem totalPreorders_compareValues : TotalPreorders isOrderable compareValues := by
  constructor
  · intro a orderable
    rw [isOrderable_iff] at orderable
    obtain ⟨key, found⟩ := Option.isSome_iff_exists.mp orderable
    rw [compareValues_eq, found]
    exact key.compare_self
  · intro a b some_
    rw [compareValues_eq] at some_
    rw [isOrderable_iff, isOrderable_iff]
    cases left : orderKey a with
    | none => rw [left] at some_; cases some_
    | some key =>
      cases right : orderKey b with
      | none => rw [left, right] at some_; cases some_
      | some key' => exact ⟨rfl, rfl⟩
  · intro a b
    rw [compareValues_eq, compareValues_eq]
    cases orderKey a with
    | none =>
      cases orderKey b with
      | none => rfl
      | some key' => rfl
    | some key =>
      cases orderKey b with
      | none => rfl
      | some key' => exact key.compare_swap key'
  · intro a b c
    rw [compareValues_eq, compareValues_eq, compareValues_eq]
    cases orderKey a with
    | none => exact nofun
    | some key =>
      cases orderKey b with
      | none => exact nofun
      | some key' =>
        cases orderKey c with
        | none => exact fun _ second => by cases second
        | some key'' => exact OrderKey.isSome_compare_trans
  · intro a b c
    rw [compareValues_eq, compareValues_eq, compareValues_eq]
    cases orderKey a with
    | none => exact nofun
    | some key =>
      cases orderKey b with
      | none => exact nofun
      | some key' =>
        cases orderKey c with
        | none => exact fun _ second => by cases second
        | some key'' => exact OrderKey.compare_trans

/-- Values are compared in their order unless they are decimals that straddle. -/
theorem compareValues_eq_valueOrder_iff (left right : RuntimeValue) :
    compareValues left right = valueOrder left right ↔ ¬ StraddlingValues left right := by
  cases left with
  | decimal left =>
    cases right with
    | decimal right =>
      rw [compareValues, compareDecimal_eq_rank, valueOrder, StraddlingValues]
      cases decimalValue (utf8 left) with
      | none => simp
      | some x =>
        cases decimalValue (utf8 right) with
        | none => simp
        | some y => simpa using compare_rank_iff x y
    | _ => exact iff_of_true rfl not_false
  | unsigned left =>
    cases right with
    | unsigned right => exact iff_of_true (congrArg some (compare_uint64 left right)) not_false
    | _ => exact iff_of_true rfl not_false
  | integer left => cases right <;> exact iff_of_true rfl not_false
  | string left => cases right <;> exact iff_of_true rfl not_false
  | _ => exact iff_of_true rfl not_false

/-- A value is inside the bounds of a range. -/
structure InRange (gt gte lt lte : Option RuntimeValue) (actual : RuntimeValue) : Prop where
  gt : ∀ bound ∈ gt, valueOrder actual bound = some .gt
  gte : ∀ bound ∈ gte, valueOrder actual bound = some .gt ∨ valueOrder actual bound = some .eq
  lt : ∀ bound ∈ lt, valueOrder actual bound = some .lt
  lte : ∀ bound ∈ lte, valueOrder actual bound = some .lt ∨ valueOrder actual bound = some .eq

theorem any_ne_lt_iff (order : Option Ordering) : order.any (· ≠ .lt) ↔ order = some .gt ∨ order = some .eq := by
  cases order with
  | none => simp
  | some order => cases order <;> simp

theorem any_ne_gt_iff (order : Option Ordering) : order.any (· ≠ .gt) ↔ order = some .lt ∨ order = some .eq := by
  cases order with
  | none => simp
  | some order => cases order <;> simp

/-- A range matches the values inside its bounds, unless one of these straddles. -/
theorem matches_range_iff {property : String} {gt gte lt lte : Option RuntimeValue} {properties : RuntimeProperties}
    (apart : ∀ actual ∈ properties.lookup property, ∀ bound ∈ [gt, gte, lt, lte].reduceOption,
      ¬ StraddlingValues actual bound) :
    (⟨property, .range gt gte lt lte⟩ : FilterCondition).matches_ properties = true ↔
      ∃ actual ∈ properties.lookup property, InRange gt gte lt lte actual := by
  rw [FilterCondition.matches_]
  dsimp only
  cases found : properties.lookup property with
  | none => simp
  | some actual =>
    have exact_ : ∀ bound, some bound ∈ [gt, gte, lt, lte] → compareValues actual bound = valueOrder actual bound :=
      fun bound among => (compareValues_eq_valueOrder_iff actual bound).mpr
        (apart actual found bound (List.reduceOption_mem_iff.mpr among))
    have all : ∀ (limit : Option RuntimeValue) (test : Option Ordering → Bool), limit ∈ [gt, gte, lt, lte] →
        (limit.all (fun bound => test (compareValues actual bound)) = true ↔
          ∀ bound ∈ limit, test (valueOrder actual bound) = true) := by
      intro limit test among
      cases limit with
      | none => simp
      | some bound => simp [exact_ bound among]
    have first := all gt (fun order => order = some .gt) (by simp)
    have second := all gte (fun order => order.any (· ≠ .lt)) (by simp)
    have third := all lt (fun order => order = some .lt) (by simp)
    have fourth := all lte (fun order => order.any (· ≠ .gt)) (by simp)
    simp only [Option.any_some, Bool.and_eq_true, first, second, third, fourth, decide_eq_true_eq, any_ne_lt_iff,
      any_ne_gt_iff, Option.mem_some_iff, exists_eq_left']
    constructor
    · rintro ⟨⟨⟨one, two⟩, three⟩, four⟩
      exact ⟨one, two, three, four⟩
    · rintro ⟨one, two, three, four⟩
      exact ⟨⟨⟨one, two⟩, three⟩, four⟩

/-- `0` is compared as greater than `0.5`. -/
theorem compareDecimal_zero_half : ¬ ∀ (left right : Bytes) (x y : ℚ), decimalValue left = some x →
    decimalValue right = some y → compareDecimal left right = some (compare x y) := by
  intro exact_
  have zero : decimalValue [48] = some 0 := by
    have read : Decimal.read [48] = some ⟨false, [48], [], 0⟩ := by decide +kernel
    rw [decimalValue, read]
    simp [Decimal.toRat, Format.ofDecimal]
  have half : decimalValue [48, 46, 53] = some (1 / 2) := by
    have read : Decimal.read [48, 46, 53] = some ⟨false, [48], [53], 0⟩ := by decide +kernel
    have digits : Format.ofDecimal ([48] ++ [53]) = 5 := rfl
    rw [decimalValue, read, Option.map_some, Decimal.toRat, digits]
    norm_num
  have order := exact_ _ _ _ _ zero half
  rw [compare_lt_iff_lt.mpr (by norm_num)] at order
  have greater : compareDecimal [48] [48, 46, 53] = some .gt := by decide +kernel
  rw [greater] at order
  cases order

end Vyrm.Vector
