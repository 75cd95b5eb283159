import Mathlib.Data.Nat.Basic
import Mathlib.Order.Compare
import Vyrm.Lib.Json

/-!
# Digit strings

What strings of decimal digits denote, and how they are compared: strings of one length digit by digit,
others by their lengths, as long as they do not start with a zero.
-/

namespace Vyrm.Lib.Format

theorem ofDecimal_append (front back : Bytes) :
    ofDecimal (front ++ back) = ofDecimal front * 10 ^ back.length + ofDecimal back := by
  induction back using List.reverseRecOn with
  | nil => simp [ofDecimal]
  | append_singleton back last ih =>
    have behind : ∀ digits : Bytes, ofDecimal (digits ++ [last]) = ofDecimal digits * 10 + (last.toNat - 48) := by
      intro digits
      simp [ofDecimal]
    rw [← List.append_assoc, behind, behind, ih, List.length_append, List.length_singleton, Nat.pow_succ]
    ring

theorem ofDecimal_cons (first : UInt8) (rest : Bytes) :
    ofDecimal (first :: rest) = (first.toNat - 48) * 10 ^ rest.length + ofDecimal rest := by
  have one : ofDecimal [first] = first.toNat - 48 := by simp [ofDecimal]
  rw [← List.singleton_append, ofDecimal_append, one]

@[simp] theorem ofDecimal_zeros (n : Nat) : ofDecimal (List.replicate n 48) = 0 := by
  induction n with
  | zero => rfl
  | succ n ih =>
    rw [List.replicate_succ, ofDecimal_cons, ih]
    simp

theorem bounds_of_isDigit {byte : UInt8} (digit : isDigit byte = true) : 48 ≤ byte.toNat ∧ byte.toNat ≤ 57 := by
  simpa [isDigit] using digit

/-- As many digits as there are bound a number. -/
theorem ofDecimal_lt {digits : Bytes} (all : digits.all isDigit = true) : ofDecimal digits < 10 ^ digits.length := by
  induction digits with
  | nil => simp [ofDecimal]
  | cons first rest ih =>
    rw [List.all_cons, Bool.and_eq_true] at all
    have bounds := bounds_of_isDigit all.1
    have behind := ih all.2
    rw [ofDecimal_cons, List.length_cons, Nat.pow_succ]
    have front : (first.toNat - 48) * 10 ^ rest.length ≤ 9 * 10 ^ rest.length := Nat.mul_le_mul_right _ (by omega)
    omega

/-- A number that does not start with a zero has as many digits as its string. -/
theorem le_ofDecimal {first : UInt8} {rest : Bytes} (digit : isDigit first = true) (notZero : first ≠ 48) :
    10 ^ rest.length ≤ ofDecimal (first :: rest) := by
  have bounds := bounds_of_isDigit digit
  have larger : first.toNat ≠ 48 := fun same => notZero (UInt8.toNat_inj.mp same)
  have front : 1 * 10 ^ rest.length ≤ (first.toNat - 48) * 10 ^ rest.length := Nat.mul_le_mul_right _ (by omega)
  rw [ofDecimal_cons]
  omega

/-- The first difference of two strings of one length. -/
def firstDifference (left right : Bytes) : Ordering :=
  (left.zip right).foldr (fun (a, b) rest => (compare a b).then rest) .eq

/-- The first difference decides. -/
theorem firstDifference_eq {left right : Bytes} (sameLength : left.length = right.length)
    (leftDigits : left.all isDigit = true) (rightDigits : right.all isDigit = true) :
    firstDifference left right = compare (ofDecimal left) (ofDecimal right) := by
  induction left generalizing right with
  | nil =>
    obtain rfl : right = [] := List.eq_nil_of_length_eq_zero sameLength.symm
    rfl
  | cons a left ih =>
    cases right with
    | nil => cases sameLength
    | cons b right =>
      have sameLength : left.length = right.length := Nat.succ.inj sameLength
      rw [List.all_cons, Bool.and_eq_true] at leftDigits rightDigits
      have aBounds := bounds_of_isDigit leftDigits.1
      have bBounds := bounds_of_isDigit rightDigits.1
      have leftSmall := ofDecimal_lt leftDigits.2
      have rightSmall := ofDecimal_lt rightDigits.2
      have rest := ih sameLength leftDigits.2 rightDigits.2
      have step : firstDifference (a :: left) (b :: right) = (compare a b).then (firstDifference left right) := rfl
      rw [step, rest, ofDecimal_cons, ofDecimal_cons, sameLength]
      rw [sameLength] at leftSmall
      generalize 10 ^ right.length = scale at leftSmall rightSmall ⊢
      rcases Nat.lt_trichotomy a.toNat b.toNat with less | same | more
      · have front : (a.toNat - 48 + 1) * scale ≤ (b.toNat - 48) * scale := Nat.mul_le_mul_right _ (by omega)
        rw [Nat.add_mul] at front
        rw [Std.compare_eq_lt.mpr (UInt8.lt_iff_toNat_lt.mpr less), Ordering.lt_then, eq_comm, compare_lt_iff_lt]
        omega
      · rw [same, UInt8.toNat_inj.mp same, Std.ReflOrd.compare_self, Ordering.eq_then]
        rcases Nat.lt_trichotomy (ofDecimal left) (ofDecimal right) with less | equal | more
        · rw [compare_lt_iff_lt.mpr less, eq_comm, compare_lt_iff_lt]
          omega
        · rw [equal, compare_eq_iff_eq.mpr rfl, compare_eq_iff_eq.mpr rfl]
        · rw [compare_gt_iff_gt.mpr more, eq_comm, compare_gt_iff_gt]
          omega
      · have front : (b.toNat - 48 + 1) * scale ≤ (a.toNat - 48) * scale := Nat.mul_le_mul_right _ (by omega)
        rw [Nat.add_mul] at front
        rw [Std.compare_eq_gt.mpr (UInt8.lt_iff_toNat_lt.mpr more), Ordering.gt_then, eq_comm, compare_gt_iff_gt]
        omega

end Vyrm.Lib.Format
