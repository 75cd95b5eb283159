import Vyrm.Lib.Json

/-!
# Order-preserving keys

Keys whose byte order is the order of the fields they are made of. A field either
has a fixed width or ends in a separator that no field contains and that is below
every other byte; numbers are zero-padded decimals. A prefix then names an interval
of keys, and the fields can be read back.
-/

namespace Vyrm.Lib

/-! ## Comparing field by field -/

@[simp] theorem append_lt_append_left_iff (front x y : Bytes) : front ++ x < front ++ y ↔ x < y := by
  induction front with
  | nil => exact Iff.rfl
  | cons byte front ih =>
    rw [List.cons_append, List.cons_append, List.cons_lt_cons_iff, ih]
    constructor
    · intro h
      rcases h with h | h
      · exact absurd h (by simp)
      · exact h.2
    · intro h
      exact Or.inr ⟨rfl, h⟩

/-- Fields of one width are compared before what follows them. -/
theorem append_lt_append_iff {x y : Bytes} (width : x.length = y.length) (a b : Bytes) :
    x ++ a < y ++ b ↔ x < y ∨ x = y ∧ a < b := by
  induction x generalizing y with
  | nil =>
    have : y = [] := by simpa using width.symm
    subst this
    simp
  | cons c x ih =>
    cases y with
    | nil => simp at width
    | cons d y =>
      have tails := ih (y := y) (by simpa using width)
      rw [List.cons_append, List.cons_append, List.cons_lt_cons_iff, List.cons_lt_cons_iff, tails]
      grind

/-- Big-endian fields of one width are ordered as their numbers. -/
theorem toBE_lt_toBE_iff {w a b : Nat} (ha : a < 256 ^ w) (hb : b < 256 ^ w) :
    toBE w a < toBE w b ↔ a < b := by
  induction w generalizing a b with
  | zero =>
    have : a = b := by simp at ha hb; omega
    simp [toBE, this]
  | succ w ih =>
    rw [pow_succ] at ha hb
    have high : ∀ {n : Nat}, n < 256 ^ w * 256 → n / 256 < 256 ^ w := fun h => by omega
    have low : ∀ n : Nat, (UInt8.ofNat n).toNat = n % 256 := fun n => UInt8.toNat_ofNat'
    have singles : [UInt8.ofNat a] < [UInt8.ofNat b] ↔ a % 256 < b % 256 := by
      rw [List.cons_lt_cons_iff, UInt8.lt_iff_toNat_lt, low, low]
      simp
    rw [toBE, toBE, append_lt_append_iff (by simp), ih (high ha) (high hb), singles]
    constructor
    · rintro (less | ⟨same, less⟩)
      · omega
      · have := toBE_inj (high ha) (high hb) same
        omega
    · intro less
      by_cases same : a / 256 = b / 256
      · right
        exact ⟨by rw [same], by omega⟩
      · left
        omega

/-- Fields that end in a separator below all their bytes are compared before what follows. -/
theorem separated_lt_separated_iff {sep : UInt8} {x y : Bytes} (xs : ∀ byte ∈ x, sep < byte)
    (ys : ∀ byte ∈ y, sep < byte) (a b : Bytes) :
    x ++ sep :: a < y ++ sep :: b ↔ x < y ∨ x = y ∧ a < b := by
  induction x generalizing y with
  | nil =>
    cases y with
    | nil => simp
    | cons d y =>
      have less : sep < d := ys d (by simp)
      simp [List.cons_lt_cons_iff, less]
  | cons c x ih =>
    have less : sep < c := xs c (by simp)
    cases y with
    | nil =>
      have notLess : ¬ c < sep := fun h => absurd (UInt8.lt_trans less h) (by simp)
      have different : c ≠ sep := fun h => absurd (h ▸ less) (by simp)
      simp [List.cons_lt_cons_iff, notLess, different]
    | cons d y =>
      have tails := ih (y := y) (fun byte h => xs byte (by simp [h])) (fun byte h => ys byte (by simp [h]))
      rw [List.cons_append, List.cons_append, List.cons_lt_cons_iff, List.cons_lt_cons_iff, tails]
      grind

/-- A separated field and what follows it can be told apart. -/
theorem separated_inj {sep : UInt8} {x y a b : Bytes} (xs : sep ∉ x) (ys : sep ∉ y)
    (same : x ++ sep :: a = y ++ sep :: b) : x = y ∧ a = b := by
  induction x generalizing y with
  | nil =>
    cases y with
    | nil => simpa using same
    | cons d y =>
      have first : sep = d := by simpa using (List.cons.inj same).1
      exact absurd (by simp [first]) ys
  | cons c x ih =>
    cases y with
    | nil =>
      have first : c = sep := by simpa using (List.cons.inj same).1
      exact absurd (by simp [first]) xs
    | cons d y =>
      obtain ⟨first, tails⟩ := List.cons.inj same
      have later := ih (fun h => xs (by simp [h])) (fun h => ys (by simp [h])) tails
      exact ⟨by rw [first, later.1], later.2⟩

/-! ## Prefixes -/

/-- Strings with a common prefix are an interval: nothing else lies between two of them. -/
theorem isPrefix_of_between {front low key high : Bytes} (below : low ≤ key) (above : key ≤ high)
    (lowHas : front <+: low) (highHas : front <+: high) : front <+: key := by
  induction front generalizing low key high with
  | nil => exact List.nil_prefix
  | cons byte front ih =>
    obtain ⟨lowTail, rfl⟩ := lowHas
    obtain ⟨highTail, rfl⟩ := highHas
    cases key with
    | nil => exact absurd below (by simp)
    | cons c key =>
      rw [List.cons_append, List.cons_le_cons_iff] at below above
      have same : byte = c := by grind
      subst same
      have low' : front ++ lowTail ≤ key := by grind
      have high' : key ≤ front ++ highTail := by grind
      rw [List.cons_prefix_cons]
      exact ⟨rfl, ih low' high' (List.prefix_append _ _) (List.prefix_append _ _)⟩

theorem le_of_isPrefix {front key : Bytes} (h : front <+: key) : front ≤ key := by
  obtain ⟨tail, rfl⟩ := h
  exact List.le_append_left

/-! ## Zero-padded decimals -/

namespace Decimal
open Format

/-- The `w` low decimal digits of a number. -/
def digits : Nat → Nat → Bytes
  | 0, _ => []
  | w + 1, n => digits w (n / 10) ++ [digit (n % 10)]

/-- A number in decimal, filled with zeros on the left up to a width. -/
def padded (width n : Nat) : Bytes := (nat.print n).leftpad width 48

@[simp] theorem length_digits (w n : Nat) : (digits w n).length = w := by
  induction w generalizing n with
  | zero => rfl
  | succ w ih => simp [digits, ih]

theorem digits_zero (w : Nat) : digits w 0 = List.replicate w 48 := by
  induction w with
  | zero => rfl
  | succ w ih =>
    rw [digits, Nat.zero_div, ih, List.replicate_succ']
    rfl

theorem leftpad_decimal {fuel w n : Nat} (enough : n < 10 ^ (fuel + 1)) (fits : n < 10 ^ (w + 1)) :
    (decimal fuel n).leftpad (w + 1) 48 = digits (w + 1) n := by
  induction fuel generalizing n w with
  | zero =>
    have small : n < 10 := by simpa using enough
    rw [decimal, digits, Nat.div_eq_of_lt small, digits_zero, List.leftpad]
    simp
  | succ fuel ih =>
    rw [decimal]
    split
    · rename_i small
      rw [digits, Nat.div_eq_of_lt small, Nat.mod_eq_of_lt small, digits_zero, List.leftpad]
      simp
    · rename_i large
      cases w with
      | zero => exact absurd fits (by simpa using large)
      | succ w =>
        have shorter : n / 10 < 10 ^ (fuel + 1) := by
          rw [Nat.div_lt_iff_lt_mul (by decide)]
          rw [Nat.pow_succ] at enough
          exact enough
        have narrower : n / 10 < 10 ^ (w + 1) := by
          rw [Nat.div_lt_iff_lt_mul (by decide)]
          rw [Nat.pow_succ] at fits
          exact fits
        rw [digits, ← ih shorter narrower, List.leftpad, List.leftpad]
        simp

/-- A number that fits its width has exactly that many digits. -/
theorem padded_eq_digits {w n : Nat} (positive : 0 < w) (fits : n < 10 ^ w) :
    padded w n = digits w n := by
  obtain ⟨w, rfl⟩ := Nat.exists_eq_succ_of_ne_zero (Nat.pos_iff_ne_zero.mp positive)
  have enough : n < 10 ^ (n.log2 + 1) := calc
    n < 2 ^ (n.log2 + 1) := Nat.lt_log2_self
    _ ≤ 10 ^ (n.log2 + 1) := Nat.pow_le_pow_left (by decide) _
  exact leftpad_decimal enough fits

theorem digit_lt_digit_iff {a b : Nat} (ha : a < 10) (hb : b < 10) : digit a < digit b ↔ a < b := by
  rw [UInt8.lt_iff_toNat_lt, toNat_digit ha, toNat_digit hb]
  omega

theorem digit_inj {a b : Nat} (ha : a < 10) (hb : b < 10) (same : digit a = digit b) : a = b := by
  have := congrArg UInt8.toNat same
  rw [toNat_digit ha, toNat_digit hb] at this
  omega

theorem digits_inj {w a b : Nat} (ha : a < 10 ^ w) (hb : b < 10 ^ w) (same : digits w a = digits w b) :
    a = b := by
  induction w generalizing a b with
  | zero => simp at ha hb; omega
  | succ w ih =>
    rw [Nat.pow_succ] at ha hb
    have parts := List.append_inj same (by simp)
    have high : a / 10 = b / 10 := ih (by omega) (by omega) parts.1
    have low : a % 10 = b % 10 := by
      apply digit_inj (Nat.mod_lt _ (by decide)) (Nat.mod_lt _ (by decide))
      simpa using parts.2
    omega

/-- Byte order on padded numbers is the order of the numbers. -/
theorem digits_lt_digits_iff {w a b : Nat} (ha : a < 10 ^ w) (hb : b < 10 ^ w) :
    digits w a < digits w b ↔ a < b := by
  induction w generalizing a b with
  | zero =>
    simp at ha hb
    simp [digits, ha, hb]
  | succ w ih =>
    rw [Nat.pow_succ] at ha hb
    have high := ih (a := a / 10) (b := b / 10) (by omega) (by omega)
    have low : [digit (a % 10)] < [digit (b % 10)] ↔ a % 10 < b % 10 := by
      rw [List.cons_lt_cons_iff, digit_lt_digit_iff (Nat.mod_lt _ (by decide)) (Nat.mod_lt _ (by decide))]
      simp
    rw [digits, digits, append_lt_append_iff (by simp), high, low]
    constructor
    · intro h
      rcases h with h | ⟨same, h⟩
      · omega
      · have := digits_inj (w := w) (by omega) (by omega) same
        omega
    · intro h
      by_cases less : a / 10 < b / 10
      · exact Or.inl less
      · have same : a / 10 = b / 10 := by omega
        exact Or.inr ⟨by rw [same], by omega⟩

theorem isDigit_of_mem_digits {w n : Nat} {byte : UInt8} (h : byte ∈ digits w n) :
    isDigit byte = true := by
  induction w generalizing n with
  | zero => simp [digits] at h
  | succ w ih =>
    rw [digits, List.mem_append] at h
    rcases h with h | h
    · exact ih h
    · rw [List.mem_singleton] at h
      subst h
      exact isDigit_digit (Nat.mod_lt _ (by decide))

theorem ofDecimal_digits {w n : Nat} (fits : n < 10 ^ w) : ofDecimal (digits w n) = n := by
  induction w generalizing n with
  | zero =>
    simp at fits
    simp [digits, ofDecimal, fits]
  | succ w ih =>
    rw [Nat.pow_succ] at fits
    have front := ih (n := n / 10) (by omega)
    unfold ofDecimal at front ⊢
    rw [digits, List.foldl_append, front]
    simp only [List.foldl_cons, List.foldl_nil, toNat_digit (Nat.mod_lt n (by decide : 0 < 10))]
    omega

/-- Unsigned decimal text: an optional plus sign and at least one digit. -/
def parse (text : Bytes) : Option Nat :=
  let body := if text.head? = some 43 ∧ 1 < text.length then text.drop 1 else text
  if body ≠ [] ∧ body.all isDigit then some (ofDecimal body) else none

theorem parse_of_all {text : Bytes} (nonempty : text ≠ []) (all : text.all isDigit = true) :
    parse text = some (ofDecimal text) := by
  have unsigned : ¬(text.head? = some 43 ∧ 1 < text.length) := by
    intro h
    have plus := List.all_eq_true.mp all 43 (List.mem_of_mem_head? h.1)
    simp [isDigit] at plus
  simp only [parse, if_neg unsigned]
  rw [if_pos ⟨nonempty, all⟩]

theorem parse_digits {w n : Nat} (positive : 0 < w) (fits : n < 10 ^ w) :
    parse (digits w n) = some n := by
  have all : (digits w n).all isDigit = true := List.all_eq_true.mpr fun byte h => isDigit_of_mem_digits h
  have nonempty : digits w n ≠ [] := by
    intro h
    have := congrArg List.length h
    simp at this
    omega
  rw [parse_of_all nonempty all, ofDecimal_digits fits]

/-- A number is read back from its text. -/
theorem parse_print (n : Nat) : parse (nat.print n) = some n := by
  have enough : n < 10 ^ (n.log2 + 1) := calc
    n < 2 ^ (n.log2 + 1) := Nat.lt_log2_self
    _ ≤ 10 ^ (n.log2 + 1) := Nat.pow_le_pow_left (by decide) _
  change parse (decimal n.log2 n) = some n
  rw [parse_of_all (decimal_ne_nil _ _) (all_decimal _ _), ofDecimal_decimal enough]

end Decimal

end Vyrm.Lib
