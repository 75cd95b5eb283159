import Mathlib.Data.List.Induction
import Mathlib.Tactic.Ring
import Std.Data.TreeMap.Lemmas

/-!
# Byte strings

Byte strings as lists of octets, with the fixed-width big-endian and
little-endian integer fields that binary formats are made of, range slices, and
the lexicographic byte order. Every record format of the development is a
concatenation of such fields, so the slice lemmas below are what a decoder
proof uses to read a field back out of an encoder's output.
-/

namespace Vyrm.Lib

/-- A byte string. -/
abbrev Bytes := List UInt8

/-- `n` as `w` big-endian bytes; bits beyond the width are dropped. -/
def toBE : Nat → Nat → Bytes
  | 0, _ => []
  | w + 1, n => toBE w (n / 256) ++ [UInt8.ofNat n]

/-- The number a big-endian byte string denotes. -/
def ofBE (bytes : Bytes) : Nat := bytes.foldl (fun acc byte => acc * 256 + byte.toNat) 0

/-- `n` as `w` little-endian bytes. -/
def toLE (w n : Nat) : Bytes := (toBE w n).reverse

/-- The number a little-endian byte string denotes. -/
def ofLE (bytes : Bytes) : Nat := ofBE bytes.reverse

@[simp] theorem length_toBE (w n : Nat) : (toBE w n).length = w := by
  induction w generalizing n with
  | zero => rfl
  | succ w ih => simp [toBE, ih]

@[simp] theorem length_toLE (w n : Nat) : (toLE w n).length = w := by simp [toLE]

@[simp] theorem ofBE_nil : ofBE [] = 0 := rfl

theorem ofBE_append_singleton (bytes : Bytes) (byte : UInt8) :
    ofBE (bytes ++ [byte]) = ofBE bytes * 256 + byte.toNat := by
  simp [ofBE, List.foldl_append]

theorem ofBE_lt (bytes : Bytes) : ofBE bytes < 256 ^ bytes.length := by
  induction bytes using List.reverseRecOn with
  | nil => simp
  | append_singleton bytes byte ih =>
    rw [ofBE_append_singleton, List.length_append, List.length_singleton, pow_succ]
    have := byte.toNat_lt
    omega

/-- Reading a big-endian field back gives the number modulo the field's range. -/
theorem ofBE_toBE (w n : Nat) : ofBE (toBE w n) = n % 256 ^ w := by
  induction w generalizing n with
  | zero => simp [toBE, Nat.mod_one]
  | succ w ih =>
    rw [toBE, ofBE_append_singleton, ih, UInt8.toNat_ofNat', Nat.pow_succ 256 w]
    have high : n % (256 ^ w * 256) / 256 = n / 256 % 256 ^ w := by
      rw [Nat.mul_comm, Nat.mod_mul_right_div_self]
    have low : n % (256 ^ w * 256) % 256 = n % 256 := Nat.mod_mul_left_mod n (256 ^ w) 256
    have whole := Nat.div_add_mod (n % (256 ^ w * 256)) 256
    rw [high, low] at whole
    rw [← whole, Nat.mul_comm]

theorem ofBE_toBE_of_lt {w n : Nat} (h : n < 256 ^ w) : ofBE (toBE w n) = n := by
  rw [ofBE_toBE, Nat.mod_eq_of_lt h]

/-- A field of the right width is the encoding of the number it denotes. -/
theorem toBE_ofBE (bytes : Bytes) : toBE bytes.length (ofBE bytes) = bytes := by
  induction bytes using List.reverseRecOn with
  | nil => rfl
  | append_singleton bytes byte ih =>
    have high : (ofBE bytes * 256 + byte.toNat) / 256 = ofBE bytes := by
      have := byte.toNat_lt
      omega
    have low : UInt8.ofNat (ofBE bytes * 256 + byte.toNat) = byte := by
      apply UInt8.toNat_inj.mp
      rw [UInt8.toNat_ofNat']
      have := byte.toNat_lt
      omega
    rw [List.length_append, List.length_singleton, toBE, ofBE_append_singleton, high, low, ih]

theorem toBE_inj {w a b : Nat} (ha : a < 256 ^ w) (hb : b < 256 ^ w)
    (h : toBE w a = toBE w b) : a = b := by
  rw [← ofBE_toBE_of_lt ha, ← ofBE_toBE_of_lt hb, h]

theorem ofLE_toLE_of_lt {w n : Nat} (h : n < 256 ^ w) : ofLE (toLE w n) = n := by
  rw [ofLE, toLE, List.reverse_reverse, ofBE_toBE_of_lt h]

/-! ## Range slices -/

/-- `bytes[first..last]`. -/
def slice (bytes : Bytes) (first last : Nat) : Bytes := (bytes.drop first).take (last - first)

/-- `bytes.get(first..last)`: absent when the range is inverted or leaves the string. -/
def slice? (bytes : Bytes) (first last : Nat) : Option Bytes :=
  if first ≤ last ∧ last ≤ bytes.length then some (slice bytes first last) else none

theorem slice?_eq_some {bytes : Bytes} {first last : Nat} (h : first ≤ last)
    (hlast : last ≤ bytes.length) : slice? bytes first last = some (slice bytes first last) :=
  if_pos ⟨h, hlast⟩

theorem slice?_eq_some_iff {bytes part : Bytes} {first last : Nat} :
    slice? bytes first last = some part ↔
      first ≤ last ∧ last ≤ bytes.length ∧ slice bytes first last = part := by
  unfold slice?
  split <;> rename_i h
  · simp [h.1, h.2]
  · constructor
    · intro h'; simp at h'
    · rintro ⟨h1, h2, -⟩; exact absurd ⟨h1, h2⟩ h

theorem length_slice {bytes : Bytes} {first last : Nat} (hlast : last ≤ bytes.length) :
    (slice bytes first last).length = last - first := by
  simp only [slice, List.length_take, List.length_drop]
  omega

/-- The middle of a three-part concatenation, read back by its position. -/
theorem slice_append {before middle after : Bytes} {first last : Nat}
    (hfirst : first = before.length) (hlast : last = before.length + middle.length) :
    slice (before ++ (middle ++ after)) first last = middle := by
  subst hfirst hlast
  simp [slice]

theorem slice_of_eq {bytes middle : Bytes} (before after : Bytes) {first last : Nat}
    (h : bytes = before ++ (middle ++ after)) (hfirst : first = before.length)
    (hlast : last = before.length + middle.length) : slice bytes first last = middle := by
  rw [h, slice_append hfirst hlast]

/-- Splitting a string at the two ends of an in-range slice. -/
theorem eq_append_slice (bytes : Bytes) (first last : Nat) (h : first ≤ last) :
    bytes = bytes.take first ++ (slice bytes first last ++ bytes.drop last) := by
  have tail : bytes.drop last = (bytes.drop first).drop (last - first) := by
    rw [List.drop_drop]; congr 1; omega
  rw [slice, tail, List.take_append_drop, List.take_append_drop]

theorem slice_append_slice {bytes : Bytes} {first last : Nat} (middle : Nat) (h : first ≤ middle)
    (h' : middle ≤ last) :
    slice bytes first middle ++ slice bytes middle last = slice bytes first last := by
  have shift : bytes.drop middle = (bytes.drop first).drop (middle - first) := by
    rw [List.drop_drop]; congr 1; omega
  have total : last - first = (middle - first) + (last - middle) := by omega
  rw [slice, slice, slice, shift, total, List.take_add]

/-- A field that lies inside a string is the encoding of the number it denotes. -/
theorem slice_eq_toBE {bytes : Bytes} {first last : Nat} (width : Nat) (hwidth : last - first = width)
    (hlast : last ≤ bytes.length) : slice bytes first last = toBE width (ofBE (slice bytes first last)) := by
  have whole := toBE_ofBE (slice bytes first last)
  rw [length_slice hlast, hwidth] at whole
  exact whole.symm

theorem slice_zero_length (bytes : Bytes) : slice bytes 0 bytes.length = bytes := by
  simp [slice]

/-- A field of a record made of consecutive fields, read back by its position. -/
theorem slice_flatten {bytes field : Bytes} {fields : List Bytes} {i first last : Nat}
    (content : bytes = fields.flatten) (at_ : fields[i]? = some field)
    (hfirst : first = ((fields.take i).map List.length).sum) (hlast : last = first + field.length) :
    slice bytes first last = field := by
  have inside : i < fields.length := (List.getElem?_eq_some_iff.mp at_).1
  have split : fields = fields.take i ++ field :: fields.drop (i + 1) := by
    conv_lhs => rw [← List.take_append_drop i fields]
    rw [List.drop_eq_getElem_cons inside, (List.getElem?_eq_some_iff.mp at_).2]
  have length : (fields.take i).flatten.length = first := by rw [List.length_flatten, hfirst]
  apply slice_of_eq ((fields.take i).flatten) ((fields.drop (i + 1)).flatten)
  · conv_lhs => rw [content, split]
    rw [List.flatten_append, List.flatten_cons]
  · exact length.symm
  · rw [length, hlast]

/-! ## The lexicographic byte order -/

/-- The derived comparison of byte strings agrees with the lexicographic `<`, so the ordered
maps of the development and its range tests speak of one order. -/
theorem compare_lt_iff (xs ys : Bytes) : compare xs ys = .lt ↔ xs < ys := by
  induction xs generalizing ys with
  | nil => cases ys <;> simp
  | cons x xs ih =>
    cases ys with
    | nil => simp
    | cons y ys =>
      rw [List.cons_lt_cons_iff, ← ih, List.compare_cons_cons, Ordering.then_eq_lt,
        Std.compare_eq_lt, Std.LawfulEqOrd.compare_eq_iff_eq]

theorem compare_eq_iff (xs ys : Bytes) : compare xs ys = .eq ↔ xs = ys :=
  Std.LawfulEqOrd.compare_eq_iff_eq

theorem compare_gt_iff (xs ys : Bytes) : compare xs ys = .gt ↔ ys < xs := by
  rw [← compare_lt_iff, Std.OrientedCmp.gt_iff_lt]

/-- The lexicographic order as a linear order in Mathlib's sense, over the instances the
programs use. -/
instance : LinearOrder Bytes where
  le_refl := fun _ => Std.le_refl _
  le_trans := fun _ _ _ => Std.le_trans
  lt_iff_le_not_ge := fun _ _ => Std.lt_iff_le_and_not_ge
  le_antisymm := fun _ _ => Std.le_antisymm
  le_total := fun _ _ => Std.le_total
  toDecidableLE := fun _ _ => inferInstance
  toDecidableLT := fun _ _ => inferInstance
  toDecidableEq := inferInstance
  toOrd := inferInstance
  compare_eq_compareOfLessAndEq := by
    intro xs ys
    unfold compareOfLessAndEq
    split
    · rename_i less
      exact (compare_lt_iff xs ys).mpr less
    · split
      · rename_i same
        exact (compare_eq_iff xs ys).mpr same
      · rename_i notLess notSame
        rw [compare_gt_iff]
        grind

instance instLawfulBEqBytes : LawfulBEq Bytes := inferInstanceAs (LawfulBEq (List UInt8))

instance : Std.LawfulOrderOrd Bytes where
  isLE_compare xs ys := by
    rw [Ordering.isLE_iff_ne_gt, ← not_lt, ← compare_gt_iff]
  isGE_compare xs ys := by
    rw [Ordering.isGE_iff_ne_lt, ← not_lt, ← compare_lt_iff]

end Vyrm.Lib
