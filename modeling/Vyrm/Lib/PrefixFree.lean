import Vyrm.Lib.Text

/-!
# Prefix-free encodings

An encoder is prefix-free when an encoded value can be split off the front of any
longer string in one way only. Fixed-width fields are, and the property passes
through concatenation, optional parts, tagged alternatives and counted lists.
Strings are shorter than `2 ^ 64` bytes, so that a length always fits its field.
-/

namespace Vyrm.Lib

variable {α β : Type}

/-- Two encoded values at the front of one string are the same value, followed by the same rest. -/
def PrefixFree (encode : α → Bytes) : Prop :=
  ∀ a b x y, (encode a ++ x).length < 2 ^ 64 → encode a ++ x = encode b ++ y → a = b ∧ x = y

namespace PrefixFree

variable {encode : α → Bytes}

/-- Nothing need follow: a prefix-free encoder is injective. -/
theorem inj (free : PrefixFree encode) {a b : α} (fits : (encode a).length < 2 ^ 64)
    (same : encode a = encode b) : a = b :=
  (free a b [] [] (by simpa using fits) (by simpa using same)).1

/-- No encoding is a strict prefix of another. -/
theorem eq_of_isPrefix (free : PrefixFree encode) {a b : α} (fits : (encode b).length < 2 ^ 64)
    (front : encode a <+: encode b) : a = b := by
  obtain ⟨rest, whole⟩ := front
  exact (free a b rest [] (by rw [whole]; exact fits) (by simpa using whole)).1

/-- Encodings of one width are prefix-free as soon as they are injective. -/
theorem of_width {width : Nat} (length : ∀ a, (encode a).length = width)
    (inj : ∀ a b, encode a = encode b → a = b) : PrefixFree encode := by
  intro a b x y _ same
  have parts := List.append_inj same (by rw [length, length])
  exact ⟨inj a b parts.1, parts.2⟩

/-- A tag in front of every encoding. -/
theorem tagged (free : PrefixFree encode) (tag : UInt8) : PrefixFree fun a => tag :: encode a := by
  intro a b x y fits same
  have short : (encode a ++ x).length < 2 ^ 64 := by
    simp only [List.cons_append, List.length_cons] at fits
    omega
  exact free a b x y short (List.cons.inj same).2

/-- Splits one field off two equal strings, whose rests stay short. -/
theorem split (free : PrefixFree encode) {a b : α} {x y : Bytes}
    (fits : (encode a ++ x).length < 2 ^ 64) (same : encode a ++ x = encode b ++ y) :
    a = b ∧ x.length < 2 ^ 64 ∧ x = y := by
  obtain ⟨first, rest⟩ := free a b x y fits same
  rw [List.length_append] at fits
  exact ⟨first, by omega, rest⟩

end PrefixFree

/-! ## Records -/

/-- What the front of a string encodes fixes `part` of the value it was made from. Encoders of
records are concatenations, and a concatenation fixes what its pieces fix. -/
def Fixes {γ : Type} (encode : α → Bytes) (part : α → γ) : Prop :=
  ∀ a b x y, (encode a ++ x).length < 2 ^ 64 → encode a ++ x = encode b ++ y → part a = part b ∧ x = y

namespace Fixes

variable {γ δ : Type} {f g : α → Bytes} {p : α → γ} {q : α → δ}

theorem append (first : Fixes f p) (second : Fixes g q) :
    Fixes (fun a => f a ++ g a) fun a => (p a, q a) := by
  intro a b x y fits same
  rw [List.append_assoc] at fits
  rw [List.append_assoc, List.append_assoc] at same
  obtain ⟨firsts, same⟩ := first a b _ _ fits same
  have short : (g a ++ x).length < 2 ^ 64 := by
    rw [List.length_append] at fits
    omega
  obtain ⟨seconds, rest⟩ := second a b x y short same
  exact ⟨Prod.ext firsts seconds, rest⟩

/-- A constant at the front fixes nothing. -/
theorem const (front : Bytes) : Fixes (fun _ : α => front) fun _ => () := by
  intro a b x y _ same
  exact ⟨rfl, List.append_cancel_left same⟩

theorem prefixFree (fixes : Fixes f p) (inj : ∀ a b, p a = p b → a = b) : PrefixFree f := by
  intro a b x y fits same
  obtain ⟨parts, rest⟩ := fixes a b x y fits same
  exact ⟨inj a b parts, rest⟩

end Fixes

/-- A field fixes the part of the record it encodes. -/
theorem PrefixFree.fixes {encode : β → Bytes} (free : PrefixFree encode) (part : α → β) :
    Fixes (fun a => encode (part a)) part := by
  intro a b x y fits same
  exact free _ _ x y fits same

/-! ## Fields -/

theorem prefixFree_toBE {width : Nat} {value : α → Nat} (small : ∀ a, value a < 256 ^ width)
    (inj : ∀ a b, value a = value b → a = b) : PrefixFree fun a => toBE width (value a) :=
  PrefixFree.of_width (fun a => length_toBE width (value a)) fun a b same =>
    inj a b (toBE_inj (small a) (small b) same)

/-- A length that fits its field is read back from it. -/
theorem toBE_split {m n : Nat} {x y : Bytes} (hm : m < 2 ^ 64) (hn : n < 2 ^ 64)
    (same : toBE 8 m ++ x = toBE 8 n ++ y) : m = n ∧ x = y := by
  have parts := List.append_inj same (by simp)
  exact ⟨toBE_inj (by omega) (by omega) parts.1, parts.2⟩

/-! ## Counted lists -/

/-- A list by its length and its items. -/
def counted (encode : α → Bytes) (items : List α) : Bytes :=
  toBE 8 items.length ++ items.flatMap encode

/-- Items of at least one byte each: a short string holds a short list. -/
theorem length_le_flatMap {encode : α → Bytes} (nonempty : ∀ a, encode a ≠ []) (items : List α) :
    items.length ≤ (items.flatMap encode).length := by
  induction items with
  | nil => simp
  | cons item items ih =>
    have := List.length_pos_iff.mpr (nonempty item)
    rw [List.flatMap_cons, List.length_append, List.length_cons]
    omega

/-- Lists of one length, item by item. -/
theorem flatMap_split {encode : α → Bytes} (free : PrefixFree encode) {as bs : List α} {x y : Bytes}
    (lengths : as.length = bs.length) (fits : (as.flatMap encode ++ x).length < 2 ^ 64)
    (same : as.flatMap encode ++ x = bs.flatMap encode ++ y) : as = bs ∧ x = y := by
  induction as generalizing bs with
  | nil =>
    have : bs = [] := by simpa using lengths.symm
    subst this
    exact ⟨rfl, by simpa using same⟩
  | cons a as ih =>
    cases bs with
    | nil => simp at lengths
    | cons b bs =>
      rw [List.flatMap_cons, List.append_assoc] at fits
      rw [List.flatMap_cons, List.flatMap_cons, List.append_assoc, List.append_assoc] at same
      obtain ⟨first, short, same⟩ := free.split fits same
      obtain ⟨later, rest⟩ := ih (by simpa using lengths) short same
      exact ⟨by rw [first, later], rest⟩

theorem prefixFree_counted {encode : α → Bytes} (free : PrefixFree encode)
    (nonempty : ∀ a, encode a ≠ []) : PrefixFree (counted encode) := by
  intro as bs x y fits same
  have fits' := fits
  rw [same] at fits'
  have small : ∀ (items : List α) (rest : Bytes), (counted encode items ++ rest).length < 2 ^ 64 →
      items.length < 2 ^ 64 := by
    intro items rest short
    have := length_le_flatMap nonempty items
    simp only [counted, List.length_append, length_toBE] at short
    omega
  simp only [counted, List.append_assoc] at fits same
  obtain ⟨lengths, same⟩ := toBE_split (small as x (by simpa [counted] using fits))
    (small bs y fits') same
  apply flatMap_split free lengths ?_ same
  rw [List.length_append] at fits
  omega

/-! ## Text -/

/-- A string by its length and its bytes. -/
def prefixed (bytes : Bytes) : Bytes := toBE 8 bytes.length ++ bytes

theorem prefixFree_prefixed : PrefixFree prefixed := by
  intro a b x y fits same
  have fits' := fits
  rw [same] at fits'
  simp only [prefixed, List.append_assoc, List.length_append, length_toBE] at fits fits' same
  obtain ⟨lengths, same⟩ := toBE_split (by omega) (by omega) same
  exact List.append_inj same lengths

/-- An encoding behind its own length. -/
theorem PrefixFree.prefixed {encode : α → Bytes} (free : PrefixFree encode) :
    PrefixFree fun a => prefixed (encode a) := by
  intro a b x y fits same
  obtain ⟨bytes, rest⟩ := prefixFree_prefixed _ _ x y fits same
  have short : (encode a).length < 2 ^ 64 := by
    simp only [Lib.prefixed, List.length_append, length_toBE] at fits
    omega
  exact ⟨free.inj short bytes, rest⟩

/-! ## Alternatives -/

/-- A presence flag and the value if there is one. -/
theorem prefixFree_optional {encode : α → Bytes} (free : PrefixFree encode) {none_ some_ : UInt8}
    (different : none_ ≠ some_) :
    PrefixFree fun
      | none => [none_]
      | some a => some_ :: encode a := by
  intro a b x y fits same
  cases a with
  | none =>
    cases b with
    | none => exact ⟨rfl, by simpa using same⟩
    | some b => exact absurd (by simpa using (List.cons.inj same).1) different
  | some a =>
    cases b with
    | none => exact absurd (by simpa using (List.cons.inj same).1.symm) different
    | some b =>
      obtain ⟨values, rest⟩ := free.tagged some_ a b x y fits same
      exact ⟨by rw [values], rest⟩

end Vyrm.Lib
