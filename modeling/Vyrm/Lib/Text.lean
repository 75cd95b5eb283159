import Vyrm.Lib.OrderedKeys

/-!
# UTF-8 text

Text as the programs see it: a string is its valid UTF-8 bytes, and strings are
ordered as those bytes are. `splitn` cuts a byte string at a separator.
-/

namespace Vyrm.Lib

/-- The UTF-8 bytes of a string. -/
def utf8 (text : String) : Bytes := text.toByteArray.data.toList

/-- The string that valid UTF-8 bytes denote. -/
def fromUtf8 (bytes : Bytes) : Option String := String.fromUTF8? ⟨bytes.toArray⟩

theorem utf8_inj {a b : String} : utf8 a = utf8 b ↔ a = b := by
  constructor
  · intro same
    have data : a.toByteArray.data = b.toByteArray.data := Array.toList_inj.mp same
    exact String.toByteArray_inj.mp (ByteArray.ext data)
  · intro same
    rw [same]

@[simp] theorem fromUtf8_utf8 (text : String) : fromUtf8 (utf8 text) = some text := by
  have valid : (⟨(utf8 text).toArray⟩ : ByteArray).IsValidUTF8 := by
    rw [show (⟨(utf8 text).toArray⟩ : ByteArray) = text.toByteArray from ByteArray.ext (by simp [utf8])]
    exact text.isValidUTF8
  rw [fromUtf8, String.fromUTF8?, dif_pos valid]
  congr 1

theorem utf8_eq_nil {text : String} : utf8 text = [] ↔ text = "" := by
  rw [← utf8_inj]
  exact Iff.rfl

theorem utf8_append (a b : String) : utf8 (a ++ b) = utf8 a ++ utf8 b := by
  simp [utf8]

theorem utf8EncodeChar_ascii : ∀ n : Fin 128,
    String.utf8EncodeChar (Char.ofNat n.val) = [UInt8.ofNat n.val] := by decide

theorem toNat_ofNat_ascii : ∀ n : Fin 128, (Char.ofNat n.val).toNat = n.val := by decide

/-- ASCII text has one byte for each character. -/
theorem utf8_ofList_ascii {chars : List Char} (ascii : ∀ c ∈ chars, c.toNat < 128) :
    utf8 (String.ofList chars) = chars.map fun c => UInt8.ofNat c.toNat := by
  rw [utf8, String.toByteArray_ofList]
  induction chars with
  | nil => rfl
  | cons c chars ih =>
    have single := utf8EncodeChar_ascii ⟨c.toNat, ascii c (by simp)⟩
    have later := ih fun c h => ascii c (by simp [h])
    rw [Char.ofNat_toNat] at single
    rw [List.utf8Encode_cons, List.utf8Encode_singleton, single]
    simp [later]

/-- ASCII bytes are the text of one character each. -/
theorem exists_utf8_of_ascii {bytes : Bytes} (small : ∀ byte ∈ bytes, byte.toNat < 128) :
    ∃ text, fromUtf8 bytes = some text ∧ utf8 text = bytes := by
  have back : ∀ byte ∈ bytes, (Char.ofNat byte.toNat).toNat = byte.toNat := by
    intro byte h
    exact toNat_ofNat_ascii ⟨byte.toNat, small byte h⟩
  have chars : utf8 (String.ofList (bytes.map fun byte => Char.ofNat byte.toNat)) = bytes := by
    rw [utf8_ofList_ascii]
    · rw [List.map_map]
      conv_rhs => rw [← List.map_id bytes]
      apply List.map_congr_left
      intro byte h
      simp [back byte h]
    · intro c h
      obtain ⟨byte, member, rfl⟩ := List.mem_map.mp h
      rw [back byte member]
      exact small byte member
  refine ⟨_, ?_, chars⟩
  conv_lhs => rw [← chars]
  exact fromUtf8_utf8 _

/-- The pieces between separators, at most `n` of them: the last holds what is left. -/
def splitn (sep : UInt8) : Nat → Bytes → List Bytes
  | 0, _ => []
  | 1, bytes => [bytes]
  | n + 2, bytes =>
    match bytes.dropWhile (· ≠ sep) with
    | [] => [bytes]
    | _ :: rest => bytes.takeWhile (· ≠ sep) :: splitn sep (n + 1) rest

theorem splitn_separated {sep : UInt8} {field : Bytes} (free : sep ∉ field) (n : Nat) (rest : Bytes) :
    splitn sep (n + 2) (field ++ sep :: rest) = field :: splitn sep (n + 1) rest := by
  have each : ∀ byte ∈ field, decide (byte ≠ sep) = true := by
    intro byte h
    simp only [decide_eq_true_eq]
    intro same
    exact free (same ▸ h)
  have dropped : (field ++ sep :: rest).dropWhile (· ≠ sep) = sep :: rest := by
    rw [List.dropWhile_append_of_pos each]
    simp
  have taken : (field ++ sep :: rest).takeWhile (· ≠ sep) = field := by
    rw [List.takeWhile_append_of_pos each]
    simp
  rw [splitn, dropped, taken]

end Vyrm.Lib
