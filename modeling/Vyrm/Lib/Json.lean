import Vyrm.Lib.Bytes

/-!
# Printing and parsing records

A `Format` is a printer with a parser that reads back what was printed and stops
there. Formats of numbers, strings and lists are combined into formats of
records; the combinators carry the round trip with them.
-/

namespace Vyrm.Lib

/-- The bytes of an ASCII text. -/
def ascii (text : String) : Bytes := text.toList.map fun c => UInt8.ofNat c.toNat

def isDigit (byte : UInt8) : Bool := 48 ≤ byte.toNat && byte.toNat ≤ 57

/-- Where a number ends: at the end, or before a byte that is not a digit. -/
def Ended (rest : Bytes) : Prop := ∀ byte ∈ rest.head?, isDigit byte = false

/-- A printer and the parser that inverts it. No printed value is empty or starts with `]`. -/
structure Format (α : Type) where
  print : α → Bytes
  parse : Bytes → Option (α × Bytes)
  parse_print : ∀ a rest, Ended rest → parse (print a ++ rest) = some (a, rest)
  opens : ∀ a, ∃ byte tail, print a = byte :: tail ∧ byte ≠ 93

namespace Format

variable {α β : Type}

/-! ## Numbers -/

/-- A decimal digit. -/
def digit (n : Nat) : UInt8 := UInt8.ofNat (48 + n)

/-- The decimal digits of a number, with enough `fuel` for all of them. -/
def decimal : Nat → Nat → Bytes
  | 0, n => [digit (n % 10)]
  | fuel + 1, n => if n < 10 then [digit n] else decimal fuel (n / 10) ++ [digit (n % 10)]

/-- The number that a list of digits denotes. -/
def ofDecimal (digits : Bytes) : Nat :=
  digits.foldl (fun value byte => value * 10 + (byte.toNat - 48)) 0

theorem toNat_digit {n : Nat} (small : n < 10) : (digit n).toNat = 48 + n := by
  rw [digit, UInt8.toNat_ofNat']
  omega

theorem isDigit_digit {n : Nat} (small : n < 10) : isDigit (digit n) = true := by
  unfold isDigit
  rw [toNat_digit small]
  simp
  omega

theorem all_decimal (fuel n : Nat) : (decimal fuel n).all isDigit = true := by
  have last := isDigit_digit (Nat.mod_lt n (by decide : 0 < 10))
  induction fuel generalizing n with
  | zero => simp [decimal, last]
  | succ fuel ih =>
    rw [decimal]
    split
    · rename_i small
      simp [isDigit_digit small]
    · simp [ih _ (isDigit_digit (Nat.mod_lt (n / 10) (by decide : 0 < 10))), last]

theorem ofDecimal_decimal {fuel n : Nat} (enough : n < 10 ^ (fuel + 1)) :
    ofDecimal (decimal fuel n) = n := by
  induction fuel generalizing n with
  | zero =>
    have small : n < 10 := by simpa using enough
    simp [decimal, ofDecimal, Nat.mod_eq_of_lt small, toNat_digit small]
  | succ fuel ih =>
    rw [decimal]
    split
    · rename_i small
      simp [ofDecimal, toNat_digit small]
    · have shorter : n / 10 < 10 ^ (fuel + 1) := by
        rw [Nat.div_lt_iff_lt_mul (by decide)]
        rw [Nat.pow_succ] at enough
        exact enough
      have front := ih shorter
      unfold ofDecimal at front ⊢
      rw [List.foldl_append, front]
      simp only [List.foldl_cons, List.foldl_nil, toNat_digit (Nat.mod_lt n (by decide : 0 < 10))]
      omega

theorem decimal_ne_nil (fuel n : Nat) : decimal fuel n ≠ [] := by
  cases fuel with
  | zero => simp [decimal]
  | succ fuel =>
    rw [decimal]
    split <;> simp

theorem takeWhile_digits {digits rest : Bytes} (all : digits.all isDigit = true) (ended : Ended rest) :
    (digits ++ rest).takeWhile isDigit = digits ∧ (digits ++ rest).dropWhile isDigit = rest := by
  have each : ∀ byte ∈ digits, isDigit byte = true := List.all_eq_true.mp all
  rw [List.takeWhile_append_of_pos each, List.dropWhile_append_of_pos each]
  cases rest with
  | nil => simp
  | cons byte tail => simp [ended byte rfl]

/-- A number in decimal. -/
def nat : Format Nat where
  print n := decimal n.log2 n
  parse bytes :=
    let digits := bytes.takeWhile isDigit
    if digits = [] then none else some (ofDecimal digits, bytes.dropWhile isDigit)
  parse_print n rest ended := by
    obtain ⟨taken, dropped⟩ := takeWhile_digits (all_decimal n.log2 n) ended
    have enough : n < 10 ^ (n.log2 + 1) := calc
      n < 2 ^ (n.log2 + 1) := Nat.lt_log2_self
      _ ≤ 10 ^ (n.log2 + 1) := Nat.pow_le_pow_left (by decide) _
    simp only [taken, dropped, decimal_ne_nil, if_false, ofDecimal_decimal enough]
  opens n := by
    cases shape : decimal n.log2 n with
    | nil => exact absurd shape (decimal_ne_nil _ _)
    | cons byte tail =>
      refine ⟨byte, tail, rfl, ?_⟩
      rintro rfl
      have digits := all_decimal n.log2 n
      rw [shape] at digits
      simp [isDigit] at digits

/-! ## Strings -/

/-- A quote or a backslash is escaped. -/
def escape : Bytes → Bytes
  | [] => []
  | byte :: rest => if byte = 34 ∨ byte = 92 then 92 :: byte :: escape rest else byte :: escape rest

/-- Reads up to the closing quote. -/
def unescape : Bytes → Option (Bytes × Bytes)
  | [] => none
  | 34 :: rest => some ([], rest)
  | 92 :: byte :: rest => (unescape rest).map fun (text, rest) => (byte :: text, rest)
  | byte :: rest => (unescape rest).map fun (text, rest) => (byte :: text, rest)

theorem unescape_escape (text rest : Bytes) :
    unescape (escape text ++ 34 :: rest) = some (text, rest) := by
  induction text with
  | nil => rfl
  | cons byte text ih =>
    rw [escape]
    split
    · rw [List.cons_append, List.cons_append, unescape, ih]
      rfl
    · rename_i plain
      push Not at plain
      rw [List.cons_append, unescape.eq_4 _ _ (fun h => plain.1 h) (fun _ _ h => absurd h plain.2), ih]
      rfl

/-- A string in quotes. -/
def string : Format Bytes where
  print text := 34 :: (escape text ++ [34])
  parse
    | 34 :: rest => unescape rest
    | _ => none
  parse_print text rest _ := by
    simp only [List.cons_append, List.append_assoc, List.nil_append]
    exact unescape_escape text rest
  opens text := ⟨34, _, rfl, by decide⟩

/-- A string or `null`. -/
def optionalString : Format (Option Bytes) where
  print
    | none => ascii "null"
    | some text => string.print text
  parse
    | 110 :: 117 :: 108 :: 108 :: rest => some (none, rest)
    | bytes => (string.parse bytes).map fun (text, rest) => (some text, rest)
  parse_print option rest ended := by
    cases option with
    | none => rfl
    | some text =>
      have back := string.parse_print text rest ended
      change (string.parse (string.print text ++ rest)).map _ = _
      rw [back]
      rfl
  opens option := by
    cases option with
    | none => exact ⟨110, _, rfl, by decide⟩
    | some text => exact string.opens text

/-! ## Lists -/

/-- What follows the first element of a printed list. -/
def printTail (format : Format α) : List α → Bytes
  | [] => [93]
  | a :: rest => 44 :: (format.print a ++ printTail format rest)

/-- Reads what follows the first element of a printed list. -/
def parseTail (format : Format α) : Nat → Bytes → Option (List α × Bytes)
  | 0, _ => none
  | fuel + 1, bytes =>
    match bytes with
    | 93 :: rest => some ([], rest)
    | 44 :: rest => do
      let (a, rest) ← format.parse rest
      let (items, rest) ← parseTail format fuel rest
      return (a :: items, rest)
    | _ => none

theorem ended_printTail (format : Format α) (items : List α) (rest : Bytes) :
    Ended (printTail format items ++ rest) := by
  cases items with
  | nil =>
    intro byte first
    cases first
    decide
  | cons a items =>
    intro byte first
    cases first
    decide

theorem length_printTail (format : Format α) (items : List α) :
    items.length < (printTail format items).length := by
  induction items with
  | nil => simp [printTail]
  | cons a items ih =>
    simp only [printTail, List.length_cons, List.length_append]
    omega

theorem parseTail_printTail (format : Format α) {fuel : Nat} {items : List α}
    (enough : items.length < fuel) (rest : Bytes) :
    parseTail format fuel (printTail format items ++ rest) = some (items, rest) := by
  induction items generalizing fuel with
  | nil =>
    obtain ⟨fuel, rfl⟩ : ∃ n, fuel = n + 1 := ⟨fuel - 1, by omega⟩
    rfl
  | cons a items ih =>
    obtain ⟨fuel, rfl⟩ : ∃ n, fuel = n + 1 := ⟨fuel - 1, by omega⟩
    rw [List.length_cons] at enough
    simp only [printTail, List.cons_append, List.append_assoc, parseTail]
    rw [format.parse_print a _ (ended_printTail format items rest)]
    simp only [Option.bind_eq_bind, Option.bind_some]
    rw [ih (by omega)]
    rfl

/-- A list in brackets. -/
def list (format : Format α) : Format (List α) where
  print
    | [] => [91, 93]
    | a :: rest => 91 :: (format.print a ++ printTail format rest)
  parse
    | 91 :: 93 :: rest => some ([], rest)
    | 91 :: rest => do
      let (a, rest) ← format.parse rest
      let (items, rest) ← parseTail format rest.length rest
      return (a :: items, rest)
    | _ => none
  parse_print items rest ended := by
    cases items with
    | nil => rfl
    | cons a items =>
      obtain ⟨byte, tail, printed, notClosing⟩ := format.opens a
      have back := format.parse_print a _ (ended_printTail format items rest)
      have enough : items.length < (printTail format items ++ rest).length := by
        have := length_printTail format items
        rw [List.length_append]
        omega
      simp only [List.cons_append, List.append_assoc]
      rw [printed] at back ⊢
      split
      · rename_i same
        cases same
        exact absurd rfl notClosing
      · rename_i same
        cases same
        rw [back]
        simp only [Option.bind_eq_bind, Option.bind_some]
        rw [parseTail_printTail format enough]
        rfl
      · rename_i other
        exact absurd rfl (other _)
  opens items := by
    cases items with
    | nil => exact ⟨91, _, rfl, by decide⟩
    | cons a rest => exact ⟨91, _, rfl, by decide⟩

/-! ## Records -/

/-- The text after `lead`, when the input starts with it. -/
def skip : Bytes → Bytes → Option Bytes
  | [], bytes => some bytes
  | byte :: lead, first :: rest => if byte = first then skip lead rest else none
  | _ :: _, [] => none

theorem skip_append (lead rest : Bytes) : skip lead (lead ++ rest) = some rest := by
  induction lead with
  | nil => cases rest <;> rfl
  | cons byte lead ih => simp [skip, ih]

/-- Two values with a text between them. -/
def pair (first : Format α) (between : Bytes) (second : Format β)
    (ended : ∀ rest, Ended (between ++ rest)) : Format (α × β) where
  print value := first.print value.1 ++ (between ++ second.print value.2)
  parse bytes := do
    let (a, rest) ← first.parse bytes
    let rest ← skip between rest
    let (b, rest) ← second.parse rest
    return ((a, b), rest)
  parse_print value rest h := by
    simp only [List.append_assoc]
    rw [first.parse_print _ _ (ended _)]
    simp only [Option.bind_eq_bind, Option.bind_some]
    rw [skip_append]
    simp only [Option.bind_some]
    rw [second.parse_print _ _ h]
    rfl
  opens value := by
    obtain ⟨byte, tail, printed, notClosing⟩ := first.opens value.1
    exact ⟨byte, _, by rw [printed]; rfl, notClosing⟩

/-- A value in braces, after the name of its first field. -/
def braced (name : Bytes) (inner : Format α) : Format α where
  print value := 123 :: (name ++ (inner.print value ++ [125]))
  parse bytes := do
    let rest ← skip (123 :: name) bytes
    let (a, rest) ← inner.parse rest
    let rest ← skip [125] rest
    return (a, rest)
  parse_print value rest _ := by
    have start : 123 :: (name ++ (inner.print value ++ [125])) ++ rest =
        (123 :: name) ++ (inner.print value ++ (125 :: rest)) := by simp
    have ended : Ended (125 :: rest) := by
      intro byte first
      cases first
      decide
    rw [start, skip_append]
    simp only [Option.bind_eq_bind, Option.bind_some]
    rw [inner.parse_print _ _ ended]
    simp [skip]
  opens value := ⟨123, _, rfl, by decide⟩

/-- A record by the tuple of its fields. -/
def iso (format : Format α) (make : α → β) (fields : β → α) (inverse : ∀ b, make (fields b) = b) :
    Format β where
  print value := format.print (fields value)
  parse bytes := (format.parse bytes).map fun (a, rest) => (make a, rest)
  parse_print value rest ended := by
    rw [format.parse_print _ _ ended]
    simp [inverse]
  opens value := format.opens _

/-- `true` or `false`. -/
def bool : Format Bool where
  print
    | true => ascii "true"
    | false => ascii "false"
  parse
    | 116 :: 114 :: 117 :: 101 :: rest => some (true, rest)
    | 102 :: 97 :: 108 :: 115 :: 101 :: rest => some (false, rest)
    | _ => none
  parse_print value rest _ := by cases value <;> rfl
  opens value := by
    cases value with
    | true => exact ⟨116, _, rfl, by decide⟩
    | false => exact ⟨102, _, rfl, by decide⟩

/-- A value or `null`, where no value is printed with an `n` in front. -/
def nullable (format : Format α) (plain : ∀ a, (format.print a).head? ≠ some 110) : Format (Option α) where
  print
    | none => ascii "null"
    | some a => format.print a
  parse bytes :=
    match skip (ascii "null") bytes with
    | some rest => some (none, rest)
    | none => (format.parse bytes).map fun (a, rest) => (some a, rest)
  parse_print option rest ended := by
    cases option with
    | none => rfl
    | some a =>
      obtain ⟨byte, tail, printed, -⟩ := format.opens a
      have other : (110 : UInt8) ≠ byte := by
        rintro rfl
        exact plain a (by rw [printed]; rfl)
      have back := format.parse_print a rest ended
      have skipped : skip (ascii "null") (format.print a ++ rest) = none := by
        rw [printed]
        exact if_neg other
      dsimp only
      rw [skipped]
      dsimp only
      rw [back]
      rfl
  opens option := by
    cases option with
    | none => exact ⟨110, _, rfl, by decide⟩
    | some a => exact format.opens a

/-- Reads a whole input. -/
def parseAll (format : Format α) (bytes : Bytes) : Option α :=
  match format.parse bytes with
  | some (a, []) => some a
  | _ => none

theorem parseAll_print (format : Format α) (a : α) : format.parseAll (format.print a) = some a := by
  have back := format.parse_print a [] (by intro byte first; cases first)
  rw [List.append_nil] at back
  simp [parseAll, back]

end Format
end Vyrm.Lib
