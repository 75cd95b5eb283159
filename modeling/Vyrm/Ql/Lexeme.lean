import Vyrm.Ql.Erase

/-!
# Texts as lexemes

A query text is a list of lexemes with ASCII whitespace between them. Every text is one, and
its tokens are those of its lexemes, whatever the whitespace.
-/

namespace Vyrm.Ql
open Lib Vyrm.Core

/-- What the tokenizer reads as one token. A string is the text between its quotes, as written;
an unclosed string runs to the end of the text. -/
inductive Lexeme where
  | mark (c : Char)
  | digits (chars : List Char)
  | word (chars : List Char)
  | string (body : List Char)
  | unclosed (body : List Char)
  deriving DecidableEq

/-- Whether every quote is escaped and every escape complete. -/
def isClosed : List Char → Bool
  | [] => true
  | '"' :: _ => false
  | ['\\'] => false
  | '\\' :: _ :: rest => isClosed rest
  | _ :: rest => isClosed rest

/-- Whether every quote is escaped; the last escape may be incomplete. -/
def isUnclosed : List Char → Bool
  | [] => true
  | '"' :: _ => false
  | ['\\'] => true
  | '\\' :: _ :: rest => isUnclosed rest
  | _ :: rest => isUnclosed rest

/-- The value of the text between two quotes. -/
def unescapeAll : List Char → Option (List Char)
  | [] => some []
  | '\\' :: escaped :: rest => do
    let c ← unescape escaped
    let value ← unescapeAll rest
    return c :: value
  | c :: rest => (unescapeAll rest).map (c :: ·)

/-- Whether the characters can stand as a word. -/
def isWord (chars : List Char) : Bool :=
  chars ≠ [] && chars.all isWordChar && !chars.head?.any Char.isDigit

namespace Lexeme

/-- The characters of a lexeme. -/
def text : Lexeme → List Char
  | .mark c => [c]
  | .digits chars => chars
  | .word chars => chars
  | .string body => '"' :: body ++ ['"']
  | .unclosed body => '"' :: body

def WellFormed : Lexeme → Prop
  | .mark c => c = ':' ∨ c = ',' ∨ c = '=' ∨ c = '*'
  | .digits chars => chars ≠ [] ∧ chars.all Char.isDigit
  | .word chars => isWord chars
  | .string body => isClosed body
  | .unclosed body => isUnclosed body

/-- Whether the text after a lexeme leaves it as it is. -/
def Separated : Lexeme → List Char → Prop
  | .digits _, rest => ∀ c ∈ rest.head?, c.isDigit = false
  | .word _, rest => ∀ c ∈ rest.head?, isWordChar c = false
  | .unclosed _, rest => rest = []
  | _, _ => True

/-- The token of a lexeme, unless it has none. -/
def kind : Lexeme → Option TokenKind
  | .mark c =>
    if c = ':' then some .colon else if c = ',' then some .comma
    else if c = '=' then some .equals else some .star
  | .digits chars =>
    let value := Nat.ofDigitChars 10 chars 0
    if value < 2 ^ 64 then some (.number (UInt64.ofNat value)) else none
  | .word chars => some (.word (String.ofList chars))
  | .string body => (unescapeAll body).map fun value => .string (String.ofList value)
  | .unclosed _ => none

end Lexeme

/-- A text of the lexemes, with ASCII whitespace before, between and after them. -/
inductive Spells : List Lexeme → List Char → Prop where
  | nil : Spells [] []
  | space {lexemes : List Lexeme} {chars : List Char} {c : Char} (space : isAsciiWhitespace c)
      (rest : Spells lexemes chars) : Spells lexemes (c :: chars)
  | cons {first : Lexeme} {lexemes : List Lexeme} {chars : List Char}
      (formed : first.WellFormed) (separated : first.Separated chars)
      (rest : Spells lexemes chars) : Spells (first :: lexemes) (first.text ++ chars)

/-! ## Scanning a lexeme -/

/-- What a scan says without its offsets. -/
def scanned (run : Except ParseError (TokenKind × Nat × List Char)) : Option (TokenKind × List Char) :=
  run.toOption.map fun (kind, _, later) => (kind, later)

theorem not_escape {c : Char} {body : List Char} (notLast : c = '\\' → body = [] → False)
    (notEscape : ∀ head rest, c = '\\' → body = head :: rest → False) : c ≠ '\\' := by
  intro slash
  cases body with
  | nil => exact notLast slash rfl
  | cons head rest => exact notEscape head rest slash rfl

theorem stringFrom_closed {offset cursor : Nat} {value body : List Char} (rest : List Char)
    (closed : isClosed body) :
    scanned (stringFrom offset cursor value (body ++ '"' :: rest)) =
      (unescapeAll body).map fun more => (.string (String.ofList (value ++ more)), rest) := by
  fun_induction isClosed body generalizing cursor value with
  | case1 => simp [scanned, stringFrom, unescapeAll, Except.toOption]
  | case2 => cases closed
  | case3 => cases closed
  | case4 escaped body ih =>
    rw [List.cons_append, List.cons_append, stringFrom, unescapeAll]
    cases unescape escaped with
    | none => rfl
    | some c =>
      dsimp only
      rw [ih closed]
      cases unescapeAll body <;> simp
  | case5 c body notQuote notLast notEscape ih =>
    have plain := not_escape notLast notEscape
    rw [List.cons_append, stringFrom, unescapeAll]
    · rw [ih closed]
      cases unescapeAll body <;> simp
    · exact notEscape
    · exact notQuote
    · exact fun slash _ => plain slash
    · exact fun _ _ slash _ => plain slash

theorem stringFrom_unclosed {offset cursor : Nat} {value body : List Char} (unclosed : isUnclosed body) :
    scanned (stringFrom offset cursor value body) = none := by
  fun_induction isUnclosed body generalizing cursor value with
  | case1 => rfl
  | case2 => cases unclosed
  | case3 => rfl
  | case4 escaped body ih =>
    rw [stringFrom]
    cases unescape escaped with
    | none => rfl
    | some c => exact ih unclosed
  | case5 c body notQuote notLast notEscape ih =>
    have plain := not_escape notLast notEscape
    rw [stringFrom]
    · exact ih unclosed
    · exact notQuote
    · exact fun slash _ => plain slash
    · exact fun _ _ slash _ => plain slash

section

variable {p : Char → Bool} {chars rest : List Char}

theorem takeWhile_prefix (all : chars.all p) (ended : ∀ c ∈ rest.head?, p c = false) :
    (chars ++ rest).takeWhile p = chars := by
  rw [List.takeWhile_append_of_pos (List.all_eq_true.mp all)]
  cases rest with
  | nil => rw [List.takeWhile_nil, List.append_nil]
  | cons c rest =>
    rw [List.takeWhile_cons_of_neg (by rw [ended c rfl]; decide), List.append_nil]

theorem dropWhile_prefix (all : chars.all p) (ended : ∀ c ∈ rest.head?, p c = false) :
    (chars ++ rest).dropWhile p = rest := by
  rw [List.dropWhile_append_of_pos (List.all_eq_true.mp all)]
  cases rest with
  | nil => rfl
  | cons c rest => exact List.dropWhile_cons_of_neg (by rw [ended c rfl]; decide)

end

theorem isWordChar_iff {c : Char} :
    isWordChar c = true ↔ isAsciiWhitespace c = false ∧ c ≠ ':' ∧ c ≠ ',' ∧ c ≠ '=' ∧ c ≠ '*' ∧ c ≠ '"' := by
  simp only [isWordChar, Bool.and_eq_true, Bool.not_eq_true', decide_eq_true_eq, and_assoc]

theorem digit_not_mark {c : Char} (digit : c.isDigit) :
    c ≠ ':' ∧ c ≠ ',' ∧ c ≠ '=' ∧ c ≠ '*' ∧ c ≠ '"' ∧ isAsciiWhitespace c = false := by
  have other : ∀ {mark : Char}, mark.isDigit = false → c ≠ mark := by
    intro mark notDigit same
    rw [same, notDigit] at digit
    cases digit
  refine ⟨other rfl, other rfl, other rfl, other rfl, other rfl, ?_⟩
  simp [isAsciiWhitespace, other]

/-- Where a lexeme starts, the scan takes its token and leaves the rest, or fails. -/
theorem scan_lexeme {lexeme : Lexeme} {c : Char} {front rest : List Char} (offset : Nat)
    (formed : lexeme.WellFormed) (separated : lexeme.Separated rest) (starts : lexeme.text = c :: front) :
    isAsciiWhitespace c = false ∧
      scanned (scan offset c (front ++ rest)) = lexeme.kind.map fun kind => (kind, rest) := by
  cases lexeme with
  | mark mark =>
    cases starts
    rcases formed with rfl | rfl | rfl | rfl
    all_goals exact ⟨rfl, rfl⟩
  | digits chars =>
    cases starts
    obtain ⟨-, all⟩ := formed
    have digit : c.isDigit := List.all_eq_true.mp all c List.mem_cons_self
    obtain ⟨notColon, notComma, notEquals, notStar, notQuote, notSpace⟩ := digit_not_mark digit
    refine ⟨notSpace, ?_⟩
    unfold scan
    rw [if_neg notColon, if_neg notComma, if_neg notEquals, if_neg notStar, if_neg notQuote, if_pos digit,
      ← List.cons_append, takeWhile_prefix all separated, dropWhile_prefix all separated]
    dsimp only [Lexeme.kind]
    split
    · rfl
    · rfl
  | word chars =>
    cases starts
    simp only [Lexeme.WellFormed, isWord, Bool.and_eq_true, List.head?_cons, Option.any_some,
      Bool.not_eq_true'] at formed
    obtain ⟨⟨-, all⟩, notDigit⟩ := formed
    have word := List.all_eq_true.mp all c List.mem_cons_self
    obtain ⟨notSpace, notColon, notComma, notEquals, notStar, notQuote⟩ := isWordChar_iff.mp word
    refine ⟨notSpace, ?_⟩
    unfold scan
    rw [if_neg notColon, if_neg notComma, if_neg notEquals, if_neg notStar, if_neg notQuote,
      if_neg (by rw [notDigit]; decide), ← List.cons_append, takeWhile_prefix all separated,
      dropWhile_prefix all separated]
    rfl
  | string body =>
    cases starts
    refine ⟨rfl, ?_⟩
    show scanned (stringFrom _ _ [] (body ++ ['"'] ++ rest)) = _
    rw [List.append_assoc, List.singleton_append, stringFrom_closed rest formed]
    dsimp only [Lexeme.kind]
    cases unescapeAll body <;> rfl
  | unclosed body =>
    cases starts
    cases separated
    refine ⟨rfl, ?_⟩
    rw [List.append_nil]
    exact stringFrom_unclosed formed

/-! ## Tokens of a text -/

theorem Lexeme.text_ne_nil {lexeme : Lexeme} (formed : lexeme.WellFormed) : lexeme.text ≠ [] := by
  cases lexeme with
  | digits chars => exact formed.1
  | word chars =>
    simp only [WellFormed, isWord, Bool.and_eq_true, decide_eq_true_eq] at formed
    exact formed.1.1
  | _ => exact List.cons_ne_nil _ _

/-- The tokens of a text are those of its lexemes. -/
theorem Spells.tokens {lexemes : List Lexeme} {chars : List Char} (spells : Spells lexemes chars)
    (offset : Nat) :
    (tokenizeFrom offset chars).toOption.map (·.map (·.kind)) = lexemes.mapM Lexeme.kind := by
  induction spells generalizing offset with
  | nil =>
    rw [tokenizeFrom]
    rfl
  | space space _ ih =>
    rw [tokenizeFrom, if_pos space]
    exact ih _
  | @cons first lexemes chars formed separated _ ih =>
    obtain ⟨c, front, starts⟩ := List.exists_cons_of_ne_nil (Lexeme.text_ne_nil formed)
    obtain ⟨notSpace, scans⟩ := scan_lexeme offset formed separated starts
    rw [starts, List.cons_append, tokenizeFrom, if_neg (by rw [notSpace]; decide), List.mapM_cons]
    split
    · next e failed =>
      rw [failed] at scans
      cases kind : first.kind with
      | none => rfl
      | some kind' => rw [kind] at scans; cases scans
    · next kind after later found =>
      rw [found] at scans
      cases isKind : first.kind with
      | none => rw [isKind] at scans; cases scans
      | some kind' =>
        rw [isKind] at scans
        cases scans
        rw [Option.bind_eq_bind, Option.bind_some, ← ih after]
        cases tokenizeFrom after chars <;> rfl

/-- A text is parsed by the tokens of its lexemes. -/
theorem Spells.parse {lexemes : List Lexeme} {input : String} (spells : Spells lexemes input.toList) :
    (parse input).toOption = (lexemes.mapM Lexeme.kind).bind Reading.query := by
  rw [parse_eq, ← spells.tokens 0, tokenize]
  cases tokenizeFrom 0 input.toList <;> rfl

/-! ## Every text has its lexemes -/

/-- After an opening quote: the string closes, or runs to the end. -/
theorem closes_or_unclosed (rest : List Char) :
    (∃ body later, rest = body ++ '"' :: later ∧ isClosed body) ∨ isUnclosed rest := by
  fun_induction isUnclosed rest with
  | case1 => exact .inr rfl
  | case2 later => exact .inl ⟨[], later, rfl, rfl⟩
  | case3 => exact .inr rfl
  | case4 escaped rest ih =>
    rcases ih with ⟨body, later, rfl, closed⟩ | unclosed
    · exact .inl ⟨'\\' :: escaped :: body, later, rfl, closed⟩
    · exact .inr unclosed
  | case5 c rest notQuote notLast notEscape ih =>
    rcases ih with ⟨body, later, rfl, closed⟩ | unclosed
    · have plain := not_escape notLast notEscape
      refine .inl ⟨c :: body, later, rfl, ?_⟩
      rw [isClosed]
      · exact closed
      · exact notQuote
      · exact fun slash _ => plain slash
      · exact fun _ _ slash _ => plain slash
    · exact .inr unclosed

theorem head_dropWhile {p : Char → Bool} (chars : List Char) :
    ∀ c ∈ (chars.dropWhile p).head?, p c = false := by
  intro c head
  have := List.head?_dropWhile_not p chars
  rw [Option.mem_def.mp head] at this
  simpa using this

theorem exists_spells (chars : List Char) : ∃ lexemes, Spells lexemes chars := by
  induction length : chars.length using Nat.strongRecOn generalizing chars with
  | ind n ih =>
    subst length
    cases chars with
    | nil => exact ⟨[], .nil⟩
    | cons c rest =>
      have later : ∀ chars : List Char, chars.length ≤ rest.length → ∃ lexemes, Spells lexemes chars :=
        fun chars shorter => ih chars.length (Nat.lt_succ_of_le shorter) chars rfl
      by_cases space : isAsciiWhitespace c
      · obtain ⟨lexemes, spells⟩ := later rest (Nat.le_refl _)
        exact ⟨lexemes, .space space spells⟩
      by_cases mark : c = ':' ∨ c = ',' ∨ c = '=' ∨ c = '*'
      · obtain ⟨lexemes, spells⟩ := later rest (Nat.le_refl _)
        exact ⟨_, @Spells.cons (.mark c) _ _ mark trivial spells⟩
      by_cases quote : c = '"'
      · subst quote
        rcases closes_or_unclosed rest with ⟨body, after, rfl, closed⟩ | unclosed
        · have shorter : after.length ≤ (body ++ '"' :: after).length := by
            simp only [List.length_append, List.length_cons]
            omega
          obtain ⟨lexemes, spells⟩ := later after shorter
          have spelled := @Spells.cons (.string body) _ _ closed trivial spells
          rw [Lexeme.text, List.append_assoc, List.singleton_append] at spelled
          exact ⟨_, spelled⟩
        · have spelled := @Spells.cons (.unclosed rest) _ _ unclosed rfl .nil
          rw [List.append_nil] at spelled
          exact ⟨_, spelled⟩
      by_cases digit : c.isDigit
      · obtain ⟨lexemes, spells⟩ := later _ (Nat.le_of_lt_succ (dropWhile_shorter digit))
        have formed : (Lexeme.digits ((c :: rest).takeWhile Char.isDigit)).WellFormed := by
          refine ⟨?_, List.all_takeWhile⟩
          rw [List.takeWhile_cons_of_pos digit]
          exact List.cons_ne_nil _ _
        have spelled := Spells.cons formed (head_dropWhile (c :: rest)) spells
        rw [Lexeme.text, List.takeWhile_append_dropWhile] at spelled
        exact ⟨_, spelled⟩
      · have word : isWordChar c := by
          rw [isWordChar_iff]
          simp only [not_or] at mark
          exact ⟨by simpa using space, mark.1, mark.2.1, mark.2.2.1, mark.2.2.2, quote⟩
        obtain ⟨lexemes, spells⟩ := later _ (Nat.le_of_lt_succ (dropWhile_shorter word))
        have formed : (Lexeme.word ((c :: rest).takeWhile isWordChar)).WellFormed := by
          rw [Lexeme.WellFormed, isWord, List.takeWhile_cons_of_pos word]
          simp [List.all_takeWhile, word, digit]
        have spelled := Spells.cons formed (head_dropWhile (c :: rest)) spells
        rw [Lexeme.text, List.takeWhile_append_dropWhile] at spelled
        exact ⟨_, spelled⟩

end Vyrm.Ql
