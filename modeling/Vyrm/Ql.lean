import Vyrm.Core.Data

/-!
# Query text

`crates/vyrm-ql/src/lib.rs`: queries, their canonical text, the tokenizer and the parser.
The tokenizer walks over the bytes of its input; every byte it tests for is ASCII, so it is
modelled over characters, with the byte offsets counted along.
-/

namespace Vyrm.Ql
open Lib Vyrm.Core

/-! ## Queries -/

/-- `QUERY_CONTRACT_VERSION` (`lib.rs:12`). -/
def queryContractVersion : UInt16 := 1

/-- `Source` (`lib.rs:116-130`). -/
inductive Source where
  | record (kind : RuntimeType)
  | relation (kind : RuntimeType)
  | event (kind : RuntimeType)
  | claim (predicate : Option Predicate)
  deriving DecidableEq

/-- `TimeExpr` (`lib.rs:153-156`). -/
inductive TimeExpr where
  | literal (value : UInt64)
  | parameter (value : String)
  deriving DecidableEq

/-- `CursorExpr` (`lib.rs:169-173`). -/
inductive CursorExpr where
  | head
  | literal (value : UInt64)
  | parameter (value : String)
  deriving DecidableEq

/-- `TemporalSelector` (`lib.rs:146-149`). -/
structure TemporalSelector where
  validAt : TimeExpr
  knownAt : CursorExpr
  deriving DecidableEq

/-- `ValueExpr` (`lib.rs:193-196`). -/
inductive ValueExpr where
  | literal (value : RuntimeValue)
  | parameter (value : String)
  deriving DecidableEq

/-- `Filter` (`lib.rs:186-189`). -/
structure Filter where
  field : String
  value : ValueExpr
  deriving DecidableEq

/-- `Projection` (`lib.rs:214-217`). -/
inductive Projection where
  | all
  | fields (fields : List String)
  deriving DecidableEq

/-- `Query` (`lib.rs:15-26`). `usize` has 64 bits. -/
structure Query where
  contractVersion : UInt16
  source : Source
  temporal : TemporalSelector
  filters : List Filter
  projection : Projection
  limit : Option UInt64
  explainContract : Bool
  deriving DecidableEq

/-- `ParseError` (`lib.rs:220-223`). -/
structure ParseError where
  offset : Nat
  message : String
  deriving DecidableEq

/-- `Query::new` (`lib.rs:29-39`). -/
def Query.new (source : Source) (temporal : TemporalSelector) : Query :=
  { contractVersion := queryContractVersion, source, temporal, filters := [], projection := .all,
    limit := none, explainContract := false }

/-- `char::is_ascii_alphanumeric`, `_` or `.`. -/
def isFieldChar (c : Char) : Bool := c.isAlphanum || c = '_' || c = '.'

/-- The test of `validate_field` (`lib.rs:659-663`). -/
def isField (value : String) : Bool := value ≠ "" && value.toList.all isFieldChar

/-- `validate_field` (`lib.rs:658-670`). -/
def validateField (value : String) (offset : Nat) : Except ParseError Unit :=
  if isField value then .ok ()
  else
    let shown := debugText value
    .error ⟨offset, s!"invalid field or parameter name {shown}"⟩

/-- The literals that `validate` admits (`lib.rs:66-73`). -/
def isScalar : RuntimeValue → Bool
  | .null | .bool _ | .integer _ | .unsigned _ | .string _ => true
  | _ => false

/-- The loop over the filters (`lib.rs:63-80`). -/
def validateFilters (filters : List Filter) : Except ParseError Unit :=
  filters.forM fun filter => do
    validateField filter.field 0
    match filter.value with
    | .literal value =>
      if isScalar value then .ok ()
      else .error ⟨0, "this query contract only supports scalar filter literals"⟩
    | .parameter _ => .ok ()

/-- `Query::validate` (`lib.rs:41-82`). -/
def Query.validate (query : Query) : Except ParseError Unit := do
  if query.contractVersion ≠ queryContractVersion then
    let version := query.contractVersion
    .error ⟨0, s!"unsupported query contract version {version}"⟩
  else if query.limit = some 0 then .error ⟨0, "LIMIT must be greater than zero"⟩
  else
    match query.projection with
    | .fields fields =>
      if fields = [] then .error ⟨0, "PROJECT requires at least one field"⟩
      else
        fields.forM fun field => validateField field 0
        validateFilters query.filters
    | .all => validateFilters query.filters

/-! ## Canonical text -/

/-- `u64::to_string`. -/
def decimalText (n : Nat) : String := String.ofList (Nat.toDigits 10 n)

/-- `i64::to_string`. -/
def signedText (n : Int64) : String :=
  if n < 0 then "-" ++ decimalText n.toInt.natAbs else decimalText n.toInt.natAbs

/-- One character of `quote` (`lib.rs:675-682`). -/
def quoteChar (c : Char) : List Char :=
  if c = '"' then ['\\', '"'] else if c = '\\' then ['\\', '\\'] else if c = '\n' then ['\\', 'n']
  else if c = '\r' then ['\\', 'r'] else if c = '\t' then ['\\', 't'] else [c]

/-- `quote` (`lib.rs:672-686`). -/
def quote (value : String) : String :=
  "\"" ++ String.ofList (value.toList.flatMap quoteChar) ++ "\""

mutual

/-- The derived `Debug` of `RuntimeValue`. -/
def debugValue : RuntimeValue → String
  | .null => "Null"
  | .bool value => "Bool(" ++ (if value then "true" else "false") ++ ")"
  | .integer value => "Integer(" ++ signedText value ++ ")"
  | .unsigned value => "Unsigned(" ++ decimalText value.toNat ++ ")"
  | .decimal value => "Decimal(" ++ debugText value ++ ")"
  | .string value => "String(" ++ debugText value ++ ")"
  | .digest value => "Digest(" ++ debugText value ++ ")"
  | .list values => "List([" ++ String.intercalate ", " (debugValues values) ++ "])"
  | .map values => "Map(\x7b" ++ String.intercalate ", " (debugEntries values) ++ "\x7d)"

def debugValues : List RuntimeValue → List String
  | [] => []
  | value :: values => debugValue value :: debugValues values

def debugEntries : List (String × RuntimeValue) → List String
  | [] => []
  | (key, value) :: values => (debugText key ++ ": " ++ debugValue value) :: debugEntries values

end

/-- `Source::canonical` (`lib.rs:133-143`). -/
def Source.canonical : Source → String
  | .record kind => "record:" ++ kind.asStr
  | .relation kind => "relation:" ++ kind.asStr
  | .event kind => "event:" ++ kind.asStr
  | .claim (some predicate) => "claim:" ++ predicate.asStr
  | .claim none => "claim"

/-- `TimeExpr::canonical` (`lib.rs:159-164`). -/
def TimeExpr.canonical : TimeExpr → String
  | .literal value => decimalText value.toNat
  | .parameter value => "$" ++ value

/-- `CursorExpr::canonical` (`lib.rs:176-182`). -/
def CursorExpr.canonical : CursorExpr → String
  | .head => "HEAD"
  | .literal value => decimalText value.toNat
  | .parameter value => "$" ++ value

/-- `ValueExpr::canonical` (`lib.rs:199-209`). -/
def ValueExpr.canonical : ValueExpr → String
  | .parameter value => "$" ++ value
  | .literal .null => "null"
  | .literal (.bool value) => if value then "true" else "false"
  | .literal (.integer value) => signedText value
  | .literal (.unsigned value) => decimalText value.toNat
  | .literal (.string value) => quote value
  | .literal value => quote (debugValue value)

/-- One filter in the loop of `Query::canonical` (`lib.rs:94-96`). -/
def Filter.canonical (filter : Filter) : String := filter.field ++ " = " ++ filter.value.canonical

namespace Query

/-- The filters in `Query::canonical` (`lib.rs:88-98`). -/
def whereText (query : Query) : String :=
  if query.filters = [] then ""
  else " WHERE " ++ String.intercalate " AND " (query.filters.map Filter.canonical)

/-- The projection in `Query::canonical` (`lib.rs:100-103`). -/
def projectText (query : Query) : String :=
  match query.projection with
  | .all => "*"
  | .fields fields => String.intercalate ", " fields

/-- The limit in `Query::canonical` (`lib.rs:104-106`). -/
def limitText (query : Query) : String :=
  match query.limit with
  | some limit => " LIMIT " ++ decimalText limit.toNat
  | none => ""

/-- `Query::canonical` (`lib.rs:83-111`). -/
def canonical (query : Query) : String :=
  "FROM " ++ query.source.canonical ++ " AT VALID " ++ query.temporal.validAt.canonical ++
    " KNOWN " ++ query.temporal.knownAt.canonical ++ query.whereText ++ " PROJECT " ++
    query.projectText ++ query.limitText ++ (if query.explainContract then " EXPLAIN CONTRACT" else "")

end Query

/-! ## Tokens -/

/-- `TokenKind` (`lib.rs:282-290`). -/
inductive TokenKind where
  | word (value : String)
  | string (value : String)
  | number (value : UInt64)
  | colon
  | comma
  | equals
  | star
  deriving DecidableEq

/-- `Token` (`lib.rs:262-265`). -/
structure Token where
  offset : Nat
  kind : TokenKind
  deriving DecidableEq

/-- `u8::is_ascii_whitespace`. -/
def isAsciiWhitespace (c : Char) : Bool :=
  c = ' ' || c = '\t' || c = '\n' || c = '\x0c' || c = '\r'

/-- What goes on a word (`lib.rs:374-379`). -/
def isWordChar (c : Char) : Bool :=
  !isAsciiWhitespace c && c ≠ ':' && c ≠ ',' && c ≠ '=' && c ≠ '*' && c ≠ '"'

/-- The bytes of the characters. -/
def byteLength (chars : List Char) : Nat := (chars.map Char.utf8Size).sum

/-- The escapes of a string (`lib.rs:332-343`). -/
def unescape : Char → Option Char
  | '"' => some '"'
  | '\\' => some '\\'
  | 'n' => some '\n'
  | 'r' => some '\r'
  | 't' => some '\t'
  | _ => none

/-- The loop of a string (`lib.rs:321-359`), which opened at `offset`: its value, and where it ends. -/
def stringFrom (offset cursor : Nat) (value : List Char) :
    List Char → Except ParseError (TokenKind × Nat × List Char)
  | [] => .error ⟨offset, "unterminated string literal"⟩
  | '"' :: rest => .ok (.string (String.ofList value), cursor + 1, rest)
  | ['\\'] => .error ⟨offset, "unterminated string escape"⟩
  | '\\' :: escaped :: rest =>
    match unescape escaped with
    | some c => stringFrom offset (cursor + 2) (value ++ [c]) rest
    | none => .error ⟨cursor + 1, "unsupported string escape"⟩
  | c :: rest => stringFrom offset (cursor + c.utf8Size) (value ++ [c]) rest

/-- One token (`lib.rs:301-386`), at the first character that is not whitespace: its kind, and
where it ends. -/
def scan (offset : Nat) (c : Char) (rest : List Char) :
    Except ParseError (TokenKind × Nat × List Char) :=
  if c = ':' then .ok (.colon, offset + 1, rest)
  else if c = ',' then .ok (.comma, offset + 1, rest)
  else if c = '=' then .ok (.equals, offset + 1, rest)
  else if c = '*' then .ok (.star, offset + 1, rest)
  else if c = '"' then stringFrom offset (offset + 1) [] rest
  else if c.isDigit then
    let digits := (c :: rest).takeWhile Char.isDigit
    let value := Nat.ofDigitChars 10 digits 0
    if value < 2 ^ 64 then
      .ok (.number (UInt64.ofNat value), offset + digits.length, (c :: rest).dropWhile Char.isDigit)
    else .error ⟨offset, "integer is outside u64 range"⟩
  else
    let word := (c :: rest).takeWhile isWordChar
    if word = [] then .error ⟨offset, "unsupported query character"⟩
    else .ok (.word (String.ofList word), offset + byteLength word, (c :: rest).dropWhile isWordChar)

theorem stringFrom_shorter {offset cursor : Nat} {value rest : List Char} {kind : TokenKind}
    {after : Nat} {later : List Char}
    (scanned : stringFrom offset cursor value rest = .ok (kind, after, later)) :
    later.length < rest.length := by
  fun_induction stringFrom offset cursor value rest with
  | case1 => cases scanned
  | case2 cursor value rest =>
    cases scanned
    exact Nat.lt_succ_self _
  | case3 => cases scanned
  | case4 cursor value escaped rest c known ih =>
    have := ih scanned
    simp only [List.length_cons]
    omega
  | case5 => cases scanned
  | case6 cursor value c rest _ _ _ ih =>
    have := ih scanned
    simp only [List.length_cons]
    omega

theorem dropWhile_shorter {α : Type} {p : α → Bool} {a : α} {as : List α} (holds : p a = true) :
    ((a :: as).dropWhile p).length < (a :: as).length := by
  rw [List.dropWhile_cons_of_pos holds]
  exact Nat.lt_succ_of_le (List.dropWhile_suffix p).length_le

theorem scan_shorter {offset : Nat} {c : Char} {rest : List Char} {kind : TokenKind} {after : Nat}
    {later : List Char} (scanned : scan offset c rest = .ok (kind, after, later)) :
    later.length < (c :: rest).length := by
  unfold scan at scanned
  iterate 4
    split at scanned
    · cases scanned
      exact Nat.lt_succ_self _
  split at scanned
  · exact Nat.lt_succ_of_lt (stringFrom_shorter scanned)
  split at scanned
  · next isDigit =>
    dsimp only at scanned
    split at scanned
    · cases scanned
      exact dropWhile_shorter isDigit
    · cases scanned
  · dsimp only at scanned
    split at scanned
    · cases scanned
    · next nonempty =>
      cases scanned
      have holds : isWordChar c = true := by
        by_contra fails
        rw [List.takeWhile_cons_of_neg fails] at nonempty
        exact nonempty rfl
      exact dropWhile_shorter holds

/-- The loop of `tokenize` (`lib.rs:296-390`). -/
def tokenizeFrom (offset : Nat) : List Char → Except ParseError (List Token)
  | [] => .ok []
  | c :: rest =>
    if isAsciiWhitespace c then tokenizeFrom (offset + 1) rest
    else
      match _scanned : scan offset c rest with
      | .error e => .error e
      | .ok (kind, after, later) => do
        let tokens ← tokenizeFrom after later
        return ⟨offset, kind⟩ :: tokens
termination_by chars => chars.length
decreasing_by
  · exact Nat.lt_succ_self _
  · exact scan_shorter ‹_›

/-- `tokenize` (`lib.rs:292-392`). -/
def tokenize (input : String) : Except ParseError (List Token) := tokenizeFrom 0 input.toList

end Vyrm.Ql
