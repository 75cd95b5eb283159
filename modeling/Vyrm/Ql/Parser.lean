import Vyrm.Ql

/-!
# The parser

`crates/vyrm-ql/src/lib.rs:242-254` and `394-656`: recursive descent over the tokens, with a
cursor. The two loops take a bound on their turns, which the tokens that are left cannot reach.
-/

namespace Vyrm.Ql
open Lib Vyrm.Core

/-- `str::to_ascii_lowercase`. -/
def asciiLower (text : String) : String := String.ofList (text.toList.map Char.toLower)

/-- `Token::describe` (`lib.rs:268-278`). -/
def Token.describe (token : Token) : String :=
  match token.kind with
  | .word value => debugText value
  | .string value => "string " ++ debugText value
  | .number value => decimalText value.toNat
  | .colon => "':'"
  | .comma => "','"
  | .equals => "'='"
  | .star => "'*'"

/-- `Token::is_keyword` (`lib.rs:642-646`). -/
def TokenKind.isKeyword (expected : String) : TokenKind → Bool
  | .word value => asciiLower value = asciiLower expected
  | _ => false

/-- `Display` of `vyrm_core::Error` (`error.rs:38-64`). -/
def errorText : Error → String
  | .emptyIdentifier kind => s!"{kind} must not be empty"
  | .separatorInIdentifier kind value =>
    let shown := debugText value
    s!"{kind} must not contain the 0x00 separator: {shown}"
  | .invalidValidityWindow validFrom validTo =>
    s!"validity window is empty or inverted: valid_from={validFrom} valid_to={validTo}"
  | .supersessionPairMismatch => "a successor must have the same subject and predicate"
  | .invalidSupersessionOrder =>
    "a successor must begin after and be recorded later than its predecessor"
  | .malformedKey reason => s!"malformed claim key: {reason}"
  | .sequenceOverflow => "sequence allocation overflowed"
  | .invalidRuntime reason => s!"invalid runtime object: {reason}"

/-- `parameter` (`lib.rs:650-656`). -/
def parameter (value : String) (offset : Nat) : Except ParseError String :=
  match value.toList with
  | '$' :: name => do
    validateField (String.ofList name) offset
    return String.ofList name
  | _ => .error ⟨offset, "parameter must begin with '$'"⟩

/-- `Parser` (`lib.rs:394-397`). -/
structure Parser where
  tokens : List Token
  cursor : Nat

namespace Parser

/-- `peek` (`lib.rs:629-631`). -/
def peek (p : Parser) : Option Token := p.tokens[p.cursor]?

/-- `peek_is` (`lib.rs:633-635`). -/
def peekIs (p : Parser) (expected : TokenKind) : Bool := p.peek.any fun token => token.kind = expected

/-- `peek().is_some_and(|token| token.is_keyword(..))`. -/
def peekKeyword (p : Parser) (expected : String) : Bool :=
  p.peek.any fun token => token.kind.isKeyword expected

/-- `self.cursor += 1`. -/
def advance (p : Parser) : Parser := { p with cursor := p.cursor + 1 }

/-- `previous_offset` (`lib.rs:637-641`). -/
def previousOffset (p : Parser) : Nat := (p.tokens[p.cursor - 1]?.map (·.offset)).getD 0

/-- `next` (`lib.rs:618-627`). -/
def next (p : Parser) (expected : String) : Except ParseError (Token × Parser) :=
  match p.tokens[p.cursor]? with
  | some token => .ok (token, p.advance)
  | none =>
    .error ⟨(p.tokens.getLast?.map (·.offset + 1)).getD 0, s!"expected {expected}, found end of query"⟩

/-- `expected .., found ..`. -/
def unexpected (token : Token) (expected : String) : ParseError :=
  let found := token.describe
  ⟨token.offset, s!"expected {expected}, found {found}"⟩

/-- `keyword` (`lib.rs:572-582`). -/
def keyword (p : Parser) (expected : String) : Except ParseError Parser := do
  let (token, p) ← p.next expected
  if token.kind.isKeyword expected then .ok p else .error (unexpected token expected)

/-- `punctuation` (`lib.rs:584-594`). -/
def punctuation (p : Parser) (expected : TokenKind) (description : String) :
    Except ParseError Parser := do
  let (token, p) ← p.next description
  if token.kind = expected then .ok p else .error (unexpected token description)

/-- `word` (`lib.rs:596-605`). -/
def word (p : Parser) (description : String) : Except ParseError (String × Parser) := do
  let (token, p) ← p.next description
  match token.kind with
  | .word value => .ok (value, p)
  | _ => .error (unexpected token description)

/-- `number` (`lib.rs:607-616`). -/
def number (p : Parser) (description : String) : Except ParseError (UInt64 × Parser) := do
  let (token, p) ← p.next description
  match token.kind with
  | .number value => .ok (value, p)
  | _ => .error (unexpected token description)

/-- `.map_err(|error| ParseError::new(offset, error.to_string()))`. -/
def mapError {α : Type} (offset : Nat) : Except Error α → Except ParseError α
  | .ok a => .ok a
  | .error error => .error ⟨offset, errorText error⟩

/-- The source of a family (`lib.rs:465-484`). -/
def named (family name : String) (offset : Nat) : Except ParseError Source :=
  if family = "record" then do return .record (← mapError offset (Ident.new .runtimeType name))
  else if family = "relation" then do
    return .relation (← mapError offset (Ident.new .runtimeType name))
  else if family = "event" then do return .event (← mapError offset (Ident.new .runtimeType name))
  else if family = "claim" then do
    return .claim (some (← mapError offset (Ident.new .predicate name)))
  else
    let shown := debugText family
    .error ⟨offset, s!"unknown source family {shown}"⟩

/-- `source` (`lib.rs:454-485`). -/
def source (p : Parser) : Except ParseError (Source × Parser) := do
  let (token, p) ← p.next "source family"
  match token.kind with
  | .word family =>
    let family := asciiLower family
    if family = "claim" ∧ ¬ p.peekIs .colon then .ok (.claim none, p)
    else
      let p ← p.punctuation .colon "':' after source family"
      let (name, p) ← p.word "source type"
      return (← named family name token.offset, p)
  | _ => .error ⟨token.offset, "expected source family"⟩

/-- `time_expr` (`lib.rs:487-497`). -/
def timeExpr (p : Parser) : Except ParseError (TimeExpr × Parser) := do
  let (token, p) ← p.next "valid-time literal or parameter"
  match token.kind with
  | .number value => .ok (.literal value, p)
  | .word value => return (.parameter (← parameter value token.offset), p)
  | _ => .error ⟨token.offset, "expected valid-time literal or $parameter"⟩

/-- `cursor_expr` (`lib.rs:499-510`). -/
def cursorExpr (p : Parser) : Except ParseError (CursorExpr × Parser) := do
  let (token, p) ← p.next "known cursor"
  match token.kind with
  | .number value => .ok (.literal value, p)
  | .word value =>
    if asciiLower value = asciiLower "HEAD" then .ok (.head, p)
    else return (.parameter (← parameter value token.offset), p)
  | _ => .error ⟨token.offset, "expected cursor, HEAD, or $parameter"⟩

/-- `value_expr` (`lib.rs:529-551`). -/
def valueExpr (p : Parser) : Except ParseError (ValueExpr × Parser) := do
  let (token, p) ← p.next "filter value"
  let unsupported : ParseError :=
    ⟨token.offset, "expected string, unsigned integer, boolean, null, or $parameter"⟩
  match token.kind with
  | .string value => .ok (.literal (.string value), p)
  | .number value => .ok (.literal (.unsigned value), p)
  | .word value =>
    if value.toList.head? = some '$' then return (.parameter (← parameter value token.offset), p)
    else if asciiLower value = "true" then .ok (.literal (.bool true), p)
    else if asciiLower value = "false" then .ok (.literal (.bool false), p)
    else if asciiLower value = "null" then .ok (.literal .null, p)
    else .error unsupported
  | _ => .error unsupported

/-- The loop of `filters` (`lib.rs:514-525`), at most `turns` times. -/
def filtersFrom : Nat → Parser → List Filter → Except ParseError (List Filter × Parser)
  | 0, p, _ => .error ⟨p.previousOffset, "unreachable"⟩
  | turns + 1, p, filters => do
    let (field, p) ← p.word "filter field"
    validateField field p.previousOffset
    let p ← p.punctuation .equals "'=' after filter field"
    let (value, p) ← p.valueExpr
    let filters := filters ++ [⟨field, value⟩]
    if p.peekKeyword "AND" then filtersFrom turns p.advance filters else .ok (filters, p)

/-- `filters` (`lib.rs:512-527`). -/
def filters (p : Parser) : Except ParseError (List Filter × Parser) :=
  filtersFrom (p.tokens.length + 1) p []

/-- The loop of `projection` (`lib.rs:559-568`), at most `turns` times. -/
def fieldsFrom : Nat → Parser → List String → Except ParseError (List String × Parser)
  | 0, p, _ => .error ⟨p.previousOffset, "unreachable"⟩
  | turns + 1, p, fields => do
    let (field, p) ← p.word "projection field"
    validateField field p.previousOffset
    let fields := fields ++ [field]
    if p.peekIs .comma then fieldsFrom turns p.advance fields else .ok (fields, p)

/-- `projection` (`lib.rs:553-570`). -/
def projection (p : Parser) : Except ParseError (Projection × Parser) :=
  if p.peekIs .star then .ok (.all, p.advance)
  else do
    let (fields, p) ← fieldsFrom (p.tokens.length + 1) p []
    return (.fields fields, p)

/-- The clauses that the loop of `query` has seen (`lib.rs:409-412`). -/
structure Seen where
  where_ : Bool
  project : Bool
  limit : Bool
  explain : Bool

/-- The loop of `query` (`lib.rs:413-450`), at most `turns` times. -/
def clausesFrom : Nat → Parser → Seen → Query → Except ParseError (Query × Parser)
  | 0, p, _, _ => .error ⟨p.previousOffset, "unreachable"⟩
  | turns + 1, p, seen, query =>
    match p.peek with
    | none => .ok (query, p)
    | some token =>
      if token.kind.isKeyword "WHERE" then
        if seen.where_ then .error ⟨token.offset, "duplicate WHERE clause"⟩
        else do
          let (filters, p) ← p.advance.filters
          clausesFrom turns p { seen with where_ := true } { query with filters }
      else if token.kind.isKeyword "PROJECT" then
        if seen.project then .error ⟨token.offset, "duplicate PROJECT clause"⟩
        else do
          let (projection, p) ← p.advance.projection
          clausesFrom turns p { seen with project := true } { query with projection }
      else if token.kind.isKeyword "LIMIT" then
        if seen.limit then .error ⟨token.offset, "duplicate LIMIT clause"⟩
        else do
          let (value, p) ← p.advance.number "row limit"
          clausesFrom turns p { seen with limit := true } { query with limit := some value }
      else if token.kind.isKeyword "EXPLAIN" then
        if seen.explain then .error ⟨token.offset, "duplicate EXPLAIN clause"⟩
        else do
          let p ← p.advance.keyword "CONTRACT"
          clausesFrom turns p { seen with explain := true } { query with explainContract := true }
      else .ok (query, p)

/-- `query` (`lib.rs:400-452`). -/
def query (p : Parser) : Except ParseError (Query × Parser) := do
  let p ← p.keyword "FROM"
  let (source, p) ← p.source
  let p ← p.keyword "AT"
  let p ← p.keyword "VALID"
  let (validAt, p) ← p.timeExpr
  let p ← p.keyword "KNOWN"
  let (knownAt, p) ← p.cursorExpr
  clausesFrom (p.tokens.length + 1) p ⟨false, false, false, false⟩ (.new source ⟨validAt, knownAt⟩)

end Parser

/-- `parse` (`lib.rs:247-259`). -/
def parse (input : String) : Except ParseError Query := do
  let tokens ← tokenize input
  let (query, p) ← Parser.query ⟨tokens, 0⟩
  match p.peek with
  | some token =>
    let found := token.describe
    .error ⟨token.offset, s!"unexpected token {found}"⟩
  | none =>
    query.validate
    return query

end Vyrm.Ql
