import Vyrm.Ql.Parser

/-!
# What a list of tokens says

The grammar that the parser accepts, over the kinds of the tokens alone: no offsets, no
cursor, no error texts. The parser reads the same query, or fails where this does.
-/

namespace Vyrm.Ql
open Lib Vyrm.Core

abbrev Kinds := List TokenKind

/-- A clause of a query. -/
inductive Clause where
  | filters (filters : List Filter)
  | projection (projection : Projection)
  | limit (value : UInt64)
  | explain
  deriving DecidableEq

namespace Reading

def keyword (expected : String) : Kinds → Option Kinds
  | kind :: kinds => if kind.isKeyword expected then some kinds else none
  | [] => none

/-- A reading of the next token. -/
def first {α : Type} (read : TokenKind → Option α) : Kinds → Option (α × Kinds)
  | kind :: kinds => (read kind).map fun a => (a, kinds)
  | [] => none

def parameter (value : String) : Option String :=
  match value.toList with
  | '$' :: name => if isField (String.ofList name) then some (String.ofList name) else none
  | _ => none

def named (family name : String) : Option Source :=
  if family = "record" then (Ident.new .runtimeType name).toOption.map .record
  else if family = "relation" then (Ident.new .runtimeType name).toOption.map .relation
  else if family = "event" then (Ident.new .runtimeType name).toOption.map .event
  else if family = "claim" then (Ident.new .predicate name).toOption.map fun name => .claim (some name)
  else none

def source : Kinds → Option (Source × Kinds)
  | .word family :: kinds =>
    if asciiLower family = "claim" ∧ kinds.head? ≠ some .colon then some (.claim none, kinds)
    else
      match kinds with
      | .colon :: .word name :: kinds => (named (asciiLower family) name).map fun source => (source, kinds)
      | _ => none
  | _ => none

def timeExpr : TokenKind → Option TimeExpr
  | .number value => some (.literal value)
  | .word value => (parameter value).map .parameter
  | _ => none

def cursorExpr : TokenKind → Option CursorExpr
  | .number value => some (.literal value)
  | .word value =>
    if asciiLower value = asciiLower "HEAD" then some .head else (parameter value).map .parameter
  | _ => none

def valueExpr : TokenKind → Option ValueExpr
  | .string value => some (.literal (.string value))
  | .number value => some (.literal (.unsigned value))
  | .word value =>
    if value.toList.head? = some '$' then (parameter value).map .parameter
    else if asciiLower value = "true" then some (.literal (.bool true))
    else if asciiLower value = "false" then some (.literal (.bool false))
    else if asciiLower value = "null" then some (.literal .null)
    else none
  | _ => none

def filters : Kinds → Option (List Filter × Kinds)
  | .word field :: .equals :: value :: kinds =>
    match if isField field then valueExpr value else none with
    | some value =>
      match kinds with
      | kind :: rest =>
        if kind.isKeyword "AND" then
          (filters rest).map fun (filters, rest) => (⟨field, value⟩ :: filters, rest)
        else some ([⟨field, value⟩], kind :: rest)
      | [] => some ([⟨field, value⟩], [])
    | none => none
  | _ => none

def fields : Kinds → Option (List String × Kinds)
  | .word field :: kinds =>
    if isField field then
      match kinds with
      | .comma :: rest => (fields rest).map fun (fields, rest) => (field :: fields, rest)
      | kinds => some ([field], kinds)
    else none
  | _ => none

def projection : Kinds → Option (Projection × Kinds)
  | .star :: kinds => some (.all, kinds)
  | kinds => (fields kinds).map fun (fields, kinds) => (.fields fields, kinds)

def word : Kinds → Option (String × Kinds)
  | .word value :: kinds => some (value, kinds)
  | _ => none

def limit : Kinds → Option (UInt64 × Kinds)
  | .number value :: kinds => some (value, kinds)
  | _ => none

/-- The clause that starts with the keyword, and what follows it. -/
def clause (kind : TokenKind) (kinds : Kinds) : Option (Clause × Kinds) :=
  if kind.isKeyword "WHERE" then (filters kinds).map fun (filters, kinds) => (.filters filters, kinds)
  else if kind.isKeyword "PROJECT" then
    (projection kinds).map fun (projection, kinds) => (.projection projection, kinds)
  else if kind.isKeyword "LIMIT" then (limit kinds).map fun (value, kinds) => (.limit value, kinds)
  else if kind.isKeyword "EXPLAIN" then (keyword "CONTRACT" kinds).map fun kinds => (.explain, kinds)
  else none

/-- Whether a clause starts here. -/
def startsClause (kind : TokenKind) : Bool :=
  kind.isKeyword "WHERE" || kind.isKeyword "PROJECT" || kind.isKeyword "LIMIT" ||
    kind.isKeyword "EXPLAIN"

theorem filters_shorter {kinds later : Kinds} {read : List Filter}
    (reads : filters kinds = some (read, later)) : later.length < kinds.length := by
  fun_induction filters kinds generalizing read later with
  | case1 field value value' known kind rest isAnd ih =>
    obtain ⟨⟨_, _⟩, inner, same⟩ := Option.map_eq_some_iff.mp reads
    cases same
    have := ih inner
    simp only [List.length_cons]
    omega
  | case2 field value value' known kind rest isAnd =>
    cases reads
    simp only [List.length_cons]
    omega
  | case3 field value value' known =>
    cases reads
    exact Nat.succ_pos _
  | case4 => cases reads
  | case5 => cases reads

theorem fields_shorter {kinds later : Kinds} {read : List String}
    (reads : fields kinds = some (read, later)) : later.length < kinds.length := by
  fun_induction fields kinds generalizing read later with
  | case1 field valid rest ih =>
    obtain ⟨⟨_, _⟩, inner, same⟩ := Option.map_eq_some_iff.mp reads
    cases same
    have := ih inner
    simp only [List.length_cons]
    omega
  | case2 field valid kinds =>
    cases reads
    exact Nat.lt_succ_self _
  | case3 => cases reads
  | case4 => cases reads

theorem clause_shorter {kind : TokenKind} {kinds later : Kinds} {clause' : Clause}
    (read : clause kind kinds = some (clause', later)) : later.length ≤ kinds.length := by
  unfold clause at read
  split at read
  · obtain ⟨⟨_, _⟩, inner, same⟩ := Option.map_eq_some_iff.mp read
    cases same
    exact Nat.le_of_lt (filters_shorter inner)
  split at read
  · obtain ⟨⟨_, _⟩, inner, same⟩ := Option.map_eq_some_iff.mp read
    cases same
    unfold projection at inner
    split at inner
    · cases inner
      exact Nat.le_succ _
    · obtain ⟨⟨_, _⟩, inner, same⟩ := Option.map_eq_some_iff.mp inner
      cases same
      exact Nat.le_of_lt (fields_shorter inner)
  split at read
  · obtain ⟨⟨_, _⟩, inner, same⟩ := Option.map_eq_some_iff.mp read
    cases same
    unfold limit at inner
    split at inner
    · cases inner
      exact Nat.le_succ _
    · cases inner
  split at read
  · obtain ⟨_, inner, same⟩ := Option.map_eq_some_iff.mp read
    cases same
    unfold keyword at inner
    split at inner
    · split at inner
      · cases inner
        exact Nat.le_succ _
      · cases inner
    · cases inner
  · cases read

/-- All clauses, and what follows the last. -/
def clauses : Kinds → Option (List Clause × Kinds)
  | [] => some ([], [])
  | kind :: kinds =>
    if startsClause kind then
      match _read : clause kind kinds with
      | some (first, later) => (clauses later).map fun (clauses, rest) => (first :: clauses, rest)
      | none => none
    else some ([], kind :: kinds)
termination_by kinds => kinds.length
decreasing_by exact Nat.lt_succ_of_le (clause_shorter ‹_›)

@[simp] theorem clauses_nil : clauses [] = some ([], []) := by rw [clauses]

theorem clauses_cons (kind : TokenKind) (kinds : Kinds) :
    clauses (kind :: kinds) =
      if startsClause kind then
        (clause kind kinds).bind fun (first, later) =>
          (clauses later).map fun (clauses, rest) => (first :: clauses, rest)
      else some ([], kind :: kinds) := by
  rw [clauses]
  split
  · split
    · next known => rw [known]; rfl
    · next unknown => rw [unknown]; rfl
  · rfl

end Reading

namespace Clause

/-- Whether a clause of this kind came before. -/
def isSeen (seen : Parser.Seen) : Clause → Bool
  | .filters _ => seen.where_
  | .projection _ => seen.project
  | .limit _ => seen.limit
  | .explain => seen.explain

/-- A clause of this kind has come. -/
def mark (seen : Parser.Seen) : Clause → Parser.Seen
  | .filters _ => { seen with where_ := true }
  | .projection _ => { seen with project := true }
  | .limit _ => { seen with limit := true }
  | .explain => { seen with explain := true }

/-- What a clause sets. -/
def set (query : Query) : Clause → Query
  | .filters stated => { query with filters := stated }
  | .projection stated => { query with projection := stated }
  | .limit value => { query with limit := some value }
  | .explain => { query with explainContract := true }

/-- A clause sets its part, unless one of its kind came before. -/
def apply (state : Parser.Seen × Query) (clause : Clause) : Option (Parser.Seen × Query) :=
  if clause.isSeen state.1 then none else some (clause.mark state.1, clause.set state.2)

end Clause

namespace Reading

/-- What the clauses that are left make of a query. -/
def finish (seen : Parser.Seen) (query : Query) (kinds : Kinds) : Option (Query × Kinds) :=
  (clauses kinds).bind fun (clauses, rest) =>
    (clauses.foldlM Clause.apply (seen, query)).map fun state => (state.2, rest)

/-- The query of a source that goes on with the tokens. -/
def tail (source : Source) (kinds : Kinds) : Option (Query × Kinds) := do
  let kinds ← keyword "AT" kinds
  let kinds ← keyword "VALID" kinds
  let (validAt, kinds) ← first timeExpr kinds
  let kinds ← keyword "KNOWN" kinds
  let (knownAt, kinds) ← first cursorExpr kinds
  finish ⟨false, false, false, false⟩ (.new source ⟨validAt, knownAt⟩) kinds

/-- The query that the tokens start with. -/
def statement (kinds : Kinds) : Option (Query × Kinds) := do
  let kinds ← keyword "FROM" kinds
  let (source, kinds) ← source kinds
  tail source kinds

/-- A valid query with no tokens after it. -/
def complete : Query × Kinds → Option Query
  | (query, rest) => if rest = [] ∧ query.validate = .ok () then some query else none

/-- The query that the tokens state. -/
def query (kinds : Kinds) : Option Query := (statement kinds).bind complete

end Reading

end Vyrm.Ql
