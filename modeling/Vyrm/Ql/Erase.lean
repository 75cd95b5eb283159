import Vyrm.Ql.Reading

/-!
# The parser reads what the tokens say

With offsets and error texts left out, each function of the parser is the function of
`Reading` on the kinds of the tokens from the cursor on.
-/

namespace Vyrm.Ql
open Lib Vyrm.Core

/-- The kinds of the tokens that are left. -/
def Parser.kinds (p : Parser) : Kinds := (p.tokens.drop p.cursor).map (·.kind)

/-- What a parser function reads, and the kinds it leaves. -/
def erase {α : Type} (run : Except ParseError (α × Parser)) : Option (α × Kinds) :=
  run.toOption.map fun (a, p) => (a, p.kinds)

/-- The kinds a parser function leaves. -/
def eraseSkip (run : Except ParseError Parser) : Option Kinds := run.toOption.map (·.kinds)

section

variable {α β : Type}

@[simp] theorem erase_ok (a : α) (p : Parser) : erase (.ok (a, p)) = some (a, p.kinds) := rfl

@[simp] theorem erase_error (e : ParseError) : erase (.error e : Except ParseError (α × Parser)) = none := rfl

@[simp] theorem eraseSkip_ok (p : Parser) : eraseSkip (.ok p) = some p.kinds := rfl

@[simp] theorem eraseSkip_error (e : ParseError) : eraseSkip (.error e) = none := rfl

theorem erase_bind {x : Except ParseError (α × Parser)} {f : α × Parser → Except ParseError (β × Parser)}
    {g : α × Kinds → Option (β × Kinds)}
    (same : ∀ a p, x = .ok (a, p) → erase (f (a, p)) = g (a, p.kinds)) :
    erase (x >>= f) = (erase x).bind g := by
  cases x with
  | error e => rfl
  | ok read => exact same read.1 read.2 rfl

theorem erase_skip_bind {x : Except ParseError Parser} {f : Parser → Except ParseError (β × Parser)}
    {g : Kinds → Option (β × Kinds)} (same : ∀ p, x = .ok p → erase (f p) = g p.kinds) :
    erase (x >>= f) = (eraseSkip x).bind g := by
  cases x with
  | error e => rfl
  | ok p => exact same p rfl

theorem erase_check_bind {x : Except ParseError α} {f : α → Except ParseError (β × Parser)}
    {g : α → Option (β × Kinds)} (same : ∀ a, erase (f a) = g a) :
    erase (x >>= f) = x.toOption.bind g := by
  cases x with
  | error e => rfl
  | ok a => exact same a

end

namespace Parser

variable {α : Type} {p : Parser}

theorem kinds_eq_cons {token : Token} (found : p.tokens[p.cursor]? = some token) :
    p.kinds = token.kind :: p.advance.kinds := by
  obtain ⟨inside, rfl⟩ := List.getElem?_eq_some_iff.mp found
  rw [kinds, List.drop_eq_getElem_cons inside]
  rfl

theorem kinds_eq_nil (ended : p.tokens[p.cursor]? = none) : p.kinds = [] := by
  rw [kinds, List.drop_of_length_le (List.getElem?_eq_none_iff.mp ended)]
  rfl

theorem peek_kind (p : Parser) : p.peek.map (·.kind) = p.kinds.head? := by
  unfold peek
  cases found : p.tokens[p.cursor]? with
  | none => rw [kinds_eq_nil found]; rfl
  | some token => rw [kinds_eq_cons found]; rfl

theorem peekIs_iff {expected : TokenKind} : p.peekIs expected = true ↔ p.kinds.head? = some expected := by
  rw [← peek_kind, peekIs, Option.map_eq_some_iff, Option.any_eq_true]
  simp only [decide_eq_true_eq]

theorem length_kinds_le (p : Parser) : p.kinds.length ≤ p.tokens.length := by
  rw [kinds, List.length_map, List.length_drop]
  exact Nat.sub_le _ _

/-- Taking a token, for functions that look at its kind alone. -/
theorem erase_next_bind {expected : String} {f : Token × Parser → Except ParseError (α × Parser)}
    {g : TokenKind → Kinds → Option (α × Kinds)}
    (same : ∀ token p, erase (f (token, p)) = g token.kind p.kinds) :
    erase (p.next expected >>= f) =
      match p.kinds with
      | kind :: kinds => g kind kinds
      | [] => none := by
  unfold next
  cases found : p.tokens[p.cursor]? with
  | none => rw [kinds_eq_nil found]; rfl
  | some token => rw [kinds_eq_cons found]; exact same token p.advance

theorem eraseSkip_next_bind {expected : String} {f : Token × Parser → Except ParseError Parser}
    {g : TokenKind → Kinds → Option Kinds}
    (same : ∀ token p, eraseSkip (f (token, p)) = g token.kind p.kinds) :
    eraseSkip (p.next expected >>= f) =
      match p.kinds with
      | kind :: kinds => g kind kinds
      | [] => none := by
  unfold next
  cases found : p.tokens[p.cursor]? with
  | none => rw [kinds_eq_nil found]; rfl
  | some token => rw [kinds_eq_cons found]; exact same token p.advance

theorem erase_keyword (p : Parser) (expected : String) :
    eraseSkip (p.keyword expected) = Reading.keyword expected p.kinds := by
  refine (eraseSkip_next_bind (g := fun kind kinds => if kind.isKeyword expected then some kinds else none)
    fun token p => ?_).trans ?_
  · dsimp only
    split
    · rfl
    · rfl
  · cases p.kinds with
    | nil => rfl
    | cons kind kinds => rfl

theorem erase_punctuation (p : Parser) (expected : TokenKind) (description : String) :
    eraseSkip (p.punctuation expected description) =
      match p.kinds with
      | kind :: kinds => if kind = expected then some kinds else none
      | [] => none := by
  apply eraseSkip_next_bind (g := fun kind kinds => if kind = expected then some kinds else none)
  intro token p
  dsimp only
  split
  · rfl
  · rfl

theorem erase_word (p : Parser) (description : String) :
    erase (p.word description) =
      match p.kinds with
      | .word value :: kinds => some (value, kinds)
      | _ => none := by
  refine (erase_next_bind (g := fun kind kinds => Reading.word (kind :: kinds)) fun token p => ?_).trans ?_
  · dsimp only
    cases token.kind <;> rfl
  · cases p.kinds with
    | nil => rfl
    | cons kind kinds => cases kind <;> rfl

theorem erase_number (p : Parser) (description : String) :
    erase (p.number description) = Reading.limit p.kinds := by
  refine (erase_next_bind (g := fun kind kinds => Reading.limit (kind :: kinds))
    fun token p => ?_).trans ?_
  · dsimp only
    cases token.kind <;> rfl
  · cases p.kinds with
    | nil => rfl
    | cons kind kinds => cases kind <;> rfl

end Parser

theorem validateField_ok (value : String) (offset : Nat) :
    (validateField value offset).toOption = if isField value then some () else none := by
  unfold validateField
  split
  · rfl
  · rfl

theorem parameter_ok (value : String) (offset : Nat) :
    (parameter value offset).toOption = Reading.parameter value := by
  unfold parameter Reading.parameter
  cases value.toList with
  | nil => rfl
  | cons first name =>
    by_cases dollar : first = '$'
    · subst dollar
      by_cases valid : isField (String.ofList name)
      · simp [validateField, valid, Except.toOption]
      · simp [validateField, valid, Except.toOption]
    · simp [dollar, Except.toOption]

theorem named_ok (family name : String) (offset : Nat) :
    (Parser.named family name offset).toOption = Reading.named family name := by
  unfold Parser.named Reading.named
  iterate 4
    split
    · cases Ident.new _ name <;> rfl
  rfl

namespace Parser

variable {p : Parser}

theorem erase_parameter {α : Type} (value : String) (offset : Nat) (p : Parser) (make : String → α) :
    erase (do return (make (← parameter value offset), p)) =
      ((Reading.parameter value).map make).map fun a => (a, p.kinds) := by
  rw [← parameter_ok value offset]
  cases parameter value offset <;> rfl

theorem erase_source (p : Parser) : erase p.source = Reading.source p.kinds := by
  refine (erase_next_bind (g := fun kind kinds => Reading.source (kind :: kinds))
    fun token p => ?_).trans ?_
  · obtain ⟨offset, kind⟩ := token
    cases kind with
    | word family =>
      unfold Reading.source
      dsimp only
      by_cases bare : asciiLower family = "claim" ∧ ¬ p.peekIs .colon
      · have bare' : asciiLower family = "claim" ∧ p.kinds.head? ≠ some .colon :=
          ⟨bare.1, fun colon => bare.2 (peekIs_iff.mpr colon)⟩
        rw [if_pos bare, if_pos bare']
        rfl
      · have bare' : ¬ (asciiLower family = "claim" ∧ p.kinds.head? ≠ some .colon) :=
          fun both => bare ⟨both.1, fun colon => both.2 (peekIs_iff.mp colon)⟩
        rw [if_neg bare, if_neg bare']
        rw [erase_skip_bind (g := fun kinds => match kinds with
          | .word name :: kinds =>
            (Reading.named (asciiLower family) name).map fun source => (source, kinds)
          | _ => none)]
        · rw [erase_punctuation]
          cases p.kinds with
          | nil => rfl
          | cons first kinds =>
            cases first
            case colon =>
              cases kinds with
              | nil => rfl
              | cons second kinds => cases second <;> rfl
            all_goals rfl
        · intro p _
          rw [erase_bind (g := fun (name, kinds) =>
            (Reading.named (asciiLower family) name).map fun source => (source, kinds))]
          · rw [erase_word]
            cases p.kinds with
            | nil => rfl
            | cons first kinds => cases first <;> rfl
          · intro name p _
            dsimp only
            rw [← named_ok _ _ offset]
            cases named (asciiLower family) name offset <;> rfl
    | _ => rfl
  · cases p.kinds with
    | nil => rfl
    | cons kind kinds => rfl

theorem erase_timeExpr (p : Parser) :
    erase p.timeExpr = Reading.first Reading.timeExpr p.kinds := by
  refine (erase_next_bind (g := fun kind kinds => (Reading.timeExpr kind).map fun value => (value, kinds))
    ?_).trans (by cases p.kinds <;> rfl)
  intro token p
  obtain ⟨offset, kind⟩ := token
  cases kind with
  | word value => exact erase_parameter value offset p TimeExpr.parameter
  | _ => rfl

theorem erase_cursorExpr (p : Parser) :
    erase p.cursorExpr = Reading.first Reading.cursorExpr p.kinds := by
  refine (erase_next_bind (g := fun kind kinds => (Reading.cursorExpr kind).map fun value => (value, kinds))
    ?_).trans (by cases p.kinds <;> rfl)
  intro token p
  obtain ⟨offset, kind⟩ := token
  cases kind with
  | word value =>
    dsimp only [Reading.cursorExpr]
    split
    · rfl
    · exact erase_parameter value offset p CursorExpr.parameter
  | _ => rfl

theorem erase_valueExpr (p : Parser) :
    erase p.valueExpr = Reading.first Reading.valueExpr p.kinds := by
  refine (erase_next_bind (g := fun kind kinds => (Reading.valueExpr kind).map fun value => (value, kinds))
    ?_).trans (by cases p.kinds <;> rfl)
  intro token p
  obtain ⟨offset, kind⟩ := token
  cases kind with
  | word value =>
    dsimp only [Reading.valueExpr]
    split
    · exact erase_parameter value offset p ValueExpr.parameter
    split
    · rfl
    split
    · rfl
    split
    · rfl
    · rfl
  | _ => rfl

/-- How the tokens after a filter go on. -/
def filterTail (filters : List Filter) : Kinds → Option (List Filter × Kinds)
  | kind :: rest =>
    if kind.isKeyword "AND" then
      (Reading.filters rest).map fun (more, rest) => (filters ++ more, rest)
    else some (filters, kind :: rest)
  | [] => some (filters, [])

theorem filters_eq (field : String) (value : TokenKind) (kinds : Kinds) (filters : List Filter) :
    ((Reading.filters (.word field :: .equals :: value :: kinds)).map fun (more, rest) =>
        (filters ++ more, rest)) =
      if isField field then
        (Reading.valueExpr value).bind fun value => filterTail (filters ++ [⟨field, value⟩]) kinds
      else none := by
  rw [Reading.filters]
  by_cases valid : isField field
  · rw [if_pos valid, if_pos valid]
    cases Reading.valueExpr value with
    | none => rfl
    | some value =>
      cases kinds with
      | nil => rfl
      | cons kind rest =>
        show Option.map _ (ite _ _ _) = filterTail _ (kind :: rest)
        rw [filterTail]
        split
        · cases Reading.filters rest with
          | none => rfl
          | some read =>
            obtain ⟨more, rest⟩ := read
            simp
        · rfl
  · rw [if_neg valid, if_neg valid]
    rfl

theorem peekKeyword_iff {expected : String} :
    p.peekKeyword expected = true ↔ ∃ kind rest, p.kinds = kind :: rest ∧ kind.isKeyword expected ∧
      p.advance.kinds = rest := by
  unfold peekKeyword peek
  cases found : p.tokens[p.cursor]? with
  | none => simp [kinds_eq_nil found]
  | some token => simp [kinds_eq_cons found]

theorem erase_filterTail {turns : Nat} {filters : List Filter}
    (ih : ∀ p filters, p.kinds.length < turns → erase (filtersFrom turns p filters) =
      (Reading.filters p.kinds).map fun (more, rest) => (filters ++ more, rest))
    (enough : p.kinds.length ≤ turns) :
    erase (if p.peekKeyword "AND" then filtersFrom turns p.advance filters else .ok (filters, p)) =
      filterTail filters p.kinds := by
  by_cases more : p.peekKeyword "AND"
  · obtain ⟨kind, rest, front, isAnd, after⟩ := peekKeyword_iff.mp more
    rw [if_pos more, front, filterTail, if_pos isAnd, ih _ _ (by rw [after]; rw [front] at enough; exact enough),
      after]
  · rw [if_neg more, erase_ok]
    cases front : p.kinds with
    | nil => rfl
    | cons kind rest =>
      have other : ¬ kind.isKeyword "AND" := by
        intro isAnd
        obtain ⟨token, found⟩ : ∃ token, p.peek = some token := by
          have seen := peek_kind p
          rw [front] at seen
          obtain ⟨token, found, -⟩ := Option.map_eq_some_iff.mp seen
          exact ⟨token, found⟩
        have same := kinds_eq_cons found
        rw [front, List.cons.injEq] at same
        exact more (peekKeyword_iff.mpr ⟨kind, rest, front, isAnd, same.2.symm⟩)
      rw [filterTail, if_neg other]

theorem word_kinds {description value : String} {p' : Parser}
    (read : p.word description = .ok (value, p')) : p.kinds = .word value :: p'.kinds := by
  have erased := erase_word p description
  rw [read, erase_ok] at erased
  split at erased
  · next front =>
    cases erased
    exact front
  · cases erased

theorem punctuation_kinds {expected : TokenKind} {description : String} {p' : Parser}
    (read : p.punctuation expected description = .ok p') : p.kinds = expected :: p'.kinds := by
  have erased := erase_punctuation p expected description
  rw [read, eraseSkip_ok] at erased
  split at erased
  · next front =>
    split at erased
    · next same =>
      cases erased
      rw [front, same]
    · cases erased
  · cases erased

theorem valueExpr_kinds {value : ValueExpr} {p' : Parser} (read : p.valueExpr = .ok (value, p')) :
    ∃ kind, p.kinds = kind :: p'.kinds := by
  have erased := erase_valueExpr p
  rw [read, erase_ok] at erased
  cases front : p.kinds with
  | nil => rw [front] at erased; cases erased
  | cons kind kinds =>
    rw [front] at erased
    obtain ⟨_, -, same⟩ := Option.map_eq_some_iff.mp erased.symm
    cases same
    exact ⟨kind, rfl⟩

/-- How the tokens after the `=` of a filter go on. -/
def filterValue (filters : List Filter) (field : String) : Kinds → Option (List Filter × Kinds)
  | value :: kinds => (Reading.valueExpr value).bind fun value => filterTail (filters ++ [⟨field, value⟩]) kinds
  | [] => none

/-- How the tokens after the field of a filter go on. -/
def filterEquals (filters : List Filter) (field : String) : Kinds → Option (List Filter × Kinds)
  | .equals :: kinds => filterValue filters field kinds
  | _ => none

def filterField (filters : List Filter) (field : String) (kinds : Kinds) : Option (List Filter × Kinds) :=
  if isField field then filterEquals filters field kinds else none

theorem erase_filtersFrom {turns : Nat} (filters : List Filter) (enough : p.kinds.length < turns) :
    erase (filtersFrom turns p filters) =
      (Reading.filters p.kinds).map fun (more, rest) => (filters ++ more, rest) := by
  induction turns generalizing p filters with
  | zero => cases enough
  | succ turns ih =>
    rw [filtersFrom, erase_bind (g := fun read => filterField filters read.1 read.2)]
    · rw [erase_word]
      cases p.kinds with
      | nil => rfl
      | cons first kinds =>
        cases first
        case word field =>
          cases kinds with
          | nil => exact ite_self none
          | cons second kinds =>
            cases second
            case equals =>
              cases kinds with
              | nil => exact ite_self none
              | cons value kinds => exact (filters_eq field value kinds filters).symm
            all_goals exact ite_self none
        all_goals rfl
    · intro field p₁ word
      have after := word_kinds word
      rw [erase_check_bind (g := fun _ => filterEquals filters field p₁.kinds), validateField_ok]
      · dsimp only [filterField]
        cases isField field with
        | true => rfl
        | false => rfl
      · intro _
        rw [erase_skip_bind (g := filterValue filters field), erase_punctuation]
        · cases p₁.kinds with
          | nil => rfl
          | cons first kinds =>
            cases first
            case equals => cases kinds <;> rfl
            all_goals rfl
        · intro p₂ equals
          have after' := punctuation_kinds equals
          rw [erase_bind (g := fun read => filterTail (filters ++ [⟨field, read.1⟩]) read.2),
            erase_valueExpr]
          · cases p₂.kinds with
            | nil => rfl
            | cons value kinds =>
              dsimp only [Reading.first, filterValue]
              cases Reading.valueExpr value <;> rfl
          · intro value p₃ read
            obtain ⟨kind, after''⟩ := valueExpr_kinds read
            apply erase_filterTail fun p filters enough => ih filters enough
            rw [after, after', after''] at enough
            simp only [List.length_cons] at enough
            omega

/-- How the tokens after a field go on. -/
def fieldTail (fields : List String) : Kinds → Option (List String × Kinds)
  | .comma :: rest => (Reading.fields rest).map fun (more, rest) => (fields ++ more, rest)
  | kinds => some (fields, kinds)

theorem fields_eq (field : String) (kinds : Kinds) (fields : List String) :
    ((Reading.fields (.word field :: kinds)).map fun (more, rest) => (fields ++ more, rest)) =
      if isField field then fieldTail (fields ++ [field]) kinds else none := by
  rw [Reading.fields.eq_def]
  dsimp only
  by_cases valid : isField field
  · rw [if_pos valid, if_pos valid]
    cases kinds with
    | nil => rfl
    | cons kind rest =>
      cases kind
      case comma =>
        dsimp only [fieldTail]
        cases Reading.fields rest with
        | none => rfl
        | some read =>
          obtain ⟨more, rest⟩ := read
          simp
      all_goals rfl
  · rw [if_neg valid, if_neg valid]
    rfl

theorem advance_kinds {kind : TokenKind} {rest : Kinds} (front : p.kinds = kind :: rest) :
    p.advance.kinds = rest := by
  have seen := peek_kind p
  rw [front] at seen
  obtain ⟨token, found, -⟩ := Option.map_eq_some_iff.mp seen
  have same := kinds_eq_cons found
  rw [front, List.cons.injEq] at same
  exact same.2.symm

theorem erase_fieldsFrom {turns : Nat} (fields : List String) (enough : p.kinds.length < turns) :
    erase (fieldsFrom turns p fields) =
      (Reading.fields p.kinds).map fun (more, rest) => (fields ++ more, rest) := by
  induction turns generalizing p fields with
  | zero => cases enough
  | succ turns ih =>
    rw [fieldsFrom, erase_bind (g := fun (field, kinds) =>
      if isField field then fieldTail (fields ++ [field]) kinds else none)]
    · rw [erase_word]
      cases p.kinds with
      | nil => rfl
      | cons first kinds =>
        cases first
        case word field => exact (fields_eq field kinds fields).symm
        all_goals rfl
    · intro field p₁ word
      have after := word_kinds word
      rw [erase_check_bind (g := fun _ => fieldTail (fields ++ [field]) p₁.kinds), validateField_ok]
      · dsimp only
        cases isField field <;> rfl
      · intro _
        by_cases more : p₁.peekIs .comma
        · rw [if_pos more]
          have front := peekIs_iff.mp more
          obtain ⟨rest, front⟩ : ∃ rest, p₁.kinds = .comma :: rest := by
            cases kinds : p₁.kinds with
            | nil => rw [kinds] at front; cases front
            | cons first rest =>
              rw [kinds] at front
              cases front
              exact ⟨rest, rfl⟩
          have shorter : p₁.advance.kinds.length < turns := by
            rw [advance_kinds front]
            rw [after, front] at enough
            simp only [List.length_cons] at enough
            omega
          rw [ih _ shorter, advance_kinds front, front]
          rfl
        · rw [if_neg more, erase_ok]
          have front := fun comma => more (peekIs_iff.mpr comma)
          unfold fieldTail
          split
          · next comma => exact absurd (by rw [comma]; rfl) front
          · rfl

theorem erase_filters (p : Parser) : erase p.filters = Reading.filters p.kinds := by
  rw [filters, erase_filtersFrom [] (Nat.lt_succ_of_le (length_kinds_le p))]
  cases Reading.filters p.kinds <;> rfl

theorem erase_projection (p : Parser) : erase p.projection = Reading.projection p.kinds := by
  unfold projection
  by_cases star : p.peekIs .star
  · rw [if_pos star, erase_ok]
    have front := peekIs_iff.mp star
    cases kinds : p.kinds with
    | nil => rw [kinds] at front; cases front
    | cons first rest =>
      rw [kinds] at front
      cases front
      rw [advance_kinds kinds]
      rfl
  · rw [if_neg star, erase_bind (g := fun (fields, kinds) => some (.fields fields, kinds)),
      erase_fieldsFrom [] (Nat.lt_succ_of_le (length_kinds_le p))]
    · have front := fun isStar => star (peekIs_iff.mpr isStar)
      unfold Reading.projection
      split
      · next isStar => exact absurd (by rw [isStar]; rfl) front
      · cases Reading.fields p.kinds <;> rfl
    · exact fun _ _ _ => rfl

theorem finish_cons {seen : Seen} {query : Query} {kind : TokenKind} {kinds : Kinds}
    (starts : Reading.startsClause kind) :
    Reading.finish seen query (kind :: kinds) =
      (Reading.clause kind kinds).bind fun (first, later) =>
        (Clause.apply (seen, query) first).bind fun state => Reading.finish state.1 state.2 later := by
  rw [Reading.finish, Reading.clauses_cons, if_pos starts]
  cases Reading.clause kind kinds with
  | none => rfl
  | some read =>
    obtain ⟨first, later⟩ := read
    simp only [Option.bind_some, Reading.finish]
    cases Reading.clauses later with
    | none => cases Clause.apply (seen, query) first <;> rfl
    | some rest =>
      obtain ⟨clauses, rest⟩ := rest
      simp only [Option.map_some, Option.bind_some, List.foldlM_cons]
      cases Clause.apply (seen, query) first <;> rfl

/-- One turn of the loop of `query`, of a clause that reads an `α`. -/
theorem erase_turn {α : Type} (make : α → Clause) {turns : Nat} {seen : Seen} {query : Query}
    {kind : TokenKind} {kinds : Kinds} {x : Except ParseError (α × Parser)} {reading : Option (α × Kinds)}
    {duplicate : Bool} {e : ParseError}
    (clause : Reading.clause kind kinds = reading.map fun (a, kinds) => (make a, kinds))
    (starts : Reading.startsClause kind) (agrees : erase x = reading)
    (repeats : ∀ a, (make a).isSeen seen = duplicate)
    (ih : ∀ p seen query, p.kinds.length ≤ kinds.length →
      erase (clausesFrom turns p seen query) = Reading.finish seen query p.kinds) :
    erase (if duplicate then .error e
      else x >>= fun (a, p) => clausesFrom turns p ((make a).mark seen) ((make a).set query)) =
      Reading.finish seen query (kind :: kinds) := by
  rw [finish_cons starts, clause]
  subst agrees
  cases run : x with
  | error e => cases duplicate <;> rfl
  | ok read =>
    obtain ⟨a, p⟩ := read
    simp only [erase_ok, Option.map_some, Option.bind_some, Clause.apply, repeats]
    cases duplicate with
    | true => rfl
    | false =>
      apply ih
      rw [run] at clause
      exact Reading.clause_shorter clause

theorem erase_clausesFrom {turns : Nat} (seen : Seen) (query : Query) (enough : p.kinds.length < turns) :
    erase (clausesFrom turns p seen query) = Reading.finish seen query p.kinds := by
  induction turns generalizing p seen query with
  | zero => cases enough
  | succ turns ih =>
    rw [clausesFrom]
    unfold peek
    cases found : p.tokens[p.cursor]? with
    | none =>
      show some (query, p.kinds) = _
      rw [kinds_eq_nil found, Reading.finish, Reading.clauses_nil]
      rfl
    | some token =>
      have front := kinds_eq_cons found
      rw [front] at enough ⊢
      have later : ∀ p' seen query, p'.kinds.length ≤ p.advance.kinds.length →
          erase (clausesFrom turns p' seen query) = Reading.finish seen query p'.kinds :=
        fun p' seen query shorter => ih seen query (Nat.lt_of_le_of_lt shorter (Nat.lt_of_succ_lt_succ enough))
      dsimp only
      by_cases isWhere : token.kind.isKeyword "WHERE"
      · rw [if_pos isWhere]
        exact erase_turn .filters (by rw [Reading.clause, if_pos isWhere]) (by simp [Reading.startsClause, isWhere])
          (erase_filters p.advance) (fun _ => rfl) later
      by_cases isProject : token.kind.isKeyword "PROJECT"
      · rw [if_neg isWhere, if_pos isProject]
        exact erase_turn .projection (by rw [Reading.clause, if_neg isWhere, if_pos isProject])
          (by simp [Reading.startsClause, isProject]) (erase_projection p.advance) (fun _ => rfl) later
      by_cases isLimit : token.kind.isKeyword "LIMIT"
      · rw [if_neg isWhere, if_neg isProject, if_pos isLimit]
        exact erase_turn .limit (by rw [Reading.clause, if_neg isWhere, if_neg isProject, if_pos isLimit])
          (by simp [Reading.startsClause, isLimit]) (erase_number p.advance _) (fun _ => rfl) later
      by_cases isExplain : token.kind.isKeyword "EXPLAIN"
      · rw [if_neg isWhere, if_neg isProject, if_neg isLimit, if_pos isExplain]
        have turn := @erase_turn Unit (fun _ => .explain) turns seen query token.kind p.advance.kinds
          ((p.advance.keyword "CONTRACT").map fun p => ((), p)) _ seen.explain
          ⟨token.offset, "duplicate EXPLAIN clause"⟩
          (by
            rw [Reading.clause, if_neg isWhere, if_neg isProject, if_neg isLimit, if_pos isExplain,
              ← erase_keyword]
            cases p.advance.keyword "CONTRACT" <;> rfl)
          (by simp [Reading.startsClause, isExplain]) rfl (fun _ => rfl) later
        rw [← turn]
        cases p.advance.keyword "CONTRACT" <;> rfl
      · rw [if_neg isWhere, if_neg isProject, if_neg isLimit, if_neg isExplain]
        have starts : ¬ Reading.startsClause token.kind := by
          simp [Reading.startsClause, isWhere, isProject, isLimit, isExplain]
        rw [Reading.finish, Reading.clauses_cons, if_neg starts, erase_ok, front]
        rfl

theorem erase_query (p : Parser) : erase p.query = Reading.statement p.kinds := by
  rw [query, erase_skip_bind, erase_keyword]
  · rfl
  intro p _
  rw [erase_bind, erase_source]
  · rfl
  intro source p _
  dsimp only
  rw [erase_skip_bind, erase_keyword]
  · rfl
  intro p _
  rw [erase_skip_bind, erase_keyword]
  · rfl
  intro p _
  rw [erase_bind, erase_timeExpr]
  · rfl
  intro validAt p _
  dsimp only
  rw [erase_skip_bind, erase_keyword]
  · rfl
  intro p _
  rw [erase_bind, erase_cursorExpr]
  · rfl
  intro knownAt p _
  exact erase_clausesFrom _ _ (Nat.lt_succ_of_le (length_kinds_le p))

end Parser

/-- A text parses as the query that its tokens state. -/
theorem parse_eq (input : String) :
    (parse input).toOption =
      (tokenize input).toOption.bind fun tokens => Reading.query (tokens.map (·.kind)) := by
  unfold parse
  cases tokenize input with
  | error e => rfl
  | ok tokens =>
    show (Parser.query ⟨tokens, 0⟩ >>= _).toOption = Reading.query (tokens.map (·.kind))
    rw [Reading.query, show tokens.map (·.kind) = (⟨tokens, 0⟩ : Parser).kinds from rfl, ← Parser.erase_query]
    cases Parser.query ⟨tokens, 0⟩ with
    | error e => rfl
    | ok read =>
      obtain ⟨query, p⟩ := read
      have left := p.peek_kind
      simp only [erase_ok, Option.bind_some, except_ok_bind]
      cases peeked : p.peek with
      | some token =>
        rw [peeked] at left
        have more : p.kinds ≠ [] := by
          intro none
          rw [none] at left
          cases left
        rw [Reading.complete, if_neg fun both => more both.1]
        rfl
      | none =>
        rw [peeked] at left
        have ended : p.kinds = [] := List.head?_eq_none_iff.mp left.symm
        dsimp only
        cases valid : query.validate with
        | error e => simp [Except.toOption, Reading.complete, valid]
        | ok u =>
          cases u
          simp [ended, Except.toOption, Reading.complete, valid]

end Vyrm.Ql
