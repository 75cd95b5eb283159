import Vyrm.Ql.Phrase

/-!
# Canonical texts

The canonical text of a query is the text of a phrase that says the query, for exactly the
queries that some text states.
-/

namespace Vyrm.Ql
open Lib Vyrm.Core

/-- The name in a source. -/
def Source.name : Source → Option String
  | .record kind | .relation kind | .event kind => some kind.asStr
  | .claim predicate => predicate.map (·.asStr)

/-- What a source is a family of. -/
def Source.family : Source → String
  | .record _ => "record"
  | .relation _ => "relation"
  | .event _ => "event"
  | .claim _ => "claim"

/-- A text does not read it as a number: it does not start with a digit. -/
def startsWord (field : String) : Bool := !field.toList.head?.any Char.isDigit

def TimeExpr.Textual : TimeExpr → Prop
  | .parameter value => isField value
  | .literal _ => True

def CursorExpr.Textual : CursorExpr → Prop
  | .parameter value => isField value
  | _ => True

def ValueExpr.Textual : ValueExpr → Prop
  | .parameter value => isField value
  | .literal (.integer _) => False
  | .literal _ => True

def Projection.Textual : Projection → Prop
  | .fields stated => ∀ field ∈ stated, startsWord field
  | .all => True

def Clause.Textual : Clause → Prop
  | .filters stated => ∀ filter ∈ stated, startsWord filter.field ∧ filter.value.Textual
  | .projection stated => stated.Textual
  | _ => True

/-- Whether the grammar has a text for each part of a query: names that are words, fields that do
not start with a digit, parameters that are fields, and no signed integers. -/
structure Query.Textual (query : Query) : Prop where
  source : ∀ name ∈ query.source.name, isWord name.toList
  validAt : query.temporal.validAt.Textual
  knownAt : query.temporal.knownAt.Textual
  filters : ∀ filter ∈ query.filters, startsWord filter.field ∧ filter.value.Textual
  projection : query.projection.Textual

/-! ## What a text states is textual -/

/-- Whether every word among the tokens can stand in a text. -/
def Worded (kinds : Kinds) : Prop := ∀ value, TokenKind.word value ∈ kinds → isWord value.toList

theorem Spells.formed {lexemes : List Lexeme} {chars : List Char} (spells : Spells lexemes chars) :
    ∀ lexeme ∈ lexemes, lexeme.WellFormed := by
  induction spells with
  | nil => exact fun _ member => by cases member
  | space _ _ ih => exact ih
  | cons formed _ _ ih =>
    intro lexeme member
    cases member with
    | head => exact formed
    | tail _ member => exact ih lexeme member

/-- The tokens of a list of lexemes, one by one. -/
theorem mapM_kind_iff {lexemes : List Lexeme} {kinds : Kinds} :
    lexemes.mapM Lexeme.kind = some kinds ↔
      List.Forall₂ (fun lexeme kind => lexeme.kind = some kind) lexemes kinds := by
  induction lexemes generalizing kinds with
  | nil => simp [eq_comm]
  | cons lexeme lexemes ih =>
    rw [List.mapM_cons, List.forall₂_cons_left_iff]
    simp only [Option.bind_eq_bind, Option.bind_eq_some_iff, ih, Option.pure_def, Option.some.injEq]
    constructor
    · rintro ⟨kind, first, kinds, rest, rfl⟩
      exact ⟨kind, kinds, first, rest, rfl⟩
    · rintro ⟨kind, kinds, first, rest, rfl⟩
      exact ⟨kind, first, kinds, rest, rfl⟩

theorem mapM_kind_worded {lexemes : List Lexeme} {kinds : Kinds} (formed : ∀ lexeme ∈ lexemes, lexeme.WellFormed)
    (known : lexemes.mapM Lexeme.kind = some kinds) : Worded kinds := by
  intro value member
  obtain ⟨lexeme, present, isKind⟩ : ∃ lexeme ∈ lexemes, lexeme.kind = some (.word value) := by
    rw [mapM_kind_iff] at known
    clear formed
    induction known with
    | nil => cases member
    | cons first _ ih =>
      cases member with
      | head => exact ⟨_, List.mem_cons_self, first⟩
      | tail _ member =>
        obtain ⟨lexeme, present, isKind⟩ := ih member
        exact ⟨lexeme, List.mem_cons_of_mem _ present, isKind⟩
  have wellFormed := formed lexeme present
  cases lexeme with
  | word chars =>
    cases isKind
    rw [String.toList_ofList]
    exact wellFormed
  | mark c =>
    rcases wellFormed with rfl | rfl | rfl | rfl
    all_goals cases isKind
  | digits chars =>
    dsimp only [Lexeme.kind] at isKind
    split at isKind <;> cases isKind
  | string body =>
    obtain ⟨_, -, same⟩ := Option.map_eq_some_iff.mp isKind
    cases same
  | unclosed body => cases isKind

theorem Worded.of_suffix {kinds later : Kinds} (worded : Worded kinds) (suffix : later <:+ kinds) :
    Worded later := fun value member => worded value (suffix.subset member)

theorem startsWord_of_isWord {value : String} (word : isWord value.toList) : startsWord value := by
  simp only [isWord, Bool.and_eq_true] at word
  exact word.2

namespace Reading

variable {kinds later : Kinds}

theorem parameter_isField {value name : String} (read : parameter value = some name) : isField name := by
  unfold parameter at read
  split at read
  · split at read
    · cases read
      assumption
    · cases read
  · cases read

theorem named_textual {family name : String} {source : Source} (read : named family name = some source) :
    source.name = some name := by
  unfold named at read
  have made : ∀ {kind : IdentKind} {ident : Ident kind}, (Ident.new kind name).toOption = some ident →
      ident.asStr = name := by
    intro kind ident made
    exact Ident.new_ok_iff.mp (except_toOption_eq_some.mp made)
  split at read
  · obtain ⟨ident, new, rfl⟩ := Option.map_eq_some_iff.mp read
    exact congrArg some (made new)
  split at read
  · obtain ⟨ident, new, rfl⟩ := Option.map_eq_some_iff.mp read
    exact congrArg some (made new)
  split at read
  · obtain ⟨ident, new, rfl⟩ := Option.map_eq_some_iff.mp read
    exact congrArg some (made new)
  split at read
  · obtain ⟨ident, new, rfl⟩ := Option.map_eq_some_iff.mp read
    exact congrArg some (made new)
  · cases read

theorem keyword_suffix {expected : String} (read : keyword expected kinds = some later) : later <:+ kinds := by
  cases kinds with
  | nil => cases read
  | cons kind kinds =>
    rw [keyword] at read
    split at read
    · cases read
      exact List.suffix_cons _ _
    · cases read

theorem source_textual {source' : Source} (worded : Worded kinds)
    (read : source kinds = some (source', later)) :
    later <:+ kinds ∧ ∀ name ∈ source'.name, isWord name.toList := by
  unfold source at read
  split at read
  · split at read
    · cases read
      exact ⟨List.suffix_cons _ _, fun _ none => by cases none⟩
    · split at read
      · obtain ⟨found, named', same⟩ := Option.map_eq_some_iff.mp read
        cases same
        refine ⟨?_, ?_⟩
        · exact ((List.suffix_cons _ _).trans (List.suffix_cons _ _)).trans (List.suffix_cons _ _)
        · intro name member
          rw [named_textual named'] at member
          cases member
          exact worded _ (by simp)
      · cases read
  · cases read

theorem timeExpr_textual {kind : TokenKind} {value : TimeExpr} (read : timeExpr kind = some value) :
    value.Textual := by
  unfold timeExpr at read
  split at read
  · cases read
    trivial
  · obtain ⟨name, known, rfl⟩ := Option.map_eq_some_iff.mp read
    exact parameter_isField known
  · cases read

theorem cursorExpr_textual {kind : TokenKind} {value : CursorExpr} (read : cursorExpr kind = some value) :
    value.Textual := by
  unfold cursorExpr at read
  split at read
  · cases read
    trivial
  · split at read
    · cases read
      trivial
    · obtain ⟨name, known, rfl⟩ := Option.map_eq_some_iff.mp read
      exact parameter_isField known
  · cases read

theorem valueExpr_textual {kind : TokenKind} {value : ValueExpr} (read : valueExpr kind = some value) :
    value.Textual := by
  unfold valueExpr at read
  split at read
  · cases read
    trivial
  · cases read
    trivial
  · split at read
    · obtain ⟨name, known, rfl⟩ := Option.map_eq_some_iff.mp read
      exact parameter_isField known
    split at read
    · cases read
      trivial
    split at read
    · cases read
      trivial
    split at read
    · cases read
      trivial
    · cases read
  · cases read

theorem first_suffix {α : Type} {read : TokenKind → Option α} {value : α}
    (found : first read kinds = some (value, later)) : later <:+ kinds ∧ ∃ kind, read kind = some value := by
  cases kinds with
  | nil => cases found
  | cons kind kinds =>
    obtain ⟨value', known, same⟩ := Option.map_eq_some_iff.mp found
    cases same
    exact ⟨List.suffix_cons _ _, kind, known⟩

theorem filters_textual {read : List Filter} (worded : Worded kinds)
    (reads : filters kinds = some (read, later)) :
    later <:+ kinds ∧ ∀ filter ∈ read, startsWord filter.field ∧ filter.value.Textual := by
  have textual : ∀ {field : String} {value : TokenKind} {value' : ValueExpr},
      isWord field.toList → (if isField field then valueExpr value else none) = some value' →
      startsWord field ∧ value'.Textual := by
    intro field value value' word known
    split at known
    · exact ⟨startsWord_of_isWord word, valueExpr_textual known⟩
    · cases known
  fun_induction filters kinds generalizing read later with
  | case1 field value value' known kind rest isAnd ih =>
    obtain ⟨⟨more, _⟩, inner, same⟩ := Option.map_eq_some_iff.mp reads
    cases same
    have suffix : rest <:+ .word field :: .equals :: value :: kind :: rest :=
      ⟨[.word field, .equals, value, kind], rfl⟩
    obtain ⟨suffix', textual'⟩ := ih (worded.of_suffix suffix) inner
    refine ⟨suffix'.trans suffix, List.forall_mem_cons.mpr ⟨?_, textual'⟩⟩
    exact textual (worded field (by simp)) known
  | case2 field value value' known kind rest isAnd =>
    cases reads
    refine ⟨⟨[.word field, .equals, value], rfl⟩, List.forall_mem_singleton.mpr ?_⟩
    exact textual (worded field (by simp)) known
  | case3 field value value' known =>
    cases reads
    refine ⟨List.nil_suffix, List.forall_mem_singleton.mpr ?_⟩
    exact textual (worded field (by simp)) known
  | case4 => cases reads
  | case5 => cases reads

theorem fields_textual {read : List String} (worded : Worded kinds)
    (reads : fields kinds = some (read, later)) :
    later <:+ kinds ∧ ∀ field ∈ read, startsWord field := by
  fun_induction fields kinds generalizing read later with
  | case1 field valid rest ih =>
    obtain ⟨⟨more, _⟩, inner, same⟩ := Option.map_eq_some_iff.mp reads
    cases same
    have suffix : rest <:+ .word field :: .comma :: rest := ⟨[.word field, .comma], rfl⟩
    obtain ⟨suffix', textual'⟩ := ih (worded.of_suffix suffix) inner
    refine ⟨suffix'.trans suffix, List.forall_mem_cons.mpr ⟨?_, textual'⟩⟩
    exact startsWord_of_isWord (worded field (by simp))
  | case2 field valid kinds =>
    cases reads
    refine ⟨List.suffix_cons _ _, List.forall_mem_singleton.mpr ?_⟩
    exact startsWord_of_isWord (worded field (by simp))
  | case3 => cases reads
  | case4 => cases reads

theorem projection_textual {read : Projection} (worded : Worded kinds)
    (reads : projection kinds = some (read, later)) : later <:+ kinds ∧ read.Textual := by
  unfold projection at reads
  split at reads
  · cases reads
    exact ⟨List.suffix_cons _ _, trivial⟩
  · obtain ⟨⟨stated, _⟩, inner, same⟩ := Option.map_eq_some_iff.mp reads
    cases same
    exact fields_textual worded inner

theorem clause_textual {kind : TokenKind} {read : Clause} (worded : Worded kinds)
    (reads : clause kind kinds = some (read, later)) : later <:+ kinds ∧ read.Textual := by
  unfold clause at reads
  split at reads
  · obtain ⟨⟨stated, _⟩, inner, same⟩ := Option.map_eq_some_iff.mp reads
    cases same
    exact filters_textual worded inner
  split at reads
  · obtain ⟨⟨stated, _⟩, inner, same⟩ := Option.map_eq_some_iff.mp reads
    cases same
    exact projection_textual worded inner
  split at reads
  · obtain ⟨⟨stated, _⟩, inner, same⟩ := Option.map_eq_some_iff.mp reads
    cases same
    unfold limit at inner
    split at inner
    · cases inner
      exact ⟨List.suffix_cons _ _, trivial⟩
    · cases inner
  split at reads
  · obtain ⟨_, inner, same⟩ := Option.map_eq_some_iff.mp reads
    cases same
    exact ⟨keyword_suffix inner, trivial⟩
  · cases reads

theorem clauses_textual {read : List Clause} (worded : Worded kinds)
    (reads : clauses kinds = some (read, later)) : ∀ clause ∈ read, clause.Textual := by
  induction length : kinds.length using Nat.strongRecOn generalizing kinds read with
  | ind n ih =>
    subst length
    cases kinds with
    | nil =>
      rw [clauses_nil] at reads
      cases reads
      exact fun _ member => by cases member
    | cons kind kinds =>
      rw [clauses_cons] at reads
      split at reads
      · obtain ⟨⟨first, after⟩, readsFirst, more⟩ := Option.bind_eq_some_iff.mp reads
        obtain ⟨⟨rest, _⟩, readsRest, same⟩ := Option.map_eq_some_iff.mp more
        cases same
        have inner := worded.of_suffix (List.suffix_cons kind kinds)
        obtain ⟨suffix, textual⟩ := clause_textual inner readsFirst
        refine List.forall_mem_cons.mpr ⟨textual, ?_⟩
        exact ih after.length (Nat.lt_succ_of_le suffix.length_le) (inner.of_suffix suffix) readsRest rfl
      · cases reads
        exact fun _ member => by cases member

end Reading

theorem Clause.set_textual {query : Query} {clause : Clause} (textual : query.Textual)
    (stated : clause.Textual) : (clause.set query).Textual := by
  cases clause with
  | filters read => exact ⟨textual.source, textual.validAt, textual.knownAt, stated, textual.projection⟩
  | projection read => exact ⟨textual.source, textual.validAt, textual.knownAt, textual.filters, stated⟩
  | limit value =>
    exact ⟨textual.source, textual.validAt, textual.knownAt, textual.filters, textual.projection⟩
  | explain =>
    exact ⟨textual.source, textual.validAt, textual.knownAt, textual.filters, textual.projection⟩

theorem Clause.apply_eq_some {state state' : Parser.Seen × Query} {clause : Clause} :
    clause.apply state = some state' ↔
      clause.isSeen state.1 = false ∧ state' = (clause.mark state.1, clause.set state.2) := by
  unfold Clause.apply
  cases clause.isSeen state.1 <;> simp [eq_comm]

theorem Clause.foldlM_textual {clauses : List Clause} {state state' : Parser.Seen × Query}
    (textual : state.2.Textual) (stated : ∀ clause ∈ clauses, clause.Textual)
    (applied : clauses.foldlM Clause.apply state = some state') : state'.2.Textual := by
  induction clauses generalizing state with
  | nil =>
    cases applied
    exact textual
  | cons clause clauses ih =>
    rw [List.foldlM_cons] at applied
    obtain ⟨middle, first, rest⟩ := Option.bind_eq_some_iff.mp applied
    rw [List.forall_mem_cons] at stated
    rw [Clause.apply_eq_some] at first
    refine ih ?_ stated.2 rest
    rw [first.2]
    exact Clause.set_textual textual stated.1

/-- A query that tokens state is valid and textual. -/
theorem Reading.query_textual {kinds : Kinds} {read : Query} (worded : Worded kinds)
    (reads : Reading.query kinds = some read) : read.validate = .ok () ∧ read.Textual := by
  obtain ⟨⟨found, rest⟩, states, complete⟩ := Option.bind_eq_some_iff.mp reads
  rw [Reading.complete] at complete
  split at complete
  · next both =>
    cases complete
    refine ⟨both.2, ?_⟩
    obtain ⟨afterFrom, isFrom, states⟩ := Option.bind_eq_some_iff.mp states
    obtain ⟨⟨source, afterSource⟩, isSource, states⟩ := Option.bind_eq_some_iff.mp states
    obtain ⟨afterAt, isAt, states⟩ := Option.bind_eq_some_iff.mp states
    obtain ⟨afterValid, isValid, states⟩ := Option.bind_eq_some_iff.mp states
    obtain ⟨⟨validAt, afterTime⟩, isTime, states⟩ := Option.bind_eq_some_iff.mp states
    obtain ⟨afterKnown, isKnown, states⟩ := Option.bind_eq_some_iff.mp states
    obtain ⟨⟨knownAt, afterCursor⟩, isCursor, states⟩ := Option.bind_eq_some_iff.mp states
    obtain ⟨⟨clauses, _⟩, isClauses, states⟩ := Option.bind_eq_some_iff.mp states
    obtain ⟨state, applied, same⟩ := Option.map_eq_some_iff.mp states
    cases same
    obtain ⟨afterSource', named⟩ := source_textual (worded.of_suffix (keyword_suffix isFrom)) isSource
    obtain ⟨afterTime', _, time⟩ := first_suffix isTime
    obtain ⟨afterCursor', _, cursor⟩ := first_suffix isCursor
    have suffix := ((((((afterCursor'.trans (keyword_suffix isKnown)).trans afterTime').trans
      (keyword_suffix isValid)).trans (keyword_suffix isAt)).trans afterSource').trans (keyword_suffix isFrom))
    have start : (Query.new source ⟨validAt, knownAt⟩).Textual :=
      ⟨named, timeExpr_textual time, cursorExpr_textual cursor, fun _ member => (by cases member), trivial⟩
    refine Clause.foldlM_textual ?_ (clauses_textual (worded.of_suffix suffix) isClauses) applied
    exact start
  · cases complete

/-- A query that a text states is valid and textual. -/
theorem parse_textual {input : String} {query : Query} (parsed : parse input = .ok query) :
    query.validate = .ok () ∧ query.Textual := by
  obtain ⟨lexemes, spells⟩ := exists_spells input.toList
  have read := spells.parse
  rw [parsed] at read
  obtain ⟨kinds, known, states⟩ := Option.bind_eq_some_iff.mp read.symm
  exact Reading.query_textual (mapM_kind_worded spells.formed known) states

/-! ## The phrase of a query -/

/-- The lexeme of a place, with the keywords as `canonical` writes them. -/
def Item.lexeme : Item Lexeme → Lexeme
  | .keyword expected => .word expected.toList
  | .word value => .word value.toList
  | .mark c => .mark c
  | .slot lexeme => lexeme

def TimeExpr.lexeme : TimeExpr → Lexeme
  | .literal value => .digits (Nat.toDigits 10 value.toNat)
  | .parameter value => .word ('$' :: value.toList)

def CursorExpr.lexeme : CursorExpr → Lexeme
  | .head => .word "HEAD".toList
  | .literal value => .digits (Nat.toDigits 10 value.toNat)
  | .parameter value => .word ('$' :: value.toList)

def ValueExpr.lexeme : ValueExpr → Lexeme
  | .parameter value => .word ('$' :: value.toList)
  | .literal (.unsigned value) => .digits (Nat.toDigits 10 value.toNat)
  | .literal (.string value) => .string (value.toList.flatMap quoteChar)
  | value => .word value.canonical.toList

def Filter.written (filter : Filter) : String × Lexeme := (filter.field, filter.value.lexeme)

namespace Query

def whereClause (query : Query) : List (ClauseText Lexeme) :=
  match query.filters with
  | [] => []
  | first :: rest => [.filters first.written (rest.map Filter.written)]

def projectClause (query : Query) : ClauseText Lexeme :=
  match query.projection with
  | .fields (first :: rest) => .projection (some (first, rest))
  | _ => .projection none

def limitClause (query : Query) : List (ClauseText Lexeme) :=
  match query.limit with
  | some limit => [.limit (.digits (Nat.toDigits 10 limit.toNat))]
  | none => []

def explainClause (query : Query) : List (ClauseText Lexeme) :=
  if query.explainContract then [.explain] else []

/-- The phrase that `canonical` writes. -/
def phrase (query : Query) : Phrase Lexeme :=
  { family := .word query.source.family.toList
    name := query.source.name.map fun name => .word name.toList
    validAt := query.temporal.validAt.lexeme
    knownAt := query.temporal.knownAt.lexeme
    clauses := query.whereClause ++ query.projectClause :: (query.limitClause ++ query.explainClause) }

end Query

/-- A lexeme after a space; a comma has none before it. -/
def Lexeme.spaced (lexeme : Lexeme) : List Char :=
  if lexeme = .mark ',' then lexeme.text else ' ' :: lexeme.text

theorem head_spaced {lexemes : List Lexeme} :
    ∀ c ∈ (lexemes.flatMap Lexeme.spaced).head?, c.isDigit = false ∧ isWordChar c = false := by
  intro c head
  cases lexemes with
  | nil => cases head
  | cons lexeme lexemes =>
    rw [List.flatMap_cons, Lexeme.spaced] at head
    split at head
    · next comma =>
      rw [comma] at head
      cases head
      exact ⟨rfl, rfl⟩
    · cases head
      exact ⟨rfl, rfl⟩

theorem spells_spaced {lexemes : List Lexeme} (formed : ∀ lexeme ∈ lexemes, lexeme.WellFormed)
    (closed : ∀ body, .unclosed body ∉ lexemes) : Spells lexemes (lexemes.flatMap Lexeme.spaced) := by
  induction lexemes with
  | nil => exact .nil
  | cons lexeme lexemes ih =>
    rw [List.forall_mem_cons] at formed
    have rest := ih formed.2 fun body member => closed body (List.mem_cons_of_mem _ member)
    have separated : lexeme.Separated (lexemes.flatMap Lexeme.spaced) := by
      cases lexeme with
      | digits chars => exact fun c head => (head_spaced c head).1
      | word chars => exact fun c head => (head_spaced c head).2
      | unclosed body => exact absurd List.mem_cons_self (closed body)
      | _ => trivial
    have spelled := Spells.cons formed.1 separated rest
    rw [List.flatMap_cons, Lexeme.spaced]
    split
    · exact spelled
    · exact .space rfl spelled

theorem toList_intercalate (separator first : String) (rest : List String) :
    (separator.intercalate (first :: rest)).toList =
      first.toList ++ rest.flatMap fun text => separator.toList ++ text.toList := by
  induction rest generalizing first with
  | nil => simp
  | cons second rest ih =>
    rw [String.intercalate_cons_cons, String.toList_append, String.toList_append, ih]
    simp

theorem TimeExpr.spaced_lexeme (value : TimeExpr) : value.lexeme.spaced = ' ' :: value.canonical.toList := by
  cases value with
  | literal value => simp [lexeme, canonical, Lexeme.spaced, Lexeme.text, decimalText]
  | parameter value => simp [lexeme, canonical, Lexeme.spaced, Lexeme.text]

theorem CursorExpr.spaced_lexeme (value : CursorExpr) :
    value.lexeme.spaced = ' ' :: value.canonical.toList := by
  cases value with
  | head => rfl
  | literal value => simp [lexeme, canonical, Lexeme.spaced, Lexeme.text, decimalText]
  | parameter value => simp [lexeme, canonical, Lexeme.spaced, Lexeme.text]

theorem ValueExpr.spaced_lexeme (value : ValueExpr) :
    value.lexeme.spaced = ' ' :: value.canonical.toList := by
  unfold lexeme
  split
  · simp [canonical, Lexeme.spaced, Lexeme.text]
  · simp [canonical, Lexeme.spaced, Lexeme.text, decimalText]
  · simp [canonical, Lexeme.spaced, Lexeme.text, quote]
  · rfl

/-- The text of places, each after a space. -/
def spacedText (items : List (Item Lexeme)) : List Char := (items.map Item.lexeme).flatMap Lexeme.spaced

theorem spacedText_append (front back : List (Item Lexeme)) :
    spacedText (front ++ back) = spacedText front ++ spacedText back := by
  rw [spacedText, List.map_append, List.flatMap_append]
  rfl

theorem spacedText_cons (item : Item Lexeme) (items : List (Item Lexeme)) :
    spacedText (item :: items) = item.lexeme.spaced ++ spacedText items := rfl

theorem filterItems_text (filter : Filter) :
    spacedText (filterItems filter.written) = ' ' :: filter.canonical.toList := by
  show (Lexeme.word filter.field.toList).spaced ++ ((Lexeme.mark '=').spaced ++
    (filter.value.lexeme.spaced ++ [])) = _
  rw [ValueExpr.spaced_lexeme]
  simp [Filter.canonical, Lexeme.spaced, Lexeme.text]

theorem filters_text (first : Filter) (rest : List Filter) :
    spacedText (ClauseText.filters first.written (rest.map Filter.written)).items =
      (" WHERE " ++ String.intercalate " AND " ((first :: rest).map Filter.canonical)).toList := by
  have more : spacedText ((rest.map Filter.written).flatMap fun filter => .keyword "AND" :: filterItems filter) =
      (rest.map Filter.canonical).flatMap fun text => " AND ".toList ++ text.toList := by
    induction rest with
    | nil => rfl
    | cons second rest ih =>
      rw [List.map_cons, List.flatMap_cons, spacedText_append, ih, List.map_cons, List.flatMap_cons,
        spacedText_cons, filterItems_text]
      rfl
  rw [String.toList_append, List.map_cons, toList_intercalate, ClauseText.items, spacedText_append, more,
    spacedText_cons, filterItems_text]
  simp [Item.lexeme, Lexeme.spaced, Lexeme.text]

theorem fields_text (first : String) (rest : List String) :
    spacedText (ClauseText.projection (some (first, rest))).items =
      (" PROJECT " ++ String.intercalate ", " (first :: rest)).toList := by
  have more : spacedText (rest.flatMap fun field => [.mark ',', .word field]) =
      rest.flatMap fun text => ", ".toList ++ text.toList := by
    induction rest with
    | nil => rfl
    | cons second rest ih =>
      rw [List.flatMap_cons, spacedText_append, ih, List.flatMap_cons]
      simp [spacedText, Item.lexeme, Lexeme.spaced, Lexeme.text]
  rw [String.toList_append, toList_intercalate, ClauseText.items, spacedText_cons, spacedText_cons, more]
  simp [Item.lexeme, Lexeme.spaced, Lexeme.text]

namespace Query

variable {query : Query}

theorem whereClause_text :
    spacedText (query.whereClause.flatMap ClauseText.items) = query.whereText.toList := by
  unfold whereClause whereText
  cases query.filters with
  | nil => rfl
  | cons first rest =>
    dsimp only
    rw [if_neg (List.cons_ne_nil _ _), ← filters_text, List.flatMap_cons, List.flatMap_nil, List.append_nil]

theorem projectClause_text (nonempty : query.projection ≠ .fields []) :
    spacedText query.projectClause.items = (" PROJECT " ++ query.projectText).toList := by
  unfold projectClause projectText
  cases isProjection : query.projection with
  | all => rfl
  | fields fields =>
    cases fields with
    | nil => exact absurd isProjection nonempty
    | cons first rest => exact fields_text first rest

theorem limitClause_text :
    spacedText (query.limitClause.flatMap ClauseText.items) = query.limitText.toList := by
  unfold limitClause limitText
  cases query.limit with
  | none => rfl
  | some limit => simp [spacedText, ClauseText.items, Item.lexeme, Lexeme.spaced, Lexeme.text, decimalText]

theorem explainClause_text : spacedText (query.explainClause.flatMap ClauseText.items) =
    (if query.explainContract then " EXPLAIN CONTRACT" else "").toList := by
  unfold explainClause
  cases query.explainContract <;> rfl

/-- The text from `AT` on. -/
theorem tailItems_text (nonempty : query.projection ≠ .fields []) :
    spacedText query.phrase.tailItems =
      (" AT VALID " ++ query.temporal.validAt.canonical ++ " KNOWN " ++ query.temporal.knownAt.canonical ++
        query.whereText ++ " PROJECT " ++ query.projectText ++ query.limitText ++
        (if query.explainContract then " EXPLAIN CONTRACT" else "")).toList := by
  have clauses : spacedText (query.phrase.clauses.flatMap ClauseText.items) =
      query.whereText.toList ++ ((" PROJECT " ++ query.projectText).toList ++ (query.limitText.toList ++
        (if query.explainContract then " EXPLAIN CONTRACT" else "").toList)) := by
    rw [phrase, List.flatMap_append, List.flatMap_cons, List.flatMap_append, spacedText_append,
      spacedText_append, spacedText_append, whereClause_text, projectClause_text nonempty, limitClause_text,
      explainClause_text]
  rw [Phrase.tailItems, spacedText_cons, spacedText_cons, spacedText_cons, spacedText_cons, spacedText_cons,
    clauses]
  show _ ++ (_ ++ (query.temporal.validAt.lexeme.spaced ++ (_ ++
    (query.temporal.knownAt.lexeme.spaced ++ _)))) = _
  rw [TimeExpr.spaced_lexeme, CursorExpr.spaced_lexeme]
  simp [Item.lexeme, Lexeme.spaced, Lexeme.text]

end Query

end Vyrm.Ql
