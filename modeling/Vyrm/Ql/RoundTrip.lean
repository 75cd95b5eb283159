import Vyrm.Ql.Canonical

/-!
# The round trip

A canonical text parses as its query exactly when the query is textual; so every query that
some text states does.
-/

namespace Vyrm.Ql
open Lib Vyrm.Core

/-! ## Lexemes of a textual query -/

/-- A lexeme that the tokenizer reads as it is. -/
def Lexeme.Sound (lexeme : Lexeme) : Prop := lexeme.WellFormed ∧ lexeme.kind.isSome

/-- The token of a sound lexeme. -/
def Lexeme.token (lexeme : Lexeme) : TokenKind := lexeme.kind.getD .star

theorem Lexeme.Sound.kind_eq {lexeme : Lexeme} (sound : lexeme.Sound) : lexeme.kind = some lexeme.token :=
  (Option.some_get sound.2).symm.trans (congrArg some (Option.get_eq_getD _))

theorem isFieldChar_isWordChar {c : Char} (isChar : isFieldChar c) : isWordChar c := by
  have other : ∀ {mark : Char}, isFieldChar mark = false → c ≠ mark := by
    intro mark notChar same
    rw [same, notChar] at isChar
    cases isChar
  rw [isWordChar_iff]
  refine ⟨?_, other rfl, other rfl, other rfl, other rfl, other rfl⟩
  simp only [isAsciiWhitespace, Bool.or_eq_false_iff, decide_eq_false_iff_not]
  exact ⟨⟨⟨⟨other rfl, other rfl⟩, other rfl⟩, other rfl⟩, other rfl⟩

theorem isField_all {value : String} (field : isField value) : value.toList.all isWordChar := by
  simp only [isField, Bool.and_eq_true, List.all_eq_true] at field
  rw [List.all_eq_true]
  exact fun c member => isFieldChar_isWordChar (field.2 c member)

theorem isWord_of_isField {value : String} (field : isField value) (starts : startsWord value) :
    isWord value.toList := by
  have nonempty : value.toList ≠ [] := by
    simp only [isField, Bool.and_eq_true, decide_eq_true_eq] at field
    simpa using field.1
  simp only [isWord, Bool.and_eq_true, decide_eq_true_eq]
  exact ⟨⟨nonempty, isField_all field⟩, starts⟩

theorem isWord_parameter {value : String} (field : isField value) : isWord ('$' :: value.toList) := by
  have all := isField_all field
  simp only [isWord, Bool.and_eq_true, decide_eq_true_eq, List.all_cons]
  exact ⟨⟨List.cons_ne_nil _ _, rfl, all⟩, rfl⟩

theorem word_sound {chars : List Char} (word : isWord chars) : (Lexeme.word chars).Sound := ⟨word, rfl⟩

theorem word_token (chars : List Char) : (Lexeme.word chars).token = .word (String.ofList chars) := rfl

theorem digits_sound (value : UInt64) : (Lexeme.digits (Nat.toDigits 10 value.toNat)).Sound := by
  refine ⟨⟨Nat.toDigits_ne_nil, List.all_eq_true.mpr fun c member =>
    Nat.isDigit_of_mem_toDigits (by decide) (by decide) member⟩, ?_⟩
  have small : Nat.ofDigitChars 10 (Nat.toDigits 10 value.toNat) 0 < 2 ^ 64 := by
    rw [Nat.ofDigitChars_ten_toDigits]
    exact value.toNat_lt
  rw [Lexeme.kind, if_pos small]
  rfl

theorem digits_token (value : UInt64) :
    (Lexeme.digits (Nat.toDigits 10 value.toNat)).token = .number value := by
  rw [Lexeme.token, Lexeme.kind, Nat.ofDigitChars_ten_toDigits, if_pos value.toNat_lt, UInt64.ofNat_toNat]
  rfl

theorem escape_read {mark c : Char} (known : unescape mark = some c) (rest : List Char) :
    isClosed ('\\' :: mark :: rest) = isClosed rest ∧
      unescapeAll ('\\' :: mark :: rest) = (unescapeAll rest).map (c :: ·) := by
  refine ⟨rfl, ?_⟩
  rw [unescapeAll, known]
  cases unescapeAll rest <;> rfl

/-- What `quote` writes is closed, and is read back. -/
theorem quoteChar_read (c : Char) (rest : List Char) :
    isClosed (quoteChar c ++ rest) = isClosed rest ∧
      unescapeAll (quoteChar c ++ rest) = (unescapeAll rest).map (c :: ·) := by
  unfold quoteChar
  split
  · next same => subst same; exact escape_read rfl rest
  split
  · next same => subst same; exact escape_read rfl rest
  split
  · next same => subst same; exact escape_read rfl rest
  split
  · next same => subst same; exact escape_read rfl rest
  split
  · next same => subst same; exact escape_read rfl rest
  · next notQuote notEscape _ _ _ =>
    constructor
    · rw [List.singleton_append, isClosed]
      · exact notQuote
      · exact fun same _ => notEscape same
      · exact fun _ _ same _ => notEscape same
    · rw [List.singleton_append, unescapeAll]
      exact fun _ _ same _ => notEscape same

theorem quote_read (chars : List Char) :
    isClosed (chars.flatMap quoteChar) ∧ unescapeAll (chars.flatMap quoteChar) = some chars := by
  induction chars with
  | nil => exact ⟨rfl, rfl⟩
  | cons c chars ih =>
    obtain ⟨closed, value⟩ := quoteChar_read c (chars.flatMap quoteChar)
    rw [List.flatMap_cons, closed, value, ih.2]
    exact ⟨ih.1, rfl⟩

theorem string_sound (value : String) : (Lexeme.string (value.toList.flatMap quoteChar)).Sound := by
  obtain ⟨closed, read⟩ := quote_read value.toList
  refine ⟨closed, ?_⟩
  rw [Lexeme.kind, read]
  rfl

theorem string_token (value : String) :
    (Lexeme.string (value.toList.flatMap quoteChar)).token = .string value := by
  rw [Lexeme.token, Lexeme.kind, (quote_read value.toList).2, Option.map_some, String.ofList_toList]
  rfl

/-! ## Reading the parts of a textual query -/

theorem parameter_read {value : String} (field : isField value) :
    Reading.parameter (String.ofList ('$' :: value.toList)) = some value := by
  unfold Reading.parameter
  rw [String.toList_ofList]
  show (if isField (String.ofList value.toList) then _ else _) = _
  rw [String.ofList_toList, if_pos field]

theorem TimeExpr.sound {value : TimeExpr} (textual : value.Textual) :
    value.lexeme.Sound ∧ Reading.timeExpr value.lexeme.token = some value := by
  cases value with
  | literal value =>
    refine ⟨digits_sound value, ?_⟩
    rw [lexeme, digits_token]
    rfl
  | parameter value =>
    refine ⟨word_sound (isWord_parameter textual), ?_⟩
    rw [lexeme, word_token, Reading.timeExpr, parameter_read textual]
    rfl

theorem CursorExpr.sound {value : CursorExpr} (textual : value.Textual) :
    value.lexeme.Sound ∧ Reading.cursorExpr value.lexeme.token = some value := by
  cases value with
  | head => exact ⟨word_sound rfl, rfl⟩
  | literal value =>
    refine ⟨digits_sound value, ?_⟩
    rw [lexeme, digits_token]
    rfl
  | parameter value =>
    refine ⟨word_sound (isWord_parameter textual), ?_⟩
    have other : asciiLower (String.ofList ('$' :: value.toList)) ≠ asciiLower "HEAD" := by
      intro same
      have heads := congrArg (fun text => text.toList.head?) same
      simp [asciiLower] at heads
    rw [lexeme, word_token, Reading.cursorExpr, if_neg other, parameter_read textual]
    rfl

theorem ValueExpr.sound {value : ValueExpr} (textual : value.Textual)
    (scalar : ∀ literal, value = .literal literal → isScalar literal) :
    value.lexeme.Sound ∧ Reading.valueExpr value.lexeme.token = some value := by
  cases value with
  | parameter value =>
    refine ⟨word_sound (isWord_parameter textual), ?_⟩
    rw [lexeme, word_token, Reading.valueExpr, String.toList_ofList, if_pos List.head?_cons, parameter_read textual]
    rfl
  | literal value =>
    have scalar := scalar value rfl
    cases value with
    | null => exact ⟨word_sound rfl, rfl⟩
    | bool value => cases value <;> exact ⟨word_sound rfl, rfl⟩
    | integer value => exact textual.elim
    | unsigned value =>
      refine ⟨digits_sound value, ?_⟩
      rw [lexeme, digits_token]
      rfl
    | string value =>
      refine ⟨string_sound value, ?_⟩
      rw [lexeme, string_token]
      rfl
    | _ => cases scalar

/-- What `validate` asks of the parts. -/
structure Query.Checked (query : Query) : Prop where
  version : query.contractVersion = queryContractVersion
  nonempty : query.projection ≠ .fields []
  fields : ∀ stated, query.projection = .fields stated → ∀ field ∈ stated, isField field
  filters : ∀ filter ∈ query.filters,
    isField filter.field ∧ ∀ literal, filter.value = .literal literal → isScalar literal

theorem validateField_eq_ok {value : String} {offset : Nat} (valid : validateField value offset = .ok ()) :
    isField value := by
  unfold validateField at valid
  split at valid
  · assumption
  · cases valid

theorem validateFilters_ok {filters : List Filter} (valid : validateFilters filters = .ok ()) :
    ∀ filter ∈ filters,
      isField filter.field ∧ ∀ literal, filter.value = .literal literal → isScalar literal := by
  intro filter member
  have checked := except_forM_ok.mp valid filter member
  obtain ⟨⟨⟩, field, scalar⟩ := except_bind_ok.mp checked
  refine ⟨validateField_eq_ok field, ?_⟩
  intro literal isLiteral
  rw [isLiteral] at scalar
  dsimp only at scalar
  split at scalar
  · assumption
  · cases scalar

theorem Query.validate_ok {query : Query} (valid : query.validate = .ok ()) : query.Checked := by
  unfold Query.validate at valid
  split at valid
  · cases valid
  next version =>
  split at valid
  · cases valid
  split at valid
  · next fields isFields =>
    split at valid
    · cases valid
    · next nonempty =>
      obtain ⟨⟨⟩, each, filters⟩ := except_bind_ok.mp valid
      refine ⟨not_not.mp version, ?_, ?_, validateFilters_ok filters⟩
      · rw [isFields]
        intro same
        cases same
        exact nonempty rfl
      · intro stated isStated field member
        rw [isFields] at isStated
        cases isStated
        exact validateField_eq_ok (except_forM_ok.mp each field member)
  · next isAll =>
    refine ⟨not_not.mp version, ?_, ?_, validateFilters_ok valid⟩
    · rw [isAll]
      intro same
      cases same
    · intro stated isStated
      rw [isAll] at isStated
      cases isStated

namespace Query

variable {query : Query}

theorem source_read (source : Source) :
    Reading.sourceText (Lexeme.word source.family.toList).token
      (source.name.map fun name => (Lexeme.word name.toList).token) = some source := by
  cases source with
  | record kind => simp [Source.family, Source.name, word_token, Reading.sourceText, Reading.named, asciiLower, Except.toOption]
  | relation kind => simp [Source.family, Source.name, word_token, Reading.sourceText, Reading.named, asciiLower, Except.toOption]
  | event kind => simp [Source.family, Source.name, word_token, Reading.sourceText, Reading.named, asciiLower, Except.toOption]
  | claim predicate =>
    cases predicate with
    | none => rfl
    | some predicate => simp [Source.family, Source.name, word_token, Reading.sourceText, Reading.named, asciiLower, Except.toOption]

theorem filter_read {filter : Filter} (field : isField filter.field)
    (scalar : ∀ literal, filter.value = .literal literal → isScalar literal)
    (textual : filter.value.Textual) :
    Reading.filter (filter.written.map id Lexeme.token) = some filter := by
  show (if isField filter.field then (Reading.valueExpr filter.value.lexeme.token).map _ else none) = _
  rw [if_pos field, (ValueExpr.sound textual scalar).2]
  rfl

theorem filters_read {filters : List Filter}
    (checked : ∀ filter ∈ filters,
      isField filter.field ∧ ∀ literal, filter.value = .literal literal → isScalar literal)
    (textual : ∀ filter ∈ filters, startsWord filter.field ∧ filter.value.Textual) :
    (filters.map fun filter => filter.written.map id Lexeme.token).mapM Reading.filter = some filters := by
  induction filters with
  | nil => rfl
  | cons filter filters ih =>
    rw [List.forall_mem_cons] at checked textual
    rw [List.map_cons, List.mapM_cons, filter_read checked.1.1 checked.1.2 textual.1.2,
      ih checked.2 textual.2]
    rfl

theorem whereClause_read (checked : query.Checked) (textual : query.Textual) :
    (query.whereClause.map (ClauseText.map Lexeme.token)).mapM Reading.clauseText =
      some (if query.filters = [] then [] else [.filters query.filters]) := by
  have read := filters_read checked.filters textual.filters
  unfold whereClause
  cases filters : query.filters with
  | nil => rfl
  | cons first rest =>
    rw [filters, List.map_cons] at read
    rw [if_neg (List.cons_ne_nil _ _), List.map_singleton, ClauseText.map, List.mapM_cons, List.mapM_nil,
      Reading.clauseText, List.map_map]
    show ((((first.written.map id Lexeme.token :: rest.map fun filter => filter.written.map id Lexeme.token).mapM
      Reading.filter).map Clause.filters).bind fun clause => some [clause]) = _
    rw [read]
    rfl

theorem projectClause_read (checked : query.Checked) :
    Reading.clauseText (query.projectClause.map Lexeme.token) = some (.projection query.projection) := by
  unfold projectClause
  cases isProjection : query.projection with
  | all => rfl
  | fields stated =>
    cases stated with
    | nil => exact absurd isProjection checked.nonempty
    | cons first rest =>
      have valid : (first :: rest).all isField := List.all_eq_true.mpr (checked.fields _ isProjection)
      show (if (first :: rest).all isField then _ else none) = _
      rw [if_pos valid]

theorem limitClause_read :
    (query.limitClause.map (ClauseText.map Lexeme.token)).mapM Reading.clauseText =
      some (match query.limit with
        | some limit => [.limit limit]
        | none => []) := by
  unfold limitClause
  cases query.limit with
  | none => rfl
  | some limit =>
    dsimp only
    rw [List.map_singleton, ClauseText.map, digits_token]
    rfl

theorem explainClause_read :
    (query.explainClause.map (ClauseText.map Lexeme.token)).mapM Reading.clauseText =
      some (if query.explainContract then [.explain] else []) := by
  unfold explainClause
  cases query.explainContract <;> rfl

/-- The clauses of a query, in the order of its canonical text. -/
def clauses (query : Query) : List Clause :=
  (if query.filters = [] then [] else [.filters query.filters]) ++
    .projection query.projection :: ((match query.limit with
      | some limit => [.limit limit]
      | none => []) ++ if query.explainContract then [.explain] else [])

theorem foldlM_clauses (version : query.contractVersion = queryContractVersion) :
    ∃ seen, query.clauses.foldlM Clause.apply
      ((⟨false, false, false, false⟩ : Parser.Seen), Query.new query.source query.temporal) =
        some (seen, query) := by
  obtain ⟨contractVersion, source, temporal, filters, projection, limit, explain⟩ := query
  cases version
  cases filters <;> cases limit <;> cases explain
  all_goals exact ⟨_, rfl⟩

/-- The phrase of a textual query states it. -/
theorem phrase_read (valid : query.validate = .ok ()) (textual : query.Textual) :
    Reading.phrase (query.phrase.map Lexeme.token) = some query := by
  have checked := validate_ok valid
  have clauses : (query.phrase.map Lexeme.token).clauses.mapM Reading.clauseText = some query.clauses := by
    rw [Phrase.map, phrase]
    dsimp only
    rw [List.map_append, List.map_cons, List.map_append, List.mapM_append, List.mapM_cons, List.mapM_append,
      whereClause_read checked textual, projectClause_read checked, limitClause_read, explainClause_read]
    rfl
  have source : Reading.sourceText (query.phrase.map Lexeme.token).family
      (query.phrase.map Lexeme.token).name = some query.source := by
    rw [← source_read query.source, Phrase.map, phrase]
    dsimp only
    rw [Option.map_map]
    rfl
  have validAt : Reading.timeExpr (query.phrase.map Lexeme.token).validAt = some query.temporal.validAt :=
    (TimeExpr.sound textual.validAt).2
  have knownAt : Reading.cursorExpr (query.phrase.map Lexeme.token).knownAt = some query.temporal.knownAt :=
    (CursorExpr.sound textual.knownAt).2
  obtain ⟨seen, applied⟩ := foldlM_clauses checked.version
  unfold Reading.phrase
  rw [source, validAt, knownAt, clauses]
  simp only [Option.bind_eq_bind, Option.bind_some, applied, valid, if_true]

/-! ## The canonical text -/

theorem canonical_toList (nonempty : query.projection ≠ .fields []) :
    query.canonical.toList = "FROM".toList ++ ' ' :: query.source.family.toList ++
      (match query.source.name with
        | some name => ':' :: name.toList
        | none => []) ++ spacedText query.phrase.tailItems := by
  have source : query.source.canonical.toList = query.source.family.toList ++
      (match query.source.name with
        | some name => ':' :: name.toList
        | none => []) := by
    cases query.source with
    | claim predicate => cases predicate <;> simp [Source.canonical, Source.family, Source.name]
    | _ => simp [Source.canonical, Source.family, Source.name]
  rw [tailItems_text nonempty]
  show ("FROM " ++ query.source.canonical ++ " AT VALID " ++ query.temporal.validAt.canonical ++
    " KNOWN " ++ query.temporal.knownAt.canonical ++ query.whereText ++ " PROJECT " ++
    query.projectText ++ query.limitText ++
    (if query.explainContract then " EXPLAIN CONTRACT" else "")).toList = _
  simp only [String.toList_append, source]
  simp

theorem mark_sound {c : Char} (mark : c = ':' ∨ c = ',' ∨ c = '=' ∨ c = '*') : (Lexeme.mark c).Sound := by
  refine ⟨mark, ?_⟩
  rcases mark with rfl | rfl | rfl | rfl
  all_goals rfl

theorem filterItems_sound {filter : Filter} (field : isField filter.field)
    (scalar : ∀ literal, filter.value = .literal literal → isScalar literal)
    (textual : startsWord filter.field ∧ filter.value.Textual) :
    ∀ item ∈ filterItems filter.written, item.lexeme.Sound := by
  simp only [filterItems, List.forall_mem_cons]
  exact ⟨word_sound (isWord_of_isField field textual.1), mark_sound (by decide),
    (ValueExpr.sound textual.2 scalar).1, fun _ none => by cases none⟩

theorem whereClause_sound (checked : query.Checked) (textual : query.Textual) :
    ∀ item ∈ query.whereClause.flatMap ClauseText.items, item.lexeme.Sound := by
  have each : ∀ filter ∈ query.filters, ∀ item ∈ filterItems filter.written, item.lexeme.Sound :=
    fun filter member => filterItems_sound (checked.filters filter member).1 (checked.filters filter member).2
      (textual.filters filter member)
  unfold whereClause
  cases isFilters : query.filters with
  | nil => exact fun _ none => by cases none
  | cons first rest =>
    rw [isFilters, List.forall_mem_cons] at each
    rw [List.flatMap_singleton, ClauseText.items, List.cons_append, List.forall_mem_cons, List.forall_mem_append]
    refine ⟨word_sound rfl, each.1, ?_⟩
    intro item member
    obtain ⟨written, present, inside⟩ := List.mem_flatMap.mp member
    obtain ⟨filter, isRest, rfl⟩ := List.mem_map.mp present
    rcases List.mem_cons.mp inside with rfl | inside
    · exact word_sound rfl
    · exact each.2 filter isRest item inside

theorem projectClause_sound (checked : query.Checked) (textual : query.Textual) :
    ∀ item ∈ query.projectClause.items, item.lexeme.Sound := by
  have all : ∀ item ∈ (ClauseText.projection none : ClauseText Lexeme).items, item.lexeme.Sound := by
    simp only [ClauseText.items, List.forall_mem_cons]
    exact ⟨word_sound rfl, mark_sound (by decide), fun _ none => by cases none⟩
  unfold projectClause
  split
  · next first rest isFields =>
    have each : ∀ field ∈ first :: rest, isWord field.toList := by
      intro field member
      have starts := textual.projection
      rw [isFields] at starts
      exact isWord_of_isField (checked.fields _ isFields field member) (starts field member)
    rw [List.forall_mem_cons] at each
    rw [ClauseText.items, List.forall_mem_cons, List.forall_mem_cons]
    refine ⟨word_sound rfl, word_sound each.1, ?_⟩
    intro item member
    obtain ⟨field, present, inside⟩ := List.mem_flatMap.mp member
    rcases List.mem_cons.mp inside with rfl | inside
    · exact mark_sound (by decide)
    · rw [List.mem_singleton.mp inside]
      exact word_sound (each.2 field present)
  · exact all

theorem limitClause_sound : ∀ item ∈ query.limitClause.flatMap ClauseText.items, item.lexeme.Sound := by
  unfold limitClause
  cases query.limit with
  | none => exact fun _ none => by cases none
  | some limit =>
    rw [List.flatMap_singleton]
    simp only [ClauseText.items, List.forall_mem_cons]
    exact ⟨word_sound rfl, digits_sound limit, fun _ none => by cases none⟩

theorem explainClause_sound : ∀ item ∈ query.explainClause.flatMap ClauseText.items, item.lexeme.Sound := by
  unfold explainClause
  cases query.explainContract with
  | false => exact fun _ none => by cases none
  | true =>
    rw [if_pos rfl, List.flatMap_singleton]
    simp only [ClauseText.items, List.forall_mem_cons]
    exact ⟨word_sound rfl, word_sound rfl, fun _ none => by cases none⟩

theorem tailItems_sound (checked : query.Checked) (textual : query.Textual) :
    ∀ item ∈ query.phrase.tailItems, item.lexeme.Sound := by
  rw [Phrase.tailItems]
  simp only [List.forall_mem_cons]
  refine ⟨word_sound rfl, word_sound rfl, (TimeExpr.sound textual.validAt).1, word_sound rfl,
    (CursorExpr.sound textual.knownAt).1, ?_⟩
  rw [phrase]
  dsimp only
  rw [List.flatMap_append, List.flatMap_cons, List.flatMap_append]
  simp only [List.forall_mem_append]
  exact ⟨whereClause_sound checked textual, projectClause_sound checked textual, limitClause_sound,
    explainClause_sound⟩

/-- The canonical text of a textual query, by its lexemes. -/
theorem canonical_spells (valid : query.validate = .ok ()) (textual : query.Textual) :
    Spells (query.phrase.items.map Item.lexeme) query.canonical.toList ∧
      ∀ item ∈ query.phrase.items, item.lexeme.Sound := by
  have checked := validate_ok valid
  have tailSound := tailItems_sound checked textual
  have tail : Spells (query.phrase.tailItems.map Item.lexeme) (spacedText query.phrase.tailItems) := by
    apply spells_spaced
    · intro lexeme member
      obtain ⟨item, present, rfl⟩ := List.mem_map.mp member
      exact (tailSound item present).1
    · intro body member
      obtain ⟨item, present, isUnclosed⟩ := List.mem_map.mp member
      have sound := (tailSound item present).2
      rw [isUnclosed] at sound
      cases sound
  have front : ∀ c ∈ (spacedText query.phrase.tailItems).head?, isWordChar c = false :=
    fun c head => (head_spaced c head).2
  have family : (Lexeme.word query.source.family.toList).Sound := by
    cases query.source with
    | record kind => exact word_sound (show isWord "record".toList from rfl)
    | relation kind => exact word_sound (show isWord "relation".toList from rfl)
    | event kind => exact word_sound (show isWord "event".toList from rfl)
    | claim predicate => exact word_sound (show isWord "claim".toList from rfl)
  rw [canonical_toList checked.nonempty, Phrase.items]
  have isFamily : query.phrase.family = .word query.source.family.toList := rfl
  cases name : query.source.name with
  | none =>
    have isName : query.phrase.name = none := by rw [phrase, name]; rfl
    rw [isFamily, isName, List.append_nil, List.append_assoc]
    refine ⟨?_, List.forall_mem_cons.mpr ⟨word_sound rfl, List.forall_mem_cons.mpr ⟨family, tailSound⟩⟩⟩
    refine Spells.cons (word_sound rfl).1 ?_ (.space rfl (Spells.cons family.1 front tail))
    intro c head
    cases head
    rfl
  | some name' =>
    have isName : query.phrase.name = some (.word name'.toList) := by rw [phrase, name]; rfl
    have named : (Lexeme.word name'.toList).Sound := word_sound (textual.source name' name)
    rw [isFamily, isName, List.append_assoc, List.append_assoc]
    refine ⟨?_, List.forall_mem_cons.mpr ⟨word_sound rfl, List.forall_mem_cons.mpr ⟨family,
      List.forall_mem_cons.mpr ⟨mark_sound (by decide), List.forall_mem_cons.mpr ⟨named, tailSound⟩⟩⟩⟩⟩
    refine Spells.cons (word_sound rfl).1 ?_ (.space rfl (Spells.cons family.1 ?_
      (Spells.cons (mark_sound (by decide)).1 trivial (Spells.cons named.1 front tail))))
    · intro c head
      cases head
      rfl
    · intro c head
      cases head
      rfl

/-! ## Parsing the canonical text -/

theorem item_holds {item : Item Lexeme} (sound : item.lexeme.Sound) :
    (item.map Lexeme.token).Holds item.lexeme.token := by
  cases item with
  | keyword expected =>
    show (TokenKind.word (String.ofList expected.toList)).isKeyword expected
    rw [String.ofList_toList, isKeyword_word]
  | word value =>
    show TokenKind.word (String.ofList value.toList) = .word value
    rw [String.ofList_toList]
  | mark c => exact sound.kind_eq
  | slot value => rfl

theorem items_fill {items : List (Item Lexeme)} (sound : ∀ item ∈ items, item.lexeme.Sound) :
    Fills (items.map (Item.map Lexeme.token)) (items.map fun item => item.lexeme.token) := by
  rw [Fills, List.forall₂_map_left_iff, List.forall₂_map_right_iff, List.forall₂_same]
  exact fun item member => item_holds (sound item member)

theorem items_kinds {items : List (Item Lexeme)} (sound : ∀ item ∈ items, item.lexeme.Sound) :
    (items.map Item.lexeme).mapM Lexeme.kind = some (items.map fun item => item.lexeme.token) := by
  rw [mapM_kind_iff, List.forall₂_map_left_iff, List.forall₂_map_right_iff, List.forall₂_same]
  exact fun item member => (sound item member).kind_eq

/-- A textual query is read back from its canonical text. -/
theorem parse_canonical (valid : query.validate = .ok ()) (textual : query.Textual) :
    parse query.canonical = .ok query := by
  obtain ⟨spells, sound⟩ := canonical_spells valid textual
  have fills := items_fill sound
  rw [← Phrase.items_map] at fills
  rw [← except_toOption_eq_some, spells.parse, items_kinds sound, Option.bind_some, query_fills fills,
    phrase_read valid textual]

/-- Among the queries that `validate` accepts, exactly the textual ones are read back from their
canonical text, and these have canonical texts of their own. -/
theorem parse_canonical_iff (valid : query.validate = .ok ()) :
    (parse query.canonical = .ok query ↔ query.Textual) ∧
      (query.Textual → ∀ other : Query, other.validate = .ok () → other.Textual →
        other.canonical = query.canonical → other = query) := by
  refine ⟨⟨fun parsed => (parse_textual parsed).2, parse_canonical valid⟩, ?_⟩
  intro textual other otherValid otherTextual same
  have parsed := parse_canonical otherValid otherTextual
  rw [same, parse_canonical valid textual] at parsed
  exact (Except.ok.inj parsed).symm

end Query

/-- The query of the typed interface in the tests. -/
def documentQuery : Query :=
  { Query.new (.record ⟨"document", by decide, by decide⟩) ⟨.parameter "when", .head⟩ with
    filters := [⟨"status", .literal (.string "open")⟩], projection := .fields ["id", "status"]
    limit := some 10, explainContract := true }

theorem documentQuery_valid : documentQuery.validate = .ok () := by decide +kernel

theorem document_parse_canonical_iff :
    (parse documentQuery.canonical = .ok documentQuery ↔ documentQuery.Textual) ∧
      (documentQuery.Textual → ∀ other : Query, other.validate = .ok () → other.Textual →
        other.canonical = documentQuery.canonical → other = documentQuery) :=
  Query.parse_canonical_iff documentQuery_valid

/-- A query for an attempt count, as the literal `5`. -/
def attemptsQuery (literal : RuntimeValue) : Query :=
  { Query.new (.record ⟨"document", by decide, by decide⟩) ⟨.literal 1, .head⟩ with
    filters := [⟨"attempts", .literal literal⟩] }

/-- A signed literal is valid, is written as the unsigned one is, and is read back as that. -/
theorem signed_not_read_back :
    (attemptsQuery (.integer 5)).validate = .ok () ∧ (attemptsQuery (.unsigned 5)).validate = .ok () ∧
      (attemptsQuery (.integer 5)).canonical = (attemptsQuery (.unsigned 5)).canonical ∧
      parse (attemptsQuery (.integer 5)).canonical = .ok (attemptsQuery (.unsigned 5)) ∧
      ¬ ∀ query : Query, query.validate = .ok () → parse query.canonical = .ok query := by
  refine ⟨by decide +kernel, by decide +kernel, by decide +kernel, by decide +kernel, ?_⟩
  intro claim
  exact absurd (claim (attemptsQuery (.integer 5)) (by decide +kernel)) (by decide +kernel)

end Vyrm.Ql
