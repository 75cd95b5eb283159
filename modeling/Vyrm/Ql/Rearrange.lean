import Vyrm.Ql.RoundTrip

/-!
# Texts that say the same

Every text that states a query is a phrase. Two texts that differ in the order of their
clauses, in the whitespace between their tokens or in the case of their keywords state the
same query, or none.
-/

namespace Vyrm.Ql
open Lib Vyrm.Core

/-! ## A query has a phrase -/

namespace Reading

variable {kinds later : Kinds}

theorem keyword_fills {expected : String} (read : keyword expected kinds = some later) :
    ∃ kind, (Item.keyword expected).Holds kind ∧ kinds = kind :: later := by
  cases kinds with
  | nil => cases read
  | cons kind kinds =>
    rw [keyword] at read
    split at read
    · next isExpected =>
      cases read
      exact ⟨kind, isExpected, rfl⟩
    · cases read

theorem first_cons {α : Type} {read : TokenKind → Option α} {value : α}
    (found : first read kinds = some (value, later)) : ∃ kind, kinds = kind :: later := by
  cases kinds with
  | nil => cases found
  | cons kind kinds =>
    obtain ⟨_, -, same⟩ := Option.map_eq_some_iff.mp found
    cases same
    exact ⟨kind, rfl⟩

theorem source_fills {read : Source} (reads : source kinds = some (read, later)) :
    ∃ family name, kinds = family :: (match name with
      | some name => .colon :: name :: later
      | none => later) := by
  unfold source at reads
  split at reads
  · next family _ =>
    split at reads
    · cases reads
      exact ⟨.word family, none, rfl⟩
    · split at reads
      · next name _ _ =>
        obtain ⟨_, -, same⟩ := Option.map_eq_some_iff.mp reads
        cases same
        exact ⟨.word family, some (.word name), rfl⟩
      · cases reads
  · cases reads

theorem fills_filter (field : String) (value : TokenKind) :
    Fills (filterItems (field, value)) [.word field, .equals, value] :=
  .cons rfl (.cons rfl (.cons rfl .nil))

theorem filters_stated {read : List Filter} (reads : filters kinds = some (read, later)) :
    ∃ (first : String × TokenKind) (rest : List (String × TokenKind)) (front : Kinds),
      Fills (filterItems first ++ rest.flatMap fun filter => .keyword "AND" :: filterItems filter) front ∧
        kinds = front ++ later := by
  fun_induction filters kinds generalizing read later with
  | case1 field value value' known kind rest isAnd ih =>
    obtain ⟨⟨_, _⟩, inner, same⟩ := Option.map_eq_some_iff.mp reads
    cases same
    obtain ⟨second, others, front, fills, rfl⟩ := ih inner
    refine ⟨(field, value), second :: others, .word field :: .equals :: value :: kind :: front, ?_, rfl⟩
    exact List.rel_append (fills_filter field value) (.cons isAnd fills)
  | case2 field value value' known kind rest isAnd =>
    cases reads
    exact ⟨(field, value), [], _, fills_filter field value, rfl⟩
  | case3 field value value' known =>
    cases reads
    exact ⟨(field, value), [], _, fills_filter field value, rfl⟩
  | case4 => cases reads
  | case5 => cases reads

theorem fields_stated {read : List String} (reads : fields kinds = some (read, later)) :
    ∃ (first : String) (rest : List String) (front : Kinds),
      Fills (.word first :: rest.flatMap fun field => [.mark ',', .word field]) front ∧
        kinds = front ++ later := by
  fun_induction fields kinds generalizing read later with
  | case1 field valid rest ih =>
    obtain ⟨⟨_, _⟩, inner, same⟩ := Option.map_eq_some_iff.mp reads
    cases same
    obtain ⟨second, others, front, fills, rfl⟩ := ih inner
    exact ⟨field, second :: others, .word field :: .comma :: front, .cons rfl (.cons rfl fills), rfl⟩
  | case2 field valid kinds =>
    cases reads
    exact ⟨field, [], _, .cons rfl .nil, rfl⟩
  | case3 => cases reads
  | case4 => cases reads

theorem clause_stated {kind : TokenKind} {read : Clause} (reads : clause kind kinds = some (read, later)) :
    ∃ (clause : ClauseText TokenKind) (front : Kinds), Fills clause.items front ∧
      kind :: kinds = front ++ later := by
  unfold clause at reads
  split at reads
  · next isWhere =>
    obtain ⟨⟨_, _⟩, inner, same⟩ := Option.map_eq_some_iff.mp reads
    cases same
    obtain ⟨first, rest, front, fills, rfl⟩ := filters_stated inner
    exact ⟨.filters first rest, kind :: front, .cons isWhere fills, rfl⟩
  split at reads
  · next isProject =>
    obtain ⟨⟨_, _⟩, inner, same⟩ := Option.map_eq_some_iff.mp reads
    cases same
    unfold projection at inner
    split at inner
    · cases inner
      exact ⟨.projection none, [kind, .star], .cons isProject (.cons rfl .nil), rfl⟩
    · obtain ⟨⟨_, _⟩, stated, same⟩ := Option.map_eq_some_iff.mp inner
      cases same
      obtain ⟨first, rest, front, fills, rfl⟩ := fields_stated stated
      exact ⟨.projection (some (first, rest)), kind :: front, .cons isProject fills, rfl⟩
  split at reads
  · next isLimit =>
    obtain ⟨⟨_, _⟩, inner, same⟩ := Option.map_eq_some_iff.mp reads
    cases same
    unfold limit at inner
    split at inner
    · cases inner
      exact ⟨.limit _, [kind, _], .cons isLimit (.cons rfl .nil), rfl⟩
    · cases inner
  split at reads
  · next isExplain =>
    obtain ⟨_, inner, same⟩ := Option.map_eq_some_iff.mp reads
    cases same
    obtain ⟨contract, isContract, rfl⟩ := keyword_fills inner
    exact ⟨.explain, [kind, contract], .cons isExplain (.cons isContract .nil), rfl⟩
  · cases reads

theorem clauses_stated {read : List Clause} (reads : clauses kinds = some (read, later)) :
    ∃ (clauses : List (ClauseText TokenKind)) (front : Kinds), Fills (clauses.flatMap ClauseText.items) front ∧
      kinds = front ++ later := by
  induction length : kinds.length using Nat.strongRecOn generalizing kinds read with
  | ind n ih =>
    subst length
    cases kinds with
    | nil =>
      rw [clauses_nil] at reads
      cases reads
      exact ⟨[], [], .nil, rfl⟩
    | cons kind kinds =>
      rw [clauses_cons] at reads
      split at reads
      · obtain ⟨⟨_, after⟩, readsFirst, more⟩ := Option.bind_eq_some_iff.mp reads
        obtain ⟨⟨rest, _⟩, readsRest, same⟩ := Option.map_eq_some_iff.mp more
        cases same
        obtain ⟨clause, front, fills, split⟩ := clause_stated readsFirst
        obtain ⟨clauses, behind, fillsRest, rfl⟩ :=
          ih after.length (Nat.lt_succ_of_le (clause_shorter readsFirst)) readsRest rfl
        refine ⟨clause :: clauses, front ++ behind, ?_, by rw [split, List.append_assoc]⟩
        rw [List.flatMap_cons]
        exact List.rel_append fills fillsRest
      · cases reads
        exact ⟨[], [], .nil, rfl⟩

/-- Tokens that state a query stand in a phrase. -/
theorem query_stated {read : Query} (reads : query kinds = some read) :
    ∃ phrase : Phrase TokenKind, Fills phrase.items kinds := by
  obtain ⟨⟨found, rest⟩, states, complete'⟩ := Option.bind_eq_some_iff.mp reads
  rw [complete] at complete'
  split at complete'
  · next both =>
    obtain ⟨afterFrom, isFrom, states⟩ := Option.bind_eq_some_iff.mp states
    obtain ⟨⟨source, afterSource⟩, isSource, states⟩ := Option.bind_eq_some_iff.mp states
    obtain ⟨afterAt, isAt, states⟩ := Option.bind_eq_some_iff.mp states
    obtain ⟨afterValid, isValid, states⟩ := Option.bind_eq_some_iff.mp states
    obtain ⟨⟨_, afterTime⟩, isTime, states⟩ := Option.bind_eq_some_iff.mp states
    obtain ⟨afterKnown, isKnown, states⟩ := Option.bind_eq_some_iff.mp states
    obtain ⟨⟨_, afterCursor⟩, isCursor, states⟩ := Option.bind_eq_some_iff.mp states
    obtain ⟨⟨_, _⟩, isClauses, states⟩ := Option.bind_eq_some_iff.mp states
    obtain ⟨_, -, same⟩ := Option.map_eq_some_iff.mp states
    cases same
    obtain ⟨clauses, front, fills, rfl⟩ := clauses_stated isClauses
    obtain ⟨from_, holdsFrom, rfl⟩ := keyword_fills isFrom
    obtain ⟨family, name, rfl⟩ := source_fills isSource
    obtain ⟨at_, holdsAt, rfl⟩ := keyword_fills isAt
    obtain ⟨valid, holdsValid, rfl⟩ := keyword_fills isValid
    obtain ⟨validAt, rfl⟩ := first_cons isTime
    obtain ⟨known, holdsKnown, rfl⟩ := keyword_fills isKnown
    obtain ⟨knownAt, rfl⟩ := first_cons isCursor
    cases both.1
    rw [List.append_nil]
    have tail : Fills (⟨family, name, validAt, knownAt, clauses⟩ : Phrase TokenKind).tailItems
        (at_ :: valid :: validAt :: known :: knownAt :: front) :=
      .cons holdsAt (.cons holdsValid (.cons rfl (.cons holdsKnown (.cons rfl fills))))
    refine ⟨⟨family, name, validAt, knownAt, clauses⟩, .cons holdsFrom (.cons rfl ?_)⟩
    cases name with
    | none => exact tail
    | some name => exact .cons rfl (.cons rfl tail)
  · cases complete'

end Reading

/-! ## Phrases of a text -/

/-- A text reads as the phrase: its tokens stand in the places of the phrase, whatever the
whitespace between them and the case of the keywords. -/
def Phrase.Spelled (phrase : Phrase TokenKind) (text : String) : Prop :=
  ∃ lexemes kinds, Spells lexemes text.toList ∧ lexemes.mapM Lexeme.kind = some kinds ∧
    Fills phrase.items kinds

theorem Phrase.Spelled.parse {phrase : Phrase TokenKind} {text : String} (spelled : phrase.Spelled text) :
    (parse text).toOption = Reading.phrase phrase := by
  obtain ⟨lexemes, kinds, spells, known, fills⟩ := spelled
  rw [spells.parse, known, Option.bind_some, query_fills fills]

/-- A text that states a query is a phrase. -/
theorem parse_spelled {text : String} {query : Query} (parsed : (parse text).toOption = some query) :
    ∃ phrase : Phrase TokenKind, phrase.Spelled text := by
  obtain ⟨lexemes, spells⟩ := exists_spells text.toList
  rw [spells.parse] at parsed
  obtain ⟨kinds, known, reads⟩ := Option.bind_eq_some_iff.mp parsed
  obtain ⟨phrase, fills⟩ := Reading.query_stated reads
  exact ⟨phrase, lexemes, kinds, spells, known, fills⟩

theorem Phrase.spelled_iff {phrase : Phrase TokenKind} {text : String} :
    phrase.Spelled text ↔
      ∃ kinds, (tokenize text).toOption.map (·.map (·.kind)) = some kinds ∧ Fills phrase.items kinds := by
  constructor
  · intro ⟨lexemes, kinds, spells, known, fills⟩
    exact ⟨kinds, (spells.tokens 0).trans known, fills⟩
  · intro ⟨kinds, known, fills⟩
    obtain ⟨lexemes, spells⟩ := exists_spells text.toList
    exact ⟨lexemes, kinds, spells, (spells.tokens 0).symm.trans known, fills⟩

/-! ## Rearranged phrases -/

/-- The same token, up to the case of a keyword among `words`. -/
def Recased (words : List String) (kind kind' : TokenKind) : Prop :=
  kind = kind' ∨ ∃ expected ∈ words, kind.isKeyword expected ∧ kind'.isKeyword expected

/-- The same clause, up to the case of the keywords among its values. -/
inductive ClauseText.Same : ClauseText TokenKind → ClauseText TokenKind → Prop where
  | filters {first first' : String × TokenKind} {rest rest' : List (String × TokenKind)}
      (each : List.Forall₂ (fun filter filter' => filter.1 = filter'.1 ∧
        Recased ["true", "false", "null"] filter.2 filter'.2) (first :: rest) (first' :: rest')) :
      Same (.filters first rest) (.filters first' rest')
  | refl (clause : ClauseText TokenKind) : Same clause clause

/-- The same phrase, up to the case of its keywords and the order of its clauses. -/
structure Phrase.Rearranged (phrase phrase' : Phrase TokenKind) : Prop where
  family : Recased ["record", "relation", "event", "claim"] phrase.family phrase'.family
  name : phrase.name = phrase'.name
  validAt : phrase.validAt = phrase'.validAt
  knownAt : Recased ["HEAD"] phrase.knownAt phrase'.knownAt
  clauses : ∃ recased, List.Forall₂ ClauseText.Same phrase.clauses recased ∧
    recased.Perm phrase'.clauses

theorem isKeyword_iff {kind : TokenKind} {expected : String} :
    kind.isKeyword expected = true ↔ ∃ value, kind = .word value ∧ asciiLower value = asciiLower expected := by
  cases kind with
  | word value => simp [isKeyword_word]
  | _ => simp [TokenKind.isKeyword]

theorem sourceText_recased {words : List String} {family family' : TokenKind} (name : Option TokenKind)
    (recased : Recased words family family') :
    Reading.sourceText family name = Reading.sourceText family' name := by
  rcases recased with rfl | ⟨expected, -, isExpected, isExpected'⟩
  · rfl
  · obtain ⟨value, rfl, lower⟩ := isKeyword_iff.mp isExpected
    obtain ⟨value', rfl, lower'⟩ := isKeyword_iff.mp isExpected'
    have same := lower.trans lower'.symm
    cases name with
    | none => rw [Reading.sourceText, Reading.sourceText, same]
    | some name =>
      cases name with
      | word name => rw [Reading.sourceText, Reading.sourceText, same]
      | _ => rfl

theorem cursorExpr_recased {kind kind' : TokenKind} (recased : Recased ["HEAD"] kind kind') :
    Reading.cursorExpr kind = Reading.cursorExpr kind' := by
  rcases recased with rfl | ⟨expected, isHead, isExpected, isExpected'⟩
  · rfl
  · cases List.mem_singleton.mp isHead
    obtain ⟨value, rfl, lower⟩ := isKeyword_iff.mp isExpected
    obtain ⟨value', rfl, lower'⟩ := isKeyword_iff.mp isExpected'
    rw [Reading.cursorExpr, Reading.cursorExpr, if_pos lower, if_pos lower']

theorem valueExpr_keyword {value : String} (plain : (asciiLower value).toList.head? ≠ some '$') :
    Reading.valueExpr (.word value) =
      if asciiLower value = "true" then some (.literal (.bool true))
      else if asciiLower value = "false" then some (.literal (.bool false))
      else if asciiLower value = "null" then some (.literal .null)
      else none := by
  have notParameter : value.toList.head? ≠ some '$' := by
    intro head
    apply plain
    rw [asciiLower, String.toList_ofList, List.head?_map, head]
    rfl
  rw [Reading.valueExpr, if_neg notParameter]

theorem valueExpr_recased {kind kind' : TokenKind} (recased : Recased ["true", "false", "null"] kind kind') :
    Reading.valueExpr kind = Reading.valueExpr kind' := by
  rcases recased with rfl | ⟨expected, member, isExpected, isExpected'⟩
  · rfl
  · obtain ⟨value, rfl, lower⟩ := isKeyword_iff.mp isExpected
    obtain ⟨value', rfl, lower'⟩ := isKeyword_iff.mp isExpected'
    have plain : ∀ expected ∈ ["true", "false", "null"], (asciiLower expected).toList.head? ≠ some '$' := by
      decide
    rw [valueExpr_keyword (by rw [lower]; exact plain expected member),
      valueExpr_keyword (by rw [lower']; exact plain expected member), lower, lower']

theorem mapM_forall₂ {α β : Type} {f : α → Option β} {as bs : List α}
    (each : List.Forall₂ (fun a b => f a = f b) as bs) : as.mapM f = bs.mapM f := by
  induction each with
  | nil => rfl
  | cons one _ ih => rw [List.mapM_cons, List.mapM_cons, one, ih]

theorem clauseText_same {clause clause' : ClauseText TokenKind} (same : clause.Same clause') :
    Reading.clauseText clause = Reading.clauseText clause' := by
  cases same with
  | refl => rfl
  | filters each =>
    have read := each.imp fun filter filter' both =>
      show Reading.filter filter = Reading.filter filter' by
        rw [Reading.filter, Reading.filter, both.1, valueExpr_recased both.2]
    rw [Reading.clauseText, Reading.clauseText, mapM_forall₂ read]

/-- Clauses set different parts of the query, or both fail for being of one kind. -/
theorem Clause.apply_comm (a b : Clause) (state : Parser.Seen × Query) :
    (a.apply state).bind b.apply = (b.apply state).bind a.apply := by
  obtain ⟨⟨where_, project, limit, explain⟩, query⟩ := state
  cases a <;> cases b
  all_goals simp only [apply, isSeen, mark, set]
  all_goals cases where_ <;> cases project <;> cases limit <;> cases explain <;> rfl

/-- The clauses of a phrase make the same query in any order. -/
theorem clauses_perm {clauses clauses' : List (ClauseText TokenKind)} (perm : clauses.Perm clauses')
    (state : Parser.Seen × Query) :
    (clauses.mapM Reading.clauseText).bind (fun clauses => clauses.foldlM Clause.apply state) =
      (clauses'.mapM Reading.clauseText).bind fun clauses => clauses.foldlM Clause.apply state := by
  have split : ∀ (first : ClauseText TokenKind) (rest : List (ClauseText TokenKind)) (state : Parser.Seen × Query),
      ((first :: rest).mapM Reading.clauseText).bind (fun clauses => clauses.foldlM Clause.apply state) =
        ((Reading.clauseText first).bind fun clause => clause.apply state).bind fun state =>
          (rest.mapM Reading.clauseText).bind fun clauses => clauses.foldlM Clause.apply state := by
    intro first rest state
    rw [List.mapM_cons]
    cases Reading.clauseText first with
    | none => rfl
    | some clause =>
      cases rest.mapM Reading.clauseText with
      | none => cases applied : clause.apply state <;> simp [applied]
      | some clauses => simp
  induction perm generalizing state with
  | nil => rfl
  | cons first _ ih =>
    rw [split, split]
    exact congrArg _ (funext ih)
  | swap second first rest =>
    rw [split, split]
    simp only [split]
    cases Reading.clauseText first with
    | none => cases Reading.clauseText second with
      | none => rfl
      | some b => cases applied : b.apply state <;> simp [applied]
    | some a => cases Reading.clauseText second with
      | none => cases applied : a.apply state <;> simp [applied]
      | some b =>
        simp only [Option.bind_some, ← Option.bind_assoc]
        rw [Clause.apply_comm]
  | trans _ _ first second => exact (first state).trans (second state)

theorem phrase_rearranged {phrase phrase' : Phrase TokenKind} (rearranged : phrase.Rearranged phrase') :
    Reading.phrase phrase = Reading.phrase phrase' := by
  obtain ⟨recased, same, perm⟩ := rearranged.clauses
  have clauses := mapM_forall₂ (same.imp fun _ _ one => clauseText_same one)
  unfold Reading.phrase
  rw [sourceText_recased _ rearranged.family, rearranged.name, rearranged.validAt,
    cursorExpr_recased rearranged.knownAt, clauses]
  congr 1
  funext source
  congr 1
  funext validAt
  congr 1
  funext knownAt
  have fold := clauses_perm perm ((⟨false, false, false, false⟩ : Parser.Seen), Query.new source ⟨validAt, knownAt⟩)
  have after := congrArg (fun run => run.bind fun state =>
    if state.2.validate = .ok () then some state.2 else none) fold
  rw [Option.bind_assoc, Option.bind_assoc] at after
  exact after

/-- Texts that differ only in the order of their clauses, the whitespace between their tokens and
the case of their keywords. Texts with the tokens of no phrase have no keywords and no clauses;
they differ in whatever they differ in. -/
inductive DifferInLayout : String → String → Prop where
  | spaces {text text' : String} (lexemes : List Lexeme) (spells : Spells lexemes text.toList)
      (spells' : Spells lexemes text'.toList) : DifferInLayout text text'
  | phrases {text text' : String} (phrase phrase' : Phrase TokenKind) (spelled : phrase.Spelled text)
      (spelled' : phrase'.Spelled text') (rearranged : phrase.Rearranged phrase') : DifferInLayout text text'
  | neither {text text' : String} (not : ∀ phrase : Phrase TokenKind, ¬ phrase.Spelled text)
      (not' : ∀ phrase : Phrase TokenKind, ¬ phrase.Spelled text') : DifferInLayout text text'

theorem parse_not_spelled {text : String} (not : ∀ phrase : Phrase TokenKind, ¬ phrase.Spelled text) :
    (parse text).toOption = none := by
  cases parsed : (parse text).toOption with
  | none => rfl
  | some query =>
    obtain ⟨phrase, spelled⟩ := parse_spelled parsed
    exact absurd spelled (not phrase)

/-- A text that states a query has a canonical text that states the same, and the layout of a text
does not count. -/
theorem parse_layout :
    (∀ (text : String) (query : Query), parse text = .ok query → parse query.canonical = .ok query) ∧
      ∀ text text' : String, DifferInLayout text text' → (parse text).toOption = (parse text').toOption := by
  constructor
  · intro text query parsed
    obtain ⟨valid, textual⟩ := parse_textual parsed
    exact Query.parse_canonical valid textual
  · intro text text' differ
    cases differ with
    | spaces lexemes spells spells' => rw [spells.parse, spells'.parse]
    | phrases phrase phrase' spelled spelled' rearranged =>
      rw [spelled.parse, spelled'.parse, phrase_rearranged rearranged]
    | neither not not' => rw [parse_not_spelled not, parse_not_spelled not']

/-- A query, with its clauses in one order. -/
def statusPhrase : Phrase TokenKind :=
  { family := .word "claim", name := some (.word "status"), validAt := .number 7, knownAt := .word "HEAD"
    clauses := [.filters ("ok", .word "true") [], .limit (.number 1), .explain] }

/-- The same query, with its clauses in another order and its keywords in another case. -/
def statusPhrase' : Phrase TokenKind :=
  { family := .word "Claim", name := some (.word "status"), validAt := .number 7, knownAt := .word "head"
    clauses := [.explain, .limit (.number 1), .filters ("ok", .word "TRUE") []] }

theorem statusPhrase_rearranged : statusPhrase.Rearranged statusPhrase' where
  family := .inr ⟨"claim", by decide, rfl, rfl⟩
  name := rfl
  validAt := rfl
  knownAt := .inr ⟨"HEAD", by decide, rfl, rfl⟩
  clauses := by
    refine ⟨[.filters ("ok", .word "TRUE") [], .limit (.number 1), .explain], ?_, List.reverse_perm statusPhrase'.clauses⟩
    have value : Recased ["true", "false", "null"] (.word "true") (.word "TRUE") :=
      .inr ⟨"true", by decide, rfl, rfl⟩
    exact .cons (.filters (.cons ⟨rfl, value⟩ .nil)) (.cons (.refl _) (.cons (.refl _) .nil))

theorem statusPhrase_spelled :
    statusPhrase.Spelled "FROM claim:status AT VALID 7 KNOWN HEAD WHERE ok = true LIMIT 1 EXPLAIN CONTRACT" ∧
      statusPhrase'.Spelled "from Claim : status at valid 7\nknown head explain contract limit 1 where ok=TRUE" := by
  constructor
  · refine Phrase.spelled_iff.mpr ⟨[.word "FROM", .word "claim", .colon, .word "status", .word "AT", .word "VALID",
      .number 7, .word "KNOWN", .word "HEAD", .word "WHERE", .word "ok", .equals, .word "true", .word "LIMIT",
      .number 1, .word "EXPLAIN", .word "CONTRACT"], by decide +kernel, by decide⟩
  · refine Phrase.spelled_iff.mpr ⟨[.word "from", .word "Claim", .colon, .word "status", .word "at", .word "valid",
      .number 7, .word "known", .word "head", .word "explain", .word "contract", .word "limit", .number 1,
      .word "where", .word "ok", .equals, .word "TRUE"], by decide +kernel, by decide⟩

theorem parse_layout_status :
    (parse "FROM claim:status AT VALID 7 KNOWN HEAD WHERE ok = true LIMIT 1 EXPLAIN CONTRACT").toOption =
      (parse "from Claim : status at valid 7\nknown head explain contract limit 1 where ok=TRUE").toOption :=
  parse_layout.2 _ _ (.phrases statusPhrase statusPhrase' statusPhrase_spelled.1 statusPhrase_spelled.2
    statusPhrase_rearranged)

end Vyrm.Ql
