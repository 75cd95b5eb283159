import Vyrm.Ql.Lexeme

/-!
# Phrases

A query text by its parts: what stands in each place of the grammar, with the keywords in
any case and the clauses in the order they are written.
-/

namespace Vyrm.Ql
open Lib Vyrm.Core

/-- A clause as written; `α` is what stands where the grammar leaves a choice. -/
inductive ClauseText (α : Type) where
  | filters (first : String × α) (rest : List (String × α))
  | projection (fields : Option (String × List String))
  | limit (value : α)
  | explain

/-- A query as written. -/
structure Phrase (α : Type) where
  family : α
  name : Option α
  validAt : α
  knownAt : α
  clauses : List (ClauseText α)

/-- One place of a phrase. -/
inductive Item (α : Type) where
  | keyword (expected : String)
  | word (value : String)
  | mark (c : Char)
  | slot (value : α)

section

variable {α β : Type}

def filterItems (filter : String × α) : List (Item α) :=
  [.word filter.1, .mark '=', .slot filter.2]

def ClauseText.items : ClauseText α → List (Item α)
  | .filters first rest =>
    .keyword "WHERE" :: filterItems first ++
      rest.flatMap fun filter => .keyword "AND" :: filterItems filter
  | .projection none => [.keyword "PROJECT", .mark '*']
  | .projection (some (first, rest)) =>
    .keyword "PROJECT" :: .word first :: rest.flatMap fun field => [.mark ',', .word field]
  | .limit value => [.keyword "LIMIT", .slot value]
  | .explain => [.keyword "EXPLAIN", .keyword "CONTRACT"]

/-- The places from `AT` on. -/
def Phrase.tailItems (phrase : Phrase α) : List (Item α) :=
  .keyword "AT" :: .keyword "VALID" :: .slot phrase.validAt :: .keyword "KNOWN" ::
    .slot phrase.knownAt :: phrase.clauses.flatMap ClauseText.items

/-- The places of a phrase, in order. -/
def Phrase.items (phrase : Phrase α) : List (Item α) :=
  .keyword "FROM" :: .slot phrase.family ::
    (match phrase.name with
      | some name => .mark ':' :: .slot name :: phrase.tailItems
      | none => phrase.tailItems)

def ClauseText.map (f : α → β) : ClauseText α → ClauseText β
  | .filters first rest => .filters (first.map id f) (rest.map (Prod.map id f))
  | .projection fields => .projection fields
  | .limit value => .limit (f value)
  | .explain => .explain

def Phrase.map (f : α → β) (phrase : Phrase α) : Phrase β :=
  { family := f phrase.family, name := phrase.name.map f, validAt := f phrase.validAt,
    knownAt := f phrase.knownAt, clauses := phrase.clauses.map (ClauseText.map f) }

def Item.map (f : α → β) : Item α → Item β
  | .keyword expected => .keyword expected
  | .word value => .word value
  | .mark c => .mark c
  | .slot value => .slot (f value)

theorem ClauseText.items_map (f : α → β) (clause : ClauseText α) :
    (clause.map f).items = clause.items.map (Item.map f) := by
  cases clause with
  | filters first rest =>
    simp [ClauseText.map, ClauseText.items, filterItems, Item.map, List.flatMap_map, List.map_flatMap]
  | projection fields =>
    cases fields <;> simp [ClauseText.map, ClauseText.items, Item.map, List.map_flatMap]
  | limit value => rfl
  | explain => rfl

theorem Phrase.items_map (f : α → β) (phrase : Phrase α) :
    (phrase.map f).items = phrase.items.map (Item.map f) := by
  cases phrase with
  | mk family name validAt knownAt clauses =>
    cases name <;>
      simp [Phrase.map, Phrase.items, Phrase.tailItems, Item.map, List.flatMap_map, List.map_flatMap,
        ClauseText.items_map]

end

/-! ## What a phrase says -/

/-- Whether a token stands in a place. -/
def Item.Holds : Item TokenKind → TokenKind → Prop
  | .keyword expected, kind => kind.isKeyword expected
  | .word value, kind => kind = .word value
  | .mark c, kind => (Lexeme.mark c).kind = some kind
  | .slot value, kind => kind = value

instance (item : Item TokenKind) (kind : TokenKind) : Decidable (item.Holds kind) :=
  match item with
  | .keyword expected => inferInstanceAs (Decidable (kind.isKeyword expected = true))
  | .word value => inferInstanceAs (Decidable (kind = .word value))
  | .mark c => inferInstanceAs (Decidable ((Lexeme.mark c).kind = some kind))
  | .slot value => inferInstanceAs (Decidable (kind = value))

namespace Reading

def filter (filter : String × TokenKind) : Option Filter :=
  if isField filter.1 then (valueExpr filter.2).map fun value => ⟨filter.1, value⟩ else none

def clauseText : ClauseText TokenKind → Option Clause
  | .filters first rest => ((first :: rest).mapM filter).map .filters
  | .projection none => some (.projection .all)
  | .projection (some (first, rest)) =>
    if (first :: rest).all isField then some (.projection (.fields (first :: rest))) else none
  | .limit (.number value) => some (.limit value)
  | .limit _ => none
  | .explain => some .explain

def sourceText : TokenKind → Option TokenKind → Option Source
  | .word family, none => if asciiLower family = "claim" then some (.claim none) else none
  | .word family, some (.word name) => named (asciiLower family) name
  | _, _ => none

/-- The query that a phrase states. -/
def phrase (phrase : Phrase TokenKind) : Option Query := do
  let source ← sourceText phrase.family phrase.name
  let validAt ← timeExpr phrase.validAt
  let knownAt ← cursorExpr phrase.knownAt
  let clauses ← phrase.clauses.mapM clauseText
  let state ← clauses.foldlM Clause.apply
    ((⟨false, false, false, false⟩ : Parser.Seen), Query.new source ⟨validAt, knownAt⟩)
  if state.2.validate = .ok () then some state.2 else none

end Reading

/-- The tokens that stand in the places of `items`. -/
abbrev Fills (items : List (Item TokenKind)) (kinds : Kinds) : Prop := List.Forall₂ Item.Holds items kinds

/-- No clause goes on here: the tokens end, or the next clause starts. -/
def Stops (kinds : Kinds) : Prop := ∀ kind ∈ kinds.head?, Reading.startsClause kind

theorem isKeyword_word {expected value : String} :
    (TokenKind.word value).isKeyword expected = true ↔ asciiLower value = asciiLower expected := by
  simp [TokenKind.isKeyword]

theorem startsClause_iff {kind : TokenKind} :
    Reading.startsClause kind = true ↔
      ∃ expected ∈ ["WHERE", "PROJECT", "LIMIT", "EXPLAIN"], kind.isKeyword expected := by
  simp [Reading.startsClause, or_assoc]

theorem isKeyword_unique {kind : TokenKind} {a b : String} (first : kind.isKeyword a)
    (second : kind.isKeyword b) : asciiLower a = asciiLower b := by
  cases kind with
  | word value =>
    rw [isKeyword_word] at first second
    rw [← first, second]
  | _ => cases first

theorem startsClause_not_and {kind : TokenKind} (starts : Reading.startsClause kind) :
    kind.isKeyword "AND" = false := by
  obtain ⟨expected, member, isExpected⟩ := startsClause_iff.mp starts
  by_contra isAnd
  have same := isKeyword_unique isExpected (by simpa using isAnd)
  have different : ∀ expected ∈ ["WHERE", "PROJECT", "LIMIT", "EXPLAIN"],
      asciiLower expected ≠ asciiLower "AND" := by decide
  exact different expected member same

theorem startsClause_word {kind : TokenKind} (starts : Reading.startsClause kind) :
    ∃ value, kind = .word value := by
  cases kind with
  | word value => exact ⟨value, rfl⟩
  | _ => cases starts

theorem fills_cons {item : Item TokenKind} {items : List (Item TokenKind)} {kinds : Kinds} :
    Fills (item :: items) kinds ↔ ∃ kind rest, item.Holds kind ∧ Fills items rest ∧ kinds = kind :: rest :=
  List.forall₂_cons_left_iff

theorem fills_append {front back : List (Item TokenKind)} {kinds : Kinds} (fills : Fills (front ++ back) kinds) :
    ∃ frontKinds backKinds, Fills front frontKinds ∧ Fills back backKinds ∧
      kinds = frontKinds ++ backKinds := by
  induction front generalizing kinds with
  | nil => exact ⟨[], kinds, .nil, fills, rfl⟩
  | cons item front ih =>
    obtain ⟨kind, rest, holds, more, rfl⟩ := fills_cons.mp fills
    obtain ⟨frontKinds, backKinds, front', back', rfl⟩ := ih more
    exact ⟨kind :: frontKinds, backKinds, .cons holds front', back', rfl⟩

theorem fills_filterItems {filter : String × TokenKind} {rest : List (Item TokenKind)} {kinds : Kinds}
    (fills : Fills (filterItems filter ++ rest) kinds) :
    ∃ later, Fills rest later ∧ kinds = .word filter.1 :: .equals :: filter.2 :: later := by
  obtain ⟨_, _, rfl, afterField, rfl⟩ := fills_cons.mp fills
  obtain ⟨_, _, isEquals, afterEquals, rfl⟩ := fills_cons.mp afterField
  obtain ⟨_, _, rfl, later, rfl⟩ := fills_cons.mp afterEquals
  cases isEquals
  exact ⟨_, later, rfl⟩

theorem filters_fills {first : String × TokenKind} {rest : List (String × TokenKind)} {kinds later : Kinds}
    (fills : Fills (filterItems first ++ rest.flatMap fun filter => .keyword "AND" :: filterItems filter) kinds)
    (stops : Stops later) :
    Reading.filters (kinds ++ later) =
      ((first :: rest).mapM Reading.filter).map fun filters => (filters, later) := by
  induction rest generalizing first kinds with
  | nil =>
    obtain ⟨_, none, rfl⟩ := fills_filterItems fills
    cases none
    rw [List.mapM_cons, List.mapM_nil, Reading.filter, List.cons_append, List.cons_append, List.cons_append,
      List.nil_append, Reading.filters]
    by_cases valid : isField first.1
    · rw [if_pos valid, if_pos valid]
      cases Reading.valueExpr first.2 with
      | none => rfl
      | some value =>
        cases later with
        | nil => rfl
        | cons kind rest =>
          dsimp only
          rw [if_neg (by rw [startsClause_not_and (stops kind rfl)]; decide)]
          rfl
    · rw [if_neg valid, if_neg valid]
      rfl
  | cons second rest ih =>
    obtain ⟨_, after, rfl⟩ := fills_filterItems fills
    rw [List.flatMap_cons] at after
    obtain ⟨kind, _, isAnd, filled, rfl⟩ := fills_cons.mp after
    have more := ih filled
    have goesOn : kind.isKeyword "AND" := isAnd
    rw [List.mapM_cons, Reading.filter, List.cons_append, List.cons_append, List.cons_append,
      List.cons_append, Reading.filters]
    by_cases valid : isField first.1
    · rw [if_pos valid, if_pos valid]
      cases Reading.valueExpr first.2 with
      | none => rfl
      | some value =>
        dsimp only
        rw [if_pos goesOn, more]
        cases (second :: rest).mapM Reading.filter <;> rfl
    · rw [if_neg valid, if_neg valid]
      rfl

theorem fields_fills {first : String} {rest : List String} {kinds later : Kinds}
    (fills : Fills (.word first :: rest.flatMap fun field => [.mark ',', .word field]) kinds)
    (stops : Stops later) :
    Reading.fields (kinds ++ later) =
      if (first :: rest).all isField then some (first :: rest, later) else none := by
  induction rest generalizing first kinds with
  | nil =>
    obtain ⟨_, _, rfl, none, rfl⟩ := fills_cons.mp fills
    cases none
    rw [List.singleton_append, Reading.fields.eq_def, List.all_cons, List.all_nil, Bool.and_true]
    cases later with
    | nil => rfl
    | cons kind rest =>
      obtain ⟨value, rfl⟩ := startsClause_word (stops kind rfl)
      rfl
  | cons second rest ih =>
    obtain ⟨_, _, rfl, after, rfl⟩ := fills_cons.mp fills
    rw [List.flatMap_cons] at after
    obtain ⟨_, _, isComma, filled, rfl⟩ := fills_cons.mp after
    cases isComma
    rw [List.cons_append, List.cons_append, Reading.fields, ih filled,
      show (first :: second :: rest).all isField = (isField first && (second :: rest).all isField) from rfl]
    by_cases valid : isField first
    · rw [if_pos valid, valid, Bool.true_and]
      split
      · rfl
      · rfl
    · rw [if_neg valid, Bool.not_eq_true _ |>.mp valid]
      rfl

theorem clause_fills {clause : ClauseText TokenKind} {kinds later : Kinds} (fills : Fills clause.items kinds)
    (stops : Stops later) :
    ∃ kind rest, kinds = kind :: rest ∧ Reading.startsClause kind ∧
      Reading.clause kind (rest ++ later) =
        (Reading.clauseText clause).map fun clause => (clause, later) := by
  have other : ∀ {kind : TokenKind} {a b : String}, kind.isKeyword a → asciiLower a ≠ asciiLower b →
      ¬ kind.isKeyword b := fun isA different isB => different (isKeyword_unique isA isB)
  cases clause with
  | filters first rest =>
    obtain ⟨kind, _, isWhere, filled, rfl⟩ := fills_cons.mp fills
    have isWhere : kind.isKeyword "WHERE" := isWhere
    refine ⟨kind, _, rfl, startsClause_iff.mpr ⟨_, by simp, isWhere⟩, ?_⟩
    rw [Reading.clause, if_pos isWhere, filters_fills filled stops, Reading.clauseText]
    cases (first :: rest).mapM Reading.filter <;> rfl
  | projection fields =>
    cases fields with
    | none =>
      obtain ⟨kind, _, isProject, filled, rfl⟩ := fills_cons.mp fills
      obtain ⟨_, _, isStar, none, rfl⟩ := fills_cons.mp filled
      have isProject : kind.isKeyword "PROJECT" := isProject
      cases none
      cases isStar
      refine ⟨kind, _, rfl, startsClause_iff.mpr ⟨_, by simp, isProject⟩, ?_⟩
      rw [Reading.clause, if_neg (other isProject (by decide)), if_pos isProject]
      rfl
    | some fields =>
      obtain ⟨first, rest⟩ := fields
      obtain ⟨kind, _, isProject, filled, rfl⟩ := fills_cons.mp fills
      have isProject : kind.isKeyword "PROJECT" := isProject
      refine ⟨kind, _, rfl, startsClause_iff.mpr ⟨_, by simp, isProject⟩, ?_⟩
      have read := fields_fills filled stops
      obtain ⟨_, _, rfl, -, rfl⟩ := fills_cons.mp filled
      rw [Reading.clause, if_neg (other isProject (by decide)), if_pos isProject]
      rw [List.cons_append] at read ⊢
      rw [Reading.projection, read, Reading.clauseText]
      split
      · rfl
      · rfl
      · exact fun _ isStar => by cases isStar
  | limit value =>
    obtain ⟨kind, _, isLimit, filled, rfl⟩ := fills_cons.mp fills
    obtain ⟨number, _, rfl, none, rfl⟩ := fills_cons.mp filled
    have isLimit : kind.isKeyword "LIMIT" := isLimit
    cases none
    refine ⟨kind, _, rfl, startsClause_iff.mpr ⟨_, by simp, isLimit⟩, ?_⟩
    rw [Reading.clause, if_neg (other isLimit (by decide)), if_neg (other isLimit (by decide)), if_pos isLimit]
    cases number <;> rfl
  | explain =>
    obtain ⟨kind, _, isExplain, filled, rfl⟩ := fills_cons.mp fills
    obtain ⟨contract, _, isContract, none, rfl⟩ := fills_cons.mp filled
    have isExplain : kind.isKeyword "EXPLAIN" := isExplain
    have isContract : contract.isKeyword "CONTRACT" := isContract
    cases none
    refine ⟨kind, _, rfl, startsClause_iff.mpr ⟨_, by simp, isExplain⟩, ?_⟩
    rw [Reading.clause, if_neg (other isExplain (by decide)), if_neg (other isExplain (by decide)),
      if_neg (other isExplain (by decide)), if_pos isExplain, List.singleton_append, Reading.keyword,
      if_pos isContract]
    rfl

theorem clauses_fills {clauses : List (ClauseText TokenKind)} {kinds : Kinds}
    (fills : Fills (clauses.flatMap ClauseText.items) kinds) :
    Stops kinds ∧
      Reading.clauses kinds = (clauses.mapM Reading.clauseText).map fun clauses => (clauses, []) := by
  induction clauses generalizing kinds with
  | nil =>
    cases fills
    refine ⟨?_, Reading.clauses_nil⟩
    intro kind head
    cases head
  | cons first clauses ih =>
    rw [List.flatMap_cons] at fills
    obtain ⟨front, later, filled, more, rfl⟩ := fills_append fills
    obtain ⟨stops, rest⟩ := ih more
    obtain ⟨kind, front, rfl, starts, read⟩ := clause_fills filled stops
    refine ⟨?_, ?_⟩
    · intro other head
      cases head
      exact starts
    · rw [List.cons_append, Reading.clauses_cons, if_pos starts, read, List.mapM_cons]
      cases Reading.clauseText first with
      | none => rfl
      | some clause =>
        rw [Option.map_some, Option.bind_some]
        dsimp only
        rw [rest]
        cases clauses.mapM Reading.clauseText <;> rfl

/-- What follows the source. -/
theorem tail_fills {phrase : Phrase TokenKind} {kinds : Kinds} (source : Source)
    (fills : Fills phrase.tailItems kinds) :
    (Reading.tail source kinds).bind Reading.complete = (do
      let validAt ← Reading.timeExpr phrase.validAt
      let knownAt ← Reading.cursorExpr phrase.knownAt
      let clauses ← phrase.clauses.mapM Reading.clauseText
      let state ← clauses.foldlM Clause.apply
        ((⟨false, false, false, false⟩ : Parser.Seen), Query.new source ⟨validAt, knownAt⟩)
      if state.2.validate = .ok () then some state.2 else none) := by
  obtain ⟨isAt, _, at_, afterAt, rfl⟩ := fills_cons.mp fills
  obtain ⟨valid, _, isValid, afterValid, rfl⟩ := fills_cons.mp afterAt
  obtain ⟨validAt, _, sameValid, afterTime, rfl⟩ := fills_cons.mp afterValid
  obtain ⟨known, _, isKnown, afterKnown, rfl⟩ := fills_cons.mp afterTime
  obtain ⟨knownAt, kinds, sameKnown, more, rfl⟩ := fills_cons.mp afterKnown
  have at_ : isAt.isKeyword "AT" := at_
  have isValid : valid.isKeyword "VALID" := isValid
  have isKnown : known.isKeyword "KNOWN" := isKnown
  cases sameValid
  cases sameKnown
  have clauses := (clauses_fills more).2
  simp only [Reading.tail, Reading.keyword, if_pos at_, if_pos isValid, Reading.first,
    Option.bind_eq_bind, Option.bind_some]
  cases Reading.timeExpr phrase.validAt with
  | none => rfl
  | some validAt =>
    simp only [Option.map_some, Option.bind_some, if_pos isKnown]
    cases Reading.cursorExpr phrase.knownAt with
    | none => rfl
    | some knownAt =>
      simp only [Option.map_some, Option.bind_some, Reading.finish, clauses]
      cases phrase.clauses.mapM Reading.clauseText with
      | none => rfl
      | some clauses =>
        simp only [Option.map_some, Option.bind_some]
        cases clauses.foldlM Clause.apply
          ((⟨false, false, false, false⟩ : Parser.Seen), Query.new source ⟨validAt, knownAt⟩) with
        | none => rfl
        | some state => simp [Reading.complete]

/-- The tokens that stand in a phrase state what it says. -/
theorem query_fills {phrase : Phrase TokenKind} {kinds : Kinds} (fills : Fills phrase.items kinds) :
    Reading.query kinds = Reading.phrase phrase := by
  obtain ⟨from_, _, isFrom, afterFrom, rfl⟩ := fills_cons.mp fills
  obtain ⟨family, _, sameFamily, more, rfl⟩ := fills_cons.mp afterFrom
  have isFrom : from_.isKeyword "FROM" := isFrom
  cases sameFamily
  rw [Reading.query, Reading.statement, Reading.keyword, if_pos isFrom, Option.bind_eq_bind,
    Option.bind_some, Option.bind_eq_bind, Option.bind_assoc, Reading.phrase]
  cases name : phrase.name with
  | none =>
    rw [name] at more
    have tail := fun source => tail_fills source more
    obtain ⟨isAt, _, at_, -, rfl⟩ := fills_cons.mp more
    have notColon : isAt ≠ .colon := by
      intro colon
      rw [colon] at at_
      cases at_
    cases phrase.family with
    | word family =>
      rw [Reading.source, Reading.sourceText]
      · by_cases isClaim : asciiLower family = "claim"
        · rw [if_pos ⟨isClaim, fun head => notColon (Option.some.inj head)⟩, if_pos isClaim]
          exact tail _
        · rw [if_neg fun both => isClaim both.1, if_neg isClaim]
          rfl
      · intro _ _ same
        cases same
        exact notColon rfl
    | _ => rfl
  | some name' =>
    rw [name] at more
    obtain ⟨_, _, isColon, afterColon, rfl⟩ := fills_cons.mp more
    obtain ⟨named, rest, same, more', rfl⟩ := fills_cons.mp afterColon
    cases isColon
    cases same
    have tail := fun source => tail_fills source more'
    cases phrase.family with
    | word family =>
      have colon : ¬ (asciiLower family = "claim" ∧
          (TokenKind.colon :: name' :: rest).head? ≠ some .colon) := fun both => both.2 rfl
      cases name' with
      | word value =>
        rw [Reading.source, if_neg colon, Reading.sourceText]
        cases Reading.named (asciiLower family) value with
        | none => rfl
        | some source => exact tail source
      | _ =>
        rw [Reading.source, if_neg colon]
        · rfl
        · intro _ _ same
          cases same
    | _ => rfl

end Vyrm.Ql
