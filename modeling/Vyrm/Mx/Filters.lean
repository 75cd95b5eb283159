import Vyrm.Mx.Bind
import Vyrm.Mx.Repeat

/-!
# Filters on properties

`bind` types a field by the property that the schema declares, over a built-in column of the same
name; the executor builds a row with the built-in columns over the properties. A filter on a
property shows the objects whose property equals the value exactly when no object tells the two
apart.
-/

namespace Vyrm.Mx
open Lib Vyrm.Core Vyrm.Ql

/-! ## Objects -/

/-- An object of a source: the identity of its row, its properties, and the built-in columns that its
row is made with. -/
structure SourceObject where
  identity : String
  properties : RuntimeProperties
  columns : RuntimeProperties
  deriving DecidableEq

namespace SourceObject

def row (object : SourceObject) : QueryRow :=
  { identity := object.identity, values := insertValues object.properties object.columns }

/-- Whether a property of the object equals a value. -/
def has (name : String) (value : RuntimeValue) (object : SourceObject) : Bool :=
  object.properties.lookup name = some value

def ofRecord (record : RuntimeRecord) : SourceObject :=
  { identity := (recordRow record).identity
    properties := record.properties
    columns :=
      [("id", .string record.reference.id.asStr), ("kind", .string record.reference.kind.asStr),
       ("valid_from", .unsigned record.validFrom), ("valid_to", optionalU64 record.validTo)] }

def ofRelation (relation : RuntimeRelation) : SourceObject :=
  { identity := (relationRow relation).identity
    properties := relation.properties
    columns :=
      [("id", .string relation.reference.id.asStr), ("kind", .string relation.reference.kind.asStr),
       ("from_kind", .string relation.from_.kind.asStr), ("from_id", .string relation.from_.id.asStr),
       ("to_kind", .string relation.to_.kind.asStr), ("to_id", .string relation.to_.id.asStr),
       ("valid_from", .unsigned relation.validFrom), ("valid_to", optionalU64 relation.validTo)] }

def ofEvent (change : RuntimeChange) (event : RuntimeEvent) : SourceObject :=
  { identity := (eventRow change event).identity
    properties := event.properties
    columns :=
      [("cursor", .unsigned change.cursor), ("kind", .string event.kind.asStr), ("at", .unsigned change.at_),
       ("actor", .string change.actor),
       ("subject_kind", match event.subject with
         | some subject => .string subject.kind.asStr
         | none => .null),
       ("subject_id", match event.subject with
         | some subject => .string subject.id.asStr
         | none => .null)] }

@[simp] theorem row_ofRecord (record : RuntimeRecord) : (ofRecord record).row = recordRow record := rfl

@[simp] theorem row_ofRelation (relation : RuntimeRelation) : (ofRelation relation).row = relationRow relation := rfl

@[simp] theorem row_ofEvent (change : RuntimeChange) (event : RuntimeEvent) :
    (ofEvent change event).row = eventRow change event := rfl

/-- No object has two columns of one name. -/
def Distinct (object : SourceObject) : Prop := (object.columns.map Prod.fst).Nodup

theorem distinct_ofRecord (record : RuntimeRecord) : (ofRecord record).Distinct := by
  show ["id", "kind", "valid_from", "valid_to"].Nodup
  decide

theorem distinct_ofRelation (relation : RuntimeRelation) : (ofRelation relation).Distinct := by
  show ["id", "kind", "from_kind", "from_id", "to_kind", "to_id", "valid_from", "valid_to"].Nodup
  decide

theorem distinct_ofEvent (change : RuntimeChange) (event : RuntimeEvent) : (ofEvent change event).Distinct := by
  show ["cursor", "kind", "at", "actor", "subject_kind", "subject_id"].Nodup
  decide

end SourceObject

/-- The objects of a source that are visible at a valid time and a cursor: the records and relations of
the graph there, and the events that have happened. -/
def visibleObjects (changes : List RuntimeChange) (scope : ScopeId) (source : Source)
    (validAt knownAtCursor : UInt64) : List SourceObject :=
  match source with
  | .record kind =>
    ((RuntimeGraphSnapshot.fromChanges changes scope validAt knownAtCursor).records.filter
      fun record => record.reference.kind = kind).map .ofRecord
  | .relation kind =>
    ((RuntimeGraphSnapshot.fromChanges changes scope validAt knownAtCursor).relations.filter
      fun relation => relation.reference.kind = kind).map .ofRelation
  | .event kind =>
    (changes.filter fun change =>
      change.cursor ≤ knownAtCursor && change.scope = scope && change.at_ ≤ validAt).filterMap fun change =>
        match change.mutation with
        | .event event => if event.kind = kind then some (.ofEvent change event) else none
        | _ => none
  | .claim _ => []

/-- The properties that a registry declares for the objects of a source. -/
def declaredProperties (registry : RuntimeSchemaRegistry) : Source → Option (List (String × RuntimePropertySchema))
  | .record kind => (registry.records.lookup kind).map (·.properties)
  | .relation kind => (registry.relations.lookup kind).map (·.properties)
  | .event kind => (registry.events.lookup kind).map (·.properties)
  | .claim _ => none

section

variable {changes : List RuntimeChange} {scope : ScopeId} {source : Source} {validAt known : UInt64}

theorem visibleObjects_distinct :
    ∀ object ∈ visibleObjects changes scope source validAt known, object.Distinct := by
  intro object member
  cases source with
  | record kind =>
    obtain ⟨record, -, rfl⟩ := List.mem_map.mp member
    exact SourceObject.distinct_ofRecord record
  | relation kind =>
    obtain ⟨relation, -, rfl⟩ := List.mem_map.mp member
    exact SourceObject.distinct_ofRelation relation
  | event kind =>
    obtain ⟨change, -, found⟩ := List.mem_filterMap.mp member
    split at found
    · next event isEvent =>
      split at found
      · cases found
        exact SourceObject.distinct_ofEvent change event
      · cases found
    · cases found
  | claim predicate => cases member

/-- A snapshot replays the changes of its scope alone. -/
theorem fromChanges_inScope :
    RuntimeGraphSnapshot.fromChanges (changes.filter (Store.inScope (some scope))) scope validAt known =
      RuntimeGraphSnapshot.fromChanges changes scope validAt known := by
  have same : (changes.filter (Store.inScope (some scope))).filter (RuntimeGraphSnapshot.selects scope known) =
      changes.filter (RuntimeGraphSnapshot.selects scope known) := by
    rw [List.filter_filter]
    apply List.filter_congr
    intro change _
    by_cases same : scope = change.scope
    · simp [Store.inScope, same]
    · simp [RuntimeGraphSnapshot.selects, Ne.symm same]
  rw [RuntimeGraphSnapshot.fromChanges, same]
  rfl

/-- The rows of a source are those of its visible objects. -/
theorem rowsForSource_eq (declares : ∃ registry properties, declaredProperties registry source = some properties) :
    rowsForSource (changes.filter (Store.inScope (some scope))) scope source validAt known =
      (visibleObjects changes scope source validAt known).map (·.row) := by
  cases source with
  | record kind =>
    simp only [rowsForSource, visibleObjects, fromChanges_inScope, List.map_map]
    rfl
  | relation kind =>
    simp only [rowsForSource, visibleObjects, fromChanges_inScope, List.map_map]
    rfl
  | event kind =>
    simp only [rowsForSource, visibleObjects, List.map_filterMap, List.filter_filter]
    have same : ∀ change : RuntimeChange,
        ((change.cursor ≤ known && change.scope = scope && change.at_ ≤ validAt) && Store.inScope (some scope) change) =
          (decide (change.cursor ≤ known) && decide (change.scope = scope) && decide (change.at_ ≤ validAt)) := by
      intro change
      by_cases same : scope = change.scope
      · simp [Store.inScope, same]
      · simp [Store.inScope, same, Ne.symm same]
    simp only [same]
    congr 1
    funext change
    cases change.mutation with
    | event event =>
      by_cases isKind : event.kind = kind
      · simp [isKind]
      · simp [isKind]
    | _ => rfl
  | claim predicate =>
    obtain ⟨_, _, declares⟩ := declares
    cases declares

/-! ## What a row shows -/

theorem lookup_insertValues {columns : RuntimeProperties} (distinct : (columns.map Prod.fst).Nodup)
    (properties : RuntimeProperties) (name : String) :
    (insertValues properties columns).lookup name = (columns.lookup name).or (properties.lookup name) := by
  induction columns generalizing properties with
  | nil => rfl
  | cons column columns ih =>
    obtain ⟨key, value⟩ := column
    rw [List.map_cons, List.nodup_cons] at distinct
    have later : insertValues properties ((key, value) :: columns) =
        insertValues (insertValue key value properties) columns := rfl
    rw [later, ih distinct.2, lookup_insertValue, lookup_cons_ite]
    by_cases same : name = key
    · subst same
      have absent : columns.lookup name = none := by
        rw [List.lookup_eq_none_iff]
        intro entry member
        have different : name ≠ entry.1 := fun same => distinct.1 (List.mem_map.mpr ⟨entry, member, same.symm⟩)
        simpa using different
      simp [absent]
    · simp [same]

/-- The built-in column and the property of one name agree on a value. -/
def SourceObject.Agrees (object : SourceObject) (name : String) (value : RuntimeValue) : Prop :=
  ∀ column, object.columns.lookup name = some column → (column = value ↔ object.has name value)

/-- A property that is named like no built-in column agrees on every value. -/
theorem SourceObject.agrees_of_notMem {object : SourceObject} {name : String}
    (fresh : name ∉ object.columns.map Prod.fst) (value : RuntimeValue) : object.Agrees name value := by
  intro column found
  have absent : object.columns.lookup name = none := by
    rw [List.lookup_eq_none_iff]
    intro entry member
    have different : name ≠ entry.1 := fun same => fresh (List.mem_map.mpr ⟨entry, member, same.symm⟩)
    simpa using different
  rw [absent] at found
  cases found

theorem SourceObject.agrees_iff {object : SourceObject} (distinct : object.Distinct) (name : String)
    (value : RuntimeValue) :
    object.Agrees name value ↔ matchesFilter object.row ⟨name, value⟩ = object.has name value := by
  have shown : matchesFilter object.row ⟨name, value⟩ ↔
      (object.columns.lookup name).or (object.properties.lookup name) = some value := by
    rw [matchesFilter, decide_eq_true_eq, row, lookup_insertValues distinct]
  have isHas : object.has name value ↔ object.properties.lookup name = some value := decide_eq_true_iff
  have same : matchesFilter object.row ⟨name, value⟩ = object.has name value ↔
      (matchesFilter object.row ⟨name, value⟩ ↔ object.has name value) := Bool.eq_iff_iff
  rw [same, Agrees, shown, isHas]
  cases object.columns.lookup name with
  | none => simp
  | some column => simp

/-- A filter on rows keeps the rows of the items that another test selects exactly when the tests
agree on every item. -/
theorem filter_perm_iff {α β : Type} {row : α → β} {keeps : β → Bool} {selects : α → Bool} {items : List α} :
    ((items.map row).filter keeps).Perm ((items.filter selects).map row) ↔
      ∀ item ∈ items, keeps (row item) = selects item := by
  rw [List.filter_map]
  constructor
  · intro perm item member
    have kept : ∀ item ∈ items, selects item → keeps (row item) := by
      intro item member selected
      have shown := perm.mem_iff.mpr (List.mem_map_of_mem (List.mem_filter.mpr ⟨member, selected⟩))
      obtain ⟨other, listed, same⟩ := List.mem_map.mp shown
      rw [← same]
      exact (List.mem_filter.mp listed).2
    -- What is selected is a sublist of what is kept, and as long.
    have inside : items.filter selects = (items.filter (keeps ∘ row)).filter selects := by
      rw [List.filter_filter]
      apply List.filter_congr
      intro item member
      cases selected : selects item with
      | false => rfl
      | true => simp [kept item member selected]
    have sublist : (items.filter selects).Sublist (items.filter (keeps ∘ row)) := by
      rw [inside]
      exact List.filter_sublist
    have length : (items.filter selects).length = (items.filter (keeps ∘ row)).length := by
      simpa using perm.length_eq.symm
    have same := sublist.eq_of_length length
    rw [Bool.eq_iff_iff]
    constructor
    · intro keeps
      have listed : item ∈ items.filter selects := same ▸ List.mem_filter.mpr ⟨member, keeps⟩
      exact (List.mem_filter.mp listed).2
    · exact kept item member
  · intro agree
    have same : items.filter (keeps ∘ row) = items.filter selects := List.filter_congr agree
    rw [same]

end

/-! ## Binding -/

/-- A query for the objects of a source whose property equals a parameter. -/
def propertyQuery (source : Source) (temporal : TemporalSelector) (name parameter : String) (explain : Bool) : Query :=
  { Query.new source temporal with filters := [⟨name, .parameter parameter⟩], explainContract := explain }

/-- What the query asks, and that it may: its times, and a value of the type that the schema in force
declares for the property. -/
structure Asks (catalog : Catalog) (source : Source) (temporal : TemporalSelector) (parameters : Parameters)
    (name parameter : String) (value : RuntimeValue) (validAt known : UInt64) : Prop where
  legal : isField name
  validTime : resolveU64Time temporal.validAt parameters "valid time" = .ok validAt
  cursor : resolveCursor temporal.knownAt parameters catalog = .ok known
  inHistory : known ≤ catalog.read.commitCursor
  given : parameters.lookup parameter = some value
  declared : ∃ registry properties rule, catalog.schemaAt known = some registry ∧
    declaredProperties registry source = some properties ∧ properties.lookup name = some rule ∧
    rule.valueType.accepts value

/-- The query, bound. -/
def boundProperty (catalog : Catalog) (source : Source) (name : String) (value : RuntimeValue)
    (validAt known : UInt64) (explain : Bool) (schemaRevision : UInt64) : BoundQuery :=
  { contractVersion := queryContractVersion, read := catalog.read, source, validAt, knownAtCursor := known,
    filters := [⟨name, value⟩], projection := .all, limit := none, explainContract := explain, schemaRevision }

theorem fieldsForSource_declared {registry : RuntimeSchemaRegistry} {source : Source}
    {properties : List (String × RuntimePropertySchema)}
    (declares : declaredProperties registry source = some properties) :
    ∃ builtins, fieldsForSource source registry = .ok ⟨builtins, properties⟩ := by
  cases source with
  | record kind =>
    obtain ⟨definition, found, rfl⟩ := Option.map_eq_some_iff.mp declares
    exact ⟨_, by rw [fieldsForSource, found]⟩
  | relation kind =>
    obtain ⟨definition, found, rfl⟩ := Option.map_eq_some_iff.mp declares
    exact ⟨_, by rw [fieldsForSource, found]⟩
  | event kind =>
    obtain ⟨definition, found, rfl⟩ := Option.map_eq_some_iff.mp declares
    exact ⟨_, by rw [fieldsForSource, found]⟩
  | claim predicate => cases declares

/-- A query on a declared property binds. -/
theorem bind_property {catalog : Catalog} {source : Source} {temporal : TemporalSelector} {parameters : Parameters}
    {name parameter : String} {value : RuntimeValue} {validAt known : UInt64}
    (asks : Asks catalog source temporal parameters name parameter value validAt known) (explain : Bool) :
    ∃ schemaRevision, bind (propertyQuery source temporal name parameter explain) parameters catalog =
      .ok (boundProperty catalog source name value validAt known explain schemaRevision) := by
  obtain ⟨registry, properties, rule, inForce, declares, isRule, accepts⟩ := asks.declared
  obtain ⟨builtins, fields⟩ := fieldsForSource_declared declares
  have named : validateField name 0 = .ok () := if_pos asks.legal
  have valid : (propertyQuery source temporal name parameter explain).validate = .ok () := by
    simp [propertyQuery, Query.new, Query.validate, validateFilters, named]
  have present : (FieldCatalog.mk builtins properties).get name = some [rule.valueType] := by
    simp [FieldCatalog.get, isRule]
  have typed : ensureValueType name value [rule.valueType] = .ok () := by
    simp [ensureValueType, accepts]
  have filters : checkFilters ⟨builtins, properties⟩ [⟨name, .parameter parameter⟩] = .ok () := by
    simp [checkFilters, ensureField, present]
  have bound : bindFilter ⟨builtins, properties⟩ parameters ⟨name, .parameter parameter⟩ = .ok ⟨name, value⟩ := by
    simp [bindFilter, asks.given, present, typed]
  refine ⟨registry.revision, ?_⟩
  unfold bind
  rw [valid]
  simp only [propertyQuery, Query.new, asks.validTime, asks.cursor, except_ok_bind, except_pure,
    if_neg (UInt64.not_lt.mpr asks.inHistory), inForce, fields, filters, checkProjection, List.mapM_cons,
    List.mapM_nil, bound, boundProperty]

/-! ## Executing with enough budget -/

/-- Every budget is at least a number, and there are rows in a batch. -/
def ExecutionBudget.Covers (budget : ExecutionBudget) (enough : Nat) : Prop :=
  enough ≤ budget.maxScannedChanges ∧ enough ≤ budget.maxRows ∧ enough ≤ budget.maxOutputBytes ∧
    0 < budget.maxBatchRows

/-- With enough budget, an execution returns everything that the query asks for. -/
theorem execute_covered {texts : Texts} {engine : ReadChanges} {bound : BoundQuery} {changes : List RuntimeChange}
    (version : bound.contractVersion = queryContractVersion) (stamped : bound.read.validate = .ok ())
    (scanned : scanChanges engine bound.read bound.knownAtCursor = .ok changes) :
    ∃ enough, ∀ budget : ExecutionBudget, budget.Covers enough →
      ∃ execution, execute texts engine (plan texts.plan bound) budget = .ok execution ∧
        execution.truncated = false ∧
        execution.rows = (bound.asked changes).map (applyProjection bound.projection) := by
  refine ⟨bound.knownAtCursor.toNat + (bound.asked changes).length +
    outputBytes texts.row ((bound.asked changes).map (applyProjection bound.projection)) + 1, ?_⟩
  intro budget ⟨scans, rows, bytes, some_⟩
  have runs : Runs texts engine (plan texts.plan bound) budget
      ⟨bound.source, bound.filters, bound.projection, bound.limit⟩ changes := by
    refine ⟨verify_plan version stamped, except_reject_ok.mpr ⟨by omega, rfl⟩, rfl, ?_, scanned, plan_shape _ _⟩
    show bound.knownAtCursor.toNat ≤ budget.maxScannedChanges
    omega
  have exact_ := runs.budgetExact
  have whole := exact_.rows.whole ⟨by rw [List.length_map]; omega, by omega⟩
  refine ⟨_, execute_ok_iff.mpr ⟨_, _, runs, rfl⟩, ?_, whole⟩
  have cut := exact_.truncated
  rw [whole, List.length_map] at cut
  simpa using cut

section

open Store

variable [Codec] {engine : Engine} {log : List RuntimeChange} {scope : ScopeId} {catalog : Catalog}

/-- An engine stamps the scope it is asked for. -/
theorem runtimeReadStamp_new {read : ReadStamp} (stamp : engine.runtimeReadStamp scope = .ok read) :
    ∃ schemaRevision commitCursor headDigest,
      ReadStamp.new scope schemaRevision 0 commitCursor headDigest = .ok read := by
  cases engine with
  | memory engine => exact ⟨_, _, _, kernel_ok_iff.mp stamp⟩
  | native rows =>
    obtain ⟨commitCursor, -, stamp⟩ := except_bind_ok.mp stamp
    obtain ⟨schema, -, stamp⟩ := except_bind_ok.mp stamp
    obtain ⟨headDigest, -, stamp⟩ := except_bind_ok.mp stamp
    exact ⟨_, _, _, kernel_ok_iff.mp stamp⟩

omit [Codec] in
theorem execution_ok {α : Type} {x : Except Store.Error α} {a : α} : execution x = .ok a ↔ x = .ok a := by
  cases x with
  | error e => simp [execution]
  | ok b => simp [execution]

/-- A catalog that was captured has a valid stamp of its scope, at which the engine reads up to every
cursor. -/
theorem capture_ok (logs : engine.Logs log)
    (captured : Catalog.capture engine.runtimeReadStamp engine.runtimeReadChanges scope = .ok catalog) :
    catalog.read.scope = scope ∧ catalog.read.validate = .ok () ∧ ∀ known ≤ catalog.read.commitCursor,
      ∃ changes, scanChanges engine.runtimeReadChanges catalog.read known = .ok changes := by
  obtain ⟨read, stamp, captured⟩ := except_bind_ok.mp captured
  obtain ⟨_, _, _, made⟩ := runtimeReadStamp_new (execution_ok.mp stamp)
  have isCatalog : catalog.read = read ∧ (read.commitCursor ≠ 0 → ∃ page,
      engine.runtimeReadChanges read 0 read.commitCursor.toNat = .ok page ∧
        page.throughCursor = read.commitCursor) := by
    by_cases none : read.commitCursor = 0
    · rw [if_pos none] at captured
      cases captured
      exact ⟨rfl, fun some_ => absurd none some_⟩
    · rw [if_neg none] at captured
      obtain ⟨page, isPage, captured⟩ := except_bind_ok.mp captured
      dsimp only at captured
      split at captured
      · cases captured
      · next reached =>
        cases captured
        exact ⟨rfl, fun _ => ⟨page, execution_ok.mp isPage, not_not.mp reached⟩⟩
  obtain ⟨rfl, reads⟩ := isCatalog
  have isScope : catalog.read.scope = scope := by
    obtain ⟨⟨⟩, -, made⟩ := except_bind_ok.mp made
    rw [← Except.ok.inj made]
  refine ⟨isScope, ReadStamp.validate_new made, ?_⟩
  intro known before
  unfold scanChanges
  by_cases zero : known = 0
  · exact ⟨[], if_pos zero⟩
  · have nonzero : catalog.read.commitCursor ≠ 0 := by
      intro none
      rw [none, UInt64.le_iff_toNat_le] at before
      exact zero (UInt64.toNat_inj.mp (Nat.le_zero.mp before))
    obtain ⟨page, isPage, reached⟩ := reads nonzero
    obtain ⟨page', isPage', through⟩ := Engine.runtimeReadChanges_less logs isPage reached zero before
    rw [if_neg zero, isPage']
    exact ⟨page'.changes, by simp [through]⟩

/-! ## The meaning of a filter -/

/-- The query binds, and with enough budget it returns certain rows and no others. -/
def Returns (texts : Texts) (engine : ReadChanges) (catalog : Catalog) (query : Query) (parameters : Parameters)
    (rows : List QueryRow) : Prop :=
  ∃ bound, bind query parameters catalog = .ok bound ∧ ∃ enough, ∀ budget : ExecutionBudget, budget.Covers enough →
    ∃ execution, execute texts engine (plan texts.plan bound) budget = .ok execution ∧
      execution.truncated = false ∧ execution.rows.Perm rows

section

variable {texts : Texts} {source : Source} {temporal : TemporalSelector} {parameters : Parameters}
  {name parameter : String} {value : RuntimeValue} {validAt known : UInt64} {explain : Bool}

/-- What a query on a property returns, of what the engine reads of its log. -/
theorem returns_iff (logs : engine.Logs log)
    (captured : Catalog.capture engine.runtimeReadStamp engine.runtimeReadChanges scope = .ok catalog)
    (asks : Asks catalog source temporal parameters name parameter value validAt known) :
    ∃ found, engine.Reads (log.take known.toNat) found ∧ ∀ rows : List QueryRow,
      Returns texts engine.runtimeReadChanges catalog (propertyQuery source temporal name parameter explain)
        parameters rows ↔
      (((visibleObjects found scope source validAt known).map (·.row)).filter
        (matchesFilter · ⟨name, value⟩)).Perm rows := by
  obtain ⟨isScope, valid, scans⟩ := capture_ok logs captured
  obtain ⟨changes, scanned⟩ := scans known asks.inHistory
  obtain ⟨found, reads, rfl⟩ := scanned_reads logs scanned
  obtain ⟨schemaRevision, isBound⟩ := bind_property asks explain
  obtain ⟨registry, properties, -, -, declares, -⟩ := asks.declared
  refine ⟨found, reads, ?_⟩
  intro rows
  generalize isQuery : boundProperty catalog source name value validAt known explain schemaRevision = bound at isBound
  obtain ⟨enough, covered⟩ := @execute_covered texts engine.runtimeReadChanges bound
    (found.filter (inScope (some catalog.read.scope))) (by rw [← isQuery]; rfl) (by rw [← isQuery]; exact valid)
    (by rw [← isQuery]; exact scanned)
  have matching : bound.matching (found.filter (inScope (some catalog.read.scope))) =
      ((visibleObjects found scope source validAt known).map (·.row)).filter (matchesFilter · ⟨name, value⟩) := by
    rw [← rowsForSource_eq ⟨registry, properties, declares⟩, ← isScope, ← isQuery]
    simp [BoundQuery.matching, boundProperty, matchesFilter]
  have asked : ((bound.asked (found.filter (inScope (some catalog.read.scope)))).map
      (applyProjection bound.projection)).Perm
        (((visibleObjects found scope source validAt known).map (·.row)).filter (matchesFilter · ⟨name, value⟩)) := by
    rw [← matching, ← isQuery]
    show (List.map id _).Perm _
    rw [List.map_id]
    exact List.mergeSort_perm _ _
  constructor
  · intro ⟨bound', isBound', enough', returns⟩
    obtain rfl : bound = bound' := Except.ok.inj (isBound.symm.trans isBound')
    let budget : ExecutionBudget := ⟨enough + enough', enough + enough', enough + enough', 1⟩
    have covers : budget.Covers enough := ⟨by simp [budget], by simp [budget], by simp [budget], Nat.one_pos⟩
    have covers' : budget.Covers enough' := ⟨by simp [budget], by simp [budget], by simp [budget], Nat.one_pos⟩
    obtain ⟨execution, ran, -, all⟩ := covered budget covers
    obtain ⟨execution', ran', -, perm⟩ := returns budget covers'
    obtain rfl : execution = execution' := Except.ok.inj (ran.symm.trans ran')
    rw [all] at perm
    exact asked.symm.trans perm
  · intro perm
    refine ⟨bound, isBound, enough, ?_⟩
    intro budget covers
    obtain ⟨execution, ran, whole, all⟩ := covered budget covers
    exact ⟨execution, ran, whole, by rw [all]; exact asked.trans perm⟩

/-- What the query returns is exact when the built-in columns agree. -/
theorem returns_visible_iff (logs : engine.Logs log)
    (captured : Catalog.capture engine.runtimeReadStamp engine.runtimeReadChanges scope = .ok catalog)
    (asks : Asks catalog source temporal parameters name parameter value validAt known) :
    ∃ found, engine.Reads (log.take known.toNat) found ∧
      (Returns texts engine.runtimeReadChanges catalog (propertyQuery source temporal name parameter explain)
        parameters (((visibleObjects found scope source validAt known).filter (·.has name value)).map (·.row)) ↔
      ∀ object ∈ visibleObjects found scope source validAt known, object.Agrees name value) := by
  obtain ⟨found, reads, returns⟩ := returns_iff logs captured asks
  refine ⟨found, reads, ?_⟩
  rw [returns, filter_perm_iff]
  apply forall_congr'
  intro object
  apply imp_congr_right
  intro visible
  exact (SourceObject.agrees_iff (visibleObjects_distinct object visible) name value).symm

/-- A query on a declared property, for a value of its type, binds, and with enough budget returns exactly
the visible objects whose property equals the value, exactly when no visible object has a built-in
column of that name that tells otherwise. -/
theorem property_filter_iff (history : engine.History)
    (captured : Catalog.capture engine.runtimeReadStamp engine.runtimeReadChanges scope = .ok catalog)
    (asks : Asks catalog source temporal parameters name parameter value validAt known) :
    ∃ log found, engine.Logs log ∧ engine.Reads (log.take known.toNat) found ∧
      (Returns texts engine.runtimeReadChanges catalog (propertyQuery source temporal name parameter explain)
        parameters (((visibleObjects found scope source validAt known).filter (·.has name value)).map (·.row)) ↔
      ∀ object ∈ visibleObjects found scope source validAt known, object.Agrees name value) := by
  obtain ⟨log, logs⟩ := history.logs
  obtain ⟨found, reads, exactly⟩ := returns_visible_iff logs captured asks
  exact ⟨log, found, logs, reads, exactly⟩

end

end

/-! ## A property named like a column -/

namespace OakDoor

open Store

def house : ScopeId := .lit "house" (Eq.refl true)

def door : RuntimeType := .lit "door" (Eq.refl true)

/-- Doors have a color and a kind of wood. -/
def registry : RuntimeSchemaRegistry :=
  { revision := 1, migration := "doors"
    records := [(door, ⟨[("color", ⟨.string, false⟩), ("kind", ⟨.string, false⟩)], false, []⟩)]
    relations := [], events := [] }

/-- The front door is of oak, and red. -/
def front : RuntimeRecord :=
  { reference := ⟨door, ⟨"front", by decide, by decide⟩⟩, validFrom := 1, validTo := none
    properties := [("color", .string "red"), ("kind", .string "oak")] }

def commit : RuntimeCommit :=
  { scope := house, at_ := 5, actor := "sensor", expectedCursor := 0
    mutations := [.schema registry, .record front] }

def engine : Engine := .memory (MemoryEngine.new.commitRuntime commit).2

/-- `AT VALID 10 KNOWN HEAD`. -/
def now : TemporalSelector := ⟨.literal 10, .head⟩

def given (value : String) : Parameters := [("value", .string value)]

variable [Codec]

omit [Codec] in
theorem fits : (MemoryEngine.new.commitRuntime commit).2.runtimeChanges.length < 2 ^ 63 := by decide +kernel

theorem history : engine.History := .inl (.single ⟨commit, rfl, fits⟩)

/-- The catalog of the house is captured, and has the schema. -/
theorem captured : ∃ catalog, Catalog.capture engine.runtimeReadStamp engine.runtimeReadChanges house = .ok catalog ∧
    catalog.read.commitCursor = 2 ∧ catalog.schemaAt 2 = some registry := by
  let memory := (MemoryEngine.new.commitRuntime commit).2
  have found : (Catalog.capture memory.runtimeReadStamp memory.runtimeReadChanges house).toOption.map
      (fun catalog => (catalog.read.commitCursor, catalog.schemaAt 2)) = some (2, some registry) := by decide +kernel
  obtain ⟨catalog, isCatalog, same⟩ := Option.map_eq_some_iff.mp found
  obtain ⟨head, inForce⟩ := Prod.mk.inj same
  exact ⟨catalog, except_toOption_eq_some.mp isCatalog, head, inForce⟩

omit [Codec] in
theorem asks {catalog : Catalog} (head : catalog.read.commitCursor = 2) (inForce : catalog.schemaAt 2 = some registry)
    {name : String} (legal : isField name) {rule : RuntimePropertySchema} (isString : rule.valueType = .string)
    (declared : [("color", ⟨.string, false⟩), ("kind", ⟨.string, false⟩)].lookup name = some rule) (value : String) :
    Asks catalog (.record door) now (given value) name "value" (.string value) 10 2 := by
  refine ⟨legal, rfl, ?_, ?_, rfl, registry, _, rule, inForce, rfl, declared, ?_⟩
  · show (Except.ok catalog.read.commitCursor : Except Error UInt64) = .ok 2
    rw [head]
  · rw [head]
    exact UInt64.le_refl _
  · rw [isString]
    rfl

omit [Codec] in
theorem visible : visibleObjects ((MemoryEngine.new.commitRuntime commit).2.runtimeChanges.take 2) house (.record door)
    10 2 = [.ofRecord front] := by decide +kernel

/-- A query for the doors whose property equals a value returns them when no built-in column of the
name tells otherwise. -/
theorem returns_front_iff {catalog : Catalog} (isCatalog : Catalog.capture engine.runtimeReadStamp
      engine.runtimeReadChanges house = .ok catalog) {name value : String}
    (asks : Asks catalog (.record door) now (given value) name "value" (.string value) 10 2)
    (has_ : (SourceObject.ofRecord front).has name (.string value)) :
    Returns DoorQuery.texts engine.runtimeReadChanges catalog (propertyQuery (.record door) now name "value" false)
      (given value) [recordRow front] ↔ (SourceObject.ofRecord front).Agrees name (.string value) := by
  have logs : engine.Logs (MemoryEngine.new.commitRuntime commit).2.runtimeChanges := ⟨rfl, fits⟩
  obtain ⟨found, reads, exactly⟩ := @returns_visible_iff _ engine _ house catalog DoorQuery.texts _ _ _ _ _ _ _ _ false
    logs isCatalog asks
  have isFound : found = (MemoryEngine.new.commitRuntime commit).2.runtimeChanges.take 2 := reads
  rw [isFound, visible] at exactly
  simpa [has_] using exactly

end OakDoor

open OakDoor Store in
/-- A query for the red doors returns the front door. -/
theorem property_filter_iff_red : let _ := sureCodec none
    ∃ (catalog : Catalog) (log found : List RuntimeChange), engine.Reads (log.take 2) found ∧
      Returns DoorQuery.texts engine.runtimeReadChanges catalog
        (propertyQuery (.record door) now "color" "value" false) (given "red")
        (((visibleObjects found house (.record door) 10 2).filter (·.has "color" (.string "red"))).map (·.row)) := by
  let _ := sureCodec none
  obtain ⟨catalog, isCatalog, head, inForce⟩ := captured
  obtain ⟨log, found, logs, reads, exactly⟩ := @property_filter_iff _ engine house catalog DoorQuery.texts _ _ _ _ _ _ _ _
    false history isCatalog (@asks catalog head inForce "color" (by decide) _ rfl rfl "red")
  refine ⟨catalog, log, found, reads, exactly.mpr ?_⟩
  intro object shown
  obtain ⟨record, -, rfl⟩ := List.mem_map.mp shown
  exact SourceObject.agrees_of_notMem (by simp [SourceObject.ofRecord]) _

open OakDoor Store in
/-- The front door is of oak, and a query for the doors of oak does not return it: it compares the type of
the record. -/
theorem property_filter_misses_oak : let _ := sureCodec none
    ∃ catalog, Catalog.capture engine.runtimeReadStamp engine.runtimeReadChanges house = .ok catalog ∧
      Asks catalog (.record door) now (given "oak") "kind" "value" (.string "oak") 10 2 ∧
      (SourceObject.ofRecord front).has "kind" (.string "oak") ∧
      ¬ Returns DoorQuery.texts engine.runtimeReadChanges catalog
        (propertyQuery (.record door) now "kind" "value" false) (given "oak") [recordRow front] := by
  let _ := sureCodec none
  obtain ⟨catalog, isCatalog, head, inForce⟩ := captured
  have asked := @asks catalog head inForce "kind" (by decide) _ rfl rfl "oak"
  refine ⟨catalog, isCatalog, asked, by decide, ?_⟩
  rw [returns_front_iff isCatalog asked (by decide)]
  intro agrees
  have same := (agrees (.string "door") rfl).mpr (by decide)
  exact absurd same (by decide)

end Vyrm.Mx
