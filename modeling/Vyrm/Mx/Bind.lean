import Vyrm.Core.Schema
import Vyrm.Mx.Execute

/-!
# Binding a query

`crates/vyrm-mx/src/catalog.rs` and the first half of `plan.rs`: the schema history that a query is
bound against, and the checks of its times, fields and values.
-/

namespace Vyrm.Mx
open Lib Vyrm.Core Vyrm.Ql

/-! ## The catalog -/

/-- `SchemaVersion` (`catalog.rs:7-10`). -/
structure SchemaVersion where
  cursor : UInt64
  registry : RuntimeSchemaRegistry
  deriving DecidableEq

/-- `Catalog` (`catalog.rs:14-17`). -/
structure Catalog where
  read : ReadStamp
  schemas : List SchemaVersion
  deriving DecidableEq

/-- What an engine stamps: `Engine::runtime_read_stamp`. -/
abbrev ReadStamps := ScopeId → Except Store.Error ReadStamp

/-- `Error::from(vyrm_store::Error)` (`error.rs:29-33`). -/
def execution {α : Type} : Except Store.Error α → Except Error α
  | .ok a => .ok a
  | .error e => .error (.execution e)

/-- The schema a change installs, and where (`catalog.rs:39-45`). -/
def schemaVersion (change : RuntimeChange) : Option SchemaVersion :=
  match change.mutation with
  | .schema registry => some { cursor := change.cursor, registry }
  | _ => none

namespace Catalog

/-- `capture` (`catalog.rs:20-48`). -/
def capture (stamps : ReadStamps) (engine : ReadChanges) (scope : ScopeId) : Except Error Catalog := do
  let read ← execution (stamps scope)
  let commitCursor := read.commitCursor
  let changes ←
    if commitCursor = 0 then pure []
    else do
      let page ← execution (engine read 0 commitCursor.toNat)
      let through := page.throughCursor
      if through ≠ commitCursor then
        throw (.catalog s!"schema replay stopped at cursor {through}, expected {commitCursor}")
      pure page.changes
  return { read, schemas := changes.filterMap schemaVersion }

/-- `schema_at` (`catalog.rs:50-56`). -/
def schemaAt (catalog : Catalog) (cursor : UInt64) : Option RuntimeSchemaRegistry :=
  (catalog.schemas.reverse.find? fun version => version.cursor ≤ cursor).map (·.registry)

end Catalog

/-! ## Fields -/

/-- `FieldTypes` (`plan.rs:8`). -/
abbrev FieldTypes := List RuntimeValueType

/-- `FieldCatalog` (`plan.rs:9`), by what it is collected from: the built-in fields, and then the
properties. -/
structure FieldCatalog where
  builtins : List (String × FieldTypes)
  properties : List (String × RuntimePropertySchema)

/-- `fields.get(field)`: of two entries with one name, the map keeps the later. -/
def FieldCatalog.get (fields : FieldCatalog) (field : String) : Option FieldTypes :=
  ((fields.properties.lookup field).map fun rule => [rule.valueType]).or (fields.builtins.lookup field)

/-- `fields_for_source` (`plan.rs:315-420`). -/
def fieldsForSource (source : Source) (schema : RuntimeSchemaRegistry) : Except Error FieldCatalog :=
  match source with
  | .record kind =>
    match schema.records.lookup kind with
    | none =>
      let shown := kind.asStr
      .error (.binding s!"record type {shown} is not registered at this cursor")
    | some definition => .ok
        { builtins := [("id", [.string]), ("kind", [.string]), ("valid_from", [.unsigned]),
            ("valid_to", [.null, .unsigned])]
          properties := definition.properties }
  | .relation kind =>
    match schema.relations.lookup kind with
    | none =>
      let shown := kind.asStr
      .error (.binding s!"relation type {shown} is not registered at this cursor")
    | some definition => .ok
        { builtins := [("id", [.string]), ("kind", [.string]), ("from_kind", [.string]), ("from_id", [.string]),
            ("to_kind", [.string]), ("to_id", [.string]), ("valid_from", [.unsigned]),
            ("valid_to", [.null, .unsigned])]
          properties := definition.properties }
  | .event kind =>
    match schema.events.lookup kind with
    | none =>
      let shown := kind.asStr
      .error (.binding s!"event type {shown} is not registered at this cursor")
    | some definition => .ok
        { builtins := [("cursor", [.unsigned]), ("kind", [.string]), ("subject_kind", [.null, .string]),
            ("subject_id", [.null, .string]), ("at", [.unsigned]), ("actor", [.string])]
          properties := definition.properties }
  | .claim _ => .ok
      { builtins := [("subject", [.string]), ("predicate", [.string]), ("object", [.string]),
          ("valid_from", [.unsigned]), ("valid_to", [.null, .unsigned]), ("tx_time", [.unsigned]),
          ("actor", [.string])]
        properties := [] }

/-- `ensure_field` (`plan.rs:293-299`). -/
def ensureField (field : String) (fields : FieldCatalog) : Except Error FieldTypes :=
  match fields.get field with
  | some accepted => .ok accepted
  | none =>
    let shown := debugText field
    .error (.binding s!"field {shown} is not present in the selected source")

/-- The derived `Debug` of a value type. -/
def typeName : RuntimeValueType → String
  | .null => "Null"
  | .bool => "Bool"
  | .integer => "Integer"
  | .unsigned => "Unsigned"
  | .decimal => "Decimal"
  | .string => "String"
  | .digest => "Digest"
  | .list => "List"
  | .map => "Map"

/-- `ensure_value_type` (`plan.rs:301-313`). -/
def ensureValueType (field : String) (value : RuntimeValue) (accepted : FieldTypes) : Except Error Unit :=
  if accepted.any fun expected => expected.accepts value then .ok ()
  else
    let shown := debugText field
    let types := String.intercalate ", " (accepted.map typeName)
    .error (.binding s!"filter value for {shown} does not match accepted types [{types}]")

/-! ## Binding -/

/-- `Parameters` (`plan.rs:7`). -/
abbrev Parameters := List (String × RuntimeValue)

/-- `parameter_u64` (`plan.rs:283-291`). -/
def parameterU64 (parameters : Parameters) (name label : String) : Except Error UInt64 :=
  match parameters.lookup name with
  | some (.unsigned value) => .ok value
  | some _ => .error (.binding s!"{label} parameter ${name} must be unsigned")
  | none => .error (.binding s!"missing query parameter ${name}")

/-- `resolve_u64_time` (`plan.rs:276-281`). -/
def resolveU64Time (value : TimeExpr) (parameters : Parameters) (label : String) : Except Error UInt64 :=
  match value with
  | .literal value => .ok value
  | .parameter name => parameterU64 parameters name label

/-- The known cursor of a query (`plan.rs:102-106`). -/
def resolveCursor (value : CursorExpr) (parameters : Parameters) (catalog : Catalog) : Except Error UInt64 :=
  match value with
  | .head => .ok catalog.read.commitCursor
  | .literal value => .ok value
  | .parameter name => parameterU64 parameters name "known cursor"

/-- The check of the fields of the filters, and of their literals (`plan.rs:119-124`). -/
def checkFilters (fields : FieldCatalog) (filters : List Filter) : Except Error Unit :=
  filters.forM fun filter => do
    let accepted ← ensureField filter.field fields
    match filter.value with
    | .literal value => ensureValueType filter.field value accepted
    | .parameter _ => .ok ()

/-- The check of the projected fields (`plan.rs:125-129`). -/
def checkProjection (fields : FieldCatalog) (projection : Projection) : Except Error Unit :=
  match projection with
  | .fields projected => projected.forM fun field => do let _ ← ensureField field fields
  | .all => .ok ()

/-- One filter with its value (`plan.rs:130-153`). -/
def bindFilter (fields : FieldCatalog) (parameters : Parameters) (filter : Filter) : Except Error BoundFilter := do
  let value ← match filter.value with
    | .literal value => pure value
    | .parameter name =>
      match parameters.lookup name with
      | some value => pure value
      | none => throw (.binding s!"missing query parameter ${name}")
  ensureValueType filter.field value ((fields.get filter.field).getD [])
  return { field := filter.field, value }

/-- `bind` (`plan.rs:97-166`). -/
def bind (query : Query) (parameters : Parameters) (catalog : Catalog) : Except Error BoundQuery := do
  match query.validate with
  | .error error =>
    let offset := error.offset
    let message := error.message
    throw (.binding s!"query parse error at byte {offset}: {message}")
  | .ok () => pure ()
  let validAt ← resolveU64Time query.temporal.validAt parameters "valid time"
  let knownAtCursor ← resolveCursor query.temporal.knownAt parameters catalog
  let head := catalog.read.commitCursor
  if head < knownAtCursor then
    throw (.binding s!"known cursor {knownAtCursor} exceeds captured head {head}")
  match catalog.schemaAt knownAtCursor with
  | none => throw (.binding s!"no schema was visible at known cursor {knownAtCursor}")
  | some schema =>
    let fields ← fieldsForSource query.source schema
    checkFilters fields query.filters
    checkProjection fields query.projection
    let filters ← query.filters.mapM (bindFilter fields parameters)
    return { contractVersion := queryContractVersion, read := catalog.read, source := query.source, validAt,
             knownAtCursor, filters, projection := query.projection, limit := query.limit,
             explainContract := query.explainContract, schemaRevision := schema.revision }

end Vyrm.Mx
