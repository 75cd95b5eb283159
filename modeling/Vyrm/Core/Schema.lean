import Vyrm.Core.Data

/-!
# Schema contract

`crates/vyrm-core/src/schema.rs`: the checks a registry makes on itself and on the
objects of a commit, and the uniqueness and cardinality rules over the objects that
would be current after it.
-/

namespace Vyrm.Core
open Lib

/-- `RuntimeValueType::matches` (`schema.rs:25-39`). -/
def RuntimeValueType.accepts : RuntimeValueType → RuntimeValue → Bool
  | .null, .null => true
  | .bool, .bool _ => true
  | .integer, .integer _ => true
  | .unsigned, .unsigned _ => true
  | .decimal, .decimal _ => true
  | .string, .string _ => true
  | .digest, .digest _ => true
  | .list, .list _ => true
  | .map, .map _ => true
  | _, _ => false

/-- `validate_property_schema` (`schema.rs:390-403`). -/
def validatePropertySchema (kind : RuntimeType) (properties : List (String × RuntimePropertySchema)) :
    Except Error Unit :=
  properties.forM fun (name, _) =>
    if name = "" ∨ (0 : UInt8) ∈ utf8 name then
      let shown := kind.asStr
      let property := debugText name
      invalid s!"type {shown} contains invalid property name {property}"
    else .ok ()

/-- `validate_properties` (`schema.rs:405-436`). -/
def validateDeclared (object : String) (kind : RuntimeType) (actual : RuntimeProperties)
    (declared : List (String × RuntimePropertySchema)) (allowAdditional : Bool) : Except Error Unit := do
  let shown := kind.asStr
  declared.forM fun (name, property) =>
    let quoted := debugText name
    match actual.lookup name with
    | some value =>
      if property.valueType.accepts value then .ok ()
      else invalid s!"{object} type {shown} property {quoted} has the wrong value type"
    | none =>
      if property.required then
        invalid s!"{object} type {shown} is missing required property {quoted}"
      else .ok ()
  if allowAdditional then .ok ()
  else match (actual.map Prod.fst).find? fun name => (declared.lookup name).isNone with
    | some name =>
      let quoted := debugText name
      invalid s!"{object} type {shown} contains undeclared property {quoted}"
    | none => .ok ()

/-- The start and end points of the windows of relations (`schema.rs:439-445`). -/
def windowPoints (relations : List RuntimeRelation) : List (UInt64 × Int) :=
  relations.flatMap fun relation =>
    (relation.validFrom, 1) :: match relation.validTo with
      | some validTo => [(validTo, -1)]
      | none => []

/-- The order the points are sorted in: by time, and ends before starts (`schema.rs:447`). -/
def pointLe (a b : UInt64 × Int) : Bool := a.1 < b.1 || (a.1 = b.1 && a.2 ≤ b.2)

/-- The sweep over the sorted points (`schema.rs:448-453`): the windows open now, and the most so far. -/
def sweep (points : List (UInt64 × Int)) : Int × Int :=
  points.foldl (fun (current, maximum) (_, delta) => (current + delta, max maximum (current + delta))) (0, 0)

/-- `max_overlap` (`schema.rs:438-455`). -/
def maxOverlap (relations : List RuntimeRelation) : Nat :=
  (sweep ((windowPoints relations).mergeSort pointLe)).2.toNat

/-- `windows_overlap` (`schema.rs:457-464`). -/
def windowsOverlap (leftFrom : UInt64) (leftTo : Option UInt64) (rightFrom : UInt64)
    (rightTo : Option UInt64) : Bool :=
  leftFrom < rightTo.getD u64Max && rightFrom < leftTo.getD u64Max

/-- Relations by a key, the groups in key order (`schema.rs:321-327`, `338-344`, `354-360`). -/
def groupBy {κ : Type} [Keyed κ] (key : RuntimeRelation → κ) (relations : List RuntimeRelation) :
    List (κ × List RuntimeRelation) :=
  let groups : OrdMap κ (List RuntimeRelation) :=
    relations.foldl (fun groups relation =>
      groups.insert (key relation) (groups[key relation]?.getD [] ++ [relation])) ∅
  groups.toList

/-- `kind/id`. -/
def RuntimeRef.shown (reference : RuntimeRef) : String :=
  reference.kind.asStr ++ "/" ++ reference.id.asStr

/-- Two candidates that share a value while both are valid (`schema.rs:303-313`). -/
def sharesValue : List (RuntimeRecord × RuntimeValue) → Bool
  | [] => false
  | (left, value) :: rest =>
    (rest.any fun (right, other) => value = other &&
      windowsOverlap left.validFrom left.validTo right.validFrom right.validTo) || sharesValue rest

namespace RuntimeSchemaRegistry

/-- `validate` (`schema.rs:127-164`). -/
def validate (registry : RuntimeSchemaRegistry) : Except Error Unit := do
  if registry.revision = 0 then invalid "runtime schema revision must be greater than zero"
  if trimIsEmpty registry.migration then
    invalid "runtime schema migration description must not be empty"
  if registry.records = [] ∧ registry.relations = [] ∧ registry.events = [] then
    invalid "runtime schema must declare at least one governed type"
  registry.records.forM fun (kind, schema) => do
    validatePropertySchema kind schema.properties
    schema.uniqueProperties.forM fun property =>
      if (schema.properties.lookup property).isNone then
        let shown := kind.asStr
        let quoted := debugText property
        invalid s!"record type {shown} declares unknown unique property {quoted}"
      else .ok ()
  registry.relations.forM fun (kind, schema) => do
    let shown := kind.asStr
    if schema.from_ = [] ∨ schema.to_ = [] then
      invalid s!"relation type {shown} must declare at least one from and to endpoint type"
    if schema.maxOutgoing = some 0 ∨ schema.maxIncoming = some 0 then
      invalid s!"relation type {shown} cardinality limits must be greater than zero"
    validatePropertySchema kind schema.properties
  registry.events.forM fun (kind, schema) => validatePropertySchema kind schema.properties

/-- `validate_record` (`schema.rs:218-233`). -/
def validateRecord (registry : RuntimeSchemaRegistry) (record : RuntimeRecord) : Except Error Unit :=
  let kind := record.reference.kind
  match registry.records.lookup kind with
  | none =>
    let shown := kind.asStr
    invalid s!"record type {shown} is not registered"
  | some schema =>
    validateDeclared "record" kind record.properties schema.properties schema.allowAdditionalProperties

/-- `validate_relation` (`schema.rs:234-257`). -/
def validateRelation (registry : RuntimeSchemaRegistry) (relation : RuntimeRelation) :
    Except Error Unit :=
  let kind := relation.reference.kind
  let shown := kind.asStr
  match registry.relations.lookup kind with
  | none => invalid s!"relation type {shown} is not registered"
  | some schema =>
    if ¬ schema.from_.contains relation.from_.kind ∨ ¬ schema.to_.contains relation.to_.kind then
      let source := relation.from_.kind.asStr
      let target := relation.to_.kind.asStr
      invalid s!"relation type {shown} rejects endpoint {source} -> {target}"
    else
      validateDeclared "relation" kind relation.properties schema.properties
        schema.allowAdditionalProperties

/-- `validate_event` (`schema.rs:259-284`). -/
def validateEvent (registry : RuntimeSchemaRegistry) (event : RuntimeEvent) : Except Error Unit := do
  let shown := event.kind.asStr
  match registry.events.lookup event.kind with
  | none => invalid s!"event type {shown} is not registered"
  | some schema =>
    if schema.subjectRequired ∧ event.subject = none then
      invalid s!"event type {shown} requires a subject"
    match event.subject with
    | some subject =>
      if schema.subjectTypes ≠ [] ∧ ¬ schema.subjectTypes.contains subject.kind then
        let kind := subject.kind.asStr
        invalid s!"event type {shown} rejects subject type {kind}"
    | none => pure ()
    validateDeclared "event" event.kind event.properties schema.properties
      schema.allowAdditionalProperties

/-- `validate_record_uniqueness` (`schema.rs:286-321`). -/
def validateRecordUniqueness (registry : RuntimeSchemaRegistry) (records : List RuntimeRecord) :
    Except Error Unit :=
  registry.records.forM fun (kind, schema) =>
    schema.uniqueProperties.forM fun property =>
      let candidates := (records.filter fun record => record.reference.kind = kind).filterMap
        fun record => (record.properties.lookup property).map fun value => (record, value)
      if sharesValue candidates then
        let shown := kind.asStr
        let quoted := debugText property
        invalid s!"record type {shown} property {quoted} is not unique for overlapping validity windows"
      else .ok ()

/-- One cardinality rule: no group has more than `limit` relations valid at once. -/
def limitOverlap {κ : Type} [Keyed κ] (key : RuntimeRelation → κ) (relations : List RuntimeRelation)
    (limit : Nat) (reason : κ → String) : Except Error Unit :=
  (groupBy key relations).forM fun (key, group) =>
    if limit < maxOverlap group then invalid (reason key) else .ok ()

/-- `validate_relation_cardinality` (`schema.rs:320-387`). -/
def validateRelationCardinality (registry : RuntimeSchemaRegistry) (relations : List RuntimeRelation) :
    Except Error Unit :=
  registry.relations.forM fun (kind, schema) => do
    let shown := kind.asStr
    let typed := relations.filter fun relation => relation.reference.kind = kind
    if schema.uniquePair then
      limitOverlap (fun relation => (relation.from_, relation.to_)) typed 1 fun (from_, to_) =>
        let source := from_.shown
        let target := to_.shown
        s!"relation type {shown} requires a unique pair for {source} -> {target}"
    match schema.maxOutgoing with
    | some limit =>
      limitOverlap (fun relation => relation.from_) typed limit.toNat fun from_ =>
        let source := from_.shown
        s!"relation type {shown} exceeds max_outgoing={limit} at {source}"
    | none => pure ()
    match schema.maxIncoming with
    | some limit =>
      limitOverlap (fun relation => relation.to_) typed limit.toNat fun to_ =>
        let target := to_.shown
        s!"relation type {shown} exceeds max_incoming={limit} at {target}"
    | none => pure ()

/-- The records that would be current after a commit (`schema.rs:188-213`). -/
def currentRecords (mutations : List RuntimeMutation) (existing : List RuntimeRecord) :
    OrdMap RuntimeRef RuntimeRecord :=
  OrdMap.insertAll RuntimeRecord.reference ∅ (existing ++ mutations.filterMap fun
    | .record record => some record
    | _ => none)

/-- The relations that would be current after a commit (`schema.rs:192-213`). -/
def currentRelations (mutations : List RuntimeMutation) (existing : List RuntimeRelation) :
    OrdMap RuntimeRef RuntimeRelation :=
  OrdMap.insertAll RuntimeRelation.reference ∅ (existing ++ mutations.filterMap fun
    | .relation relation => some relation
    | _ => none)

/-- `validate_objects` (`schema.rs:166-216`). -/
def validateObjects (registry : RuntimeSchemaRegistry) (mutations : List RuntimeMutation)
    (existingRecords : List RuntimeRecord) (existingRelations : List RuntimeRelation) :
    Except Error Unit := do
  registry.validate
  mutations.forM fun
    | .record record => registry.validateRecord record
    | .relation relation => registry.validateRelation relation
    | .event event => registry.validateEvent event
    | _ => .ok ()
  registry.validateRecordUniqueness (currentRecords mutations existingRecords).values
  registry.validateRelationCardinality (currentRelations mutations existingRelations).values

end RuntimeSchemaRegistry

end Vyrm.Core
