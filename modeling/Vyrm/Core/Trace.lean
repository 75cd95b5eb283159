import Vyrm.Core.Runtime.Graph

/-!
# Runtime traces

`crates/vyrm-core/src/trace.rs`: a trace event, its checks, the runtime event it is
stored as, and the declaration of that event type in a schema.
-/

namespace Vyrm.Core
open Lib Vyrm.Vector

/-- `MAX_TRACE_NAME_BYTES` (`trace.rs:20`). -/
def maxTraceNameBytes : Nat := 160

/-- `MAX_TRACE_LINKS` (`trace.rs:21`). -/
def maxTraceLinks : Nat := 32

/-- `MAX_TRACE_ATTRIBUTES` (`trace.rs:22`). -/
def maxTraceAttributes : Nat := 64

/-- `MAX_TRACE_VALUE_DEPTH` (`trace.rs:23`). -/
def maxTraceValueDepth : Nat := 8

/-- `MAX_TRACE_VALUE_NODES` (`trace.rs:24`). -/
def maxTraceValueNodes : Nat := 1024

/-- `MAX_TRACE_STRING_BYTES` (`trace.rs:25`). -/
def maxTraceStringBytes : Nat := 8 * 1024

/-- `RUNTIME_TRACE_CONTRACT_VERSION` (`trace.rs:17`). -/
def runtimeTraceContractVersion : UInt16 := 1

namespace Trace

/-! ## Checks -/

/-- `validate_hex_identity` (`trace.rs:471-483`). -/
def isHexIdentity (width : Nat) (value : String) : Bool :=
  let bytes := utf8 value
  bytes.length = width && bytes.all (fun byte => isDigit byte || (97 ≤ byte.toNat && byte.toNat ≤ 102)) &&
    ! bytes.all (· = 48)

/-- `hex_ident!` (`trace.rs:27-71`). -/
structure HexIdent (width : Nat) where
  asStr : String
  valid : isHexIdentity width asStr = true

/-- `validate_digest` (`trace.rs:716-721`). -/
def validateDigest (kind value : String) : Except Error Unit :=
  if (utf8 value).length ≠ 64 ∨ ¬ (utf8 value).all isHexDigit then
    invalid s!"{kind} digest must be 64 hexadecimal characters"
  else .ok ()

/-- `validate_bounded_text` (`trace.rs:723-730`). -/
def validateBoundedText (kind value : String) (max : Nat) : Except Error Unit :=
  if trimIsEmpty value ∨ max < (utf8 value).length ∨ (0 : UInt8) ∈ utf8 value then
    invalid s!"{kind} must be non-empty, contain no NUL, and fit within {max} bytes"
  else .ok ()

/-- The bound on texts in `validate_value` (`trace.rs:543-551`). -/
def validateLength (value : String) : Except Error Unit :=
  if maxTraceStringBytes < (utf8 value).length then
    invalid s!"runtime trace string exceeds {maxTraceStringBytes} bytes"
  else .ok ()

mutual

/-- `validate_value` (`trace.rs:537-569`), which returns the nodes seen so far. -/
def validateValue (value : RuntimeValue) (depth nodes : Nat) : Except Error Nat :=
  if maxTraceValueNodes < nodes + 1 ∨ maxTraceValueDepth < depth then
    invalid "runtime trace attribute tree exceeds its structural budget"
  else match value with
    | .string value => do
      validateLength value
      return nodes + 1
    | .digest value => do
      validateLength value
      return nodes + 1
    | .decimal value => do
      validateLength value
      return nodes + 1
    | .list values => validateValues values (depth + 1) (nodes + 1)
    | .map values => validateEntries values (depth + 1) (nodes + 1)
    | .null => .ok (nodes + 1)
    | .bool _ => .ok (nodes + 1)
    | .integer _ => .ok (nodes + 1)
    | .unsigned _ => .ok (nodes + 1)

/-- The elements of a list. -/
def validateValues (values : List RuntimeValue) (depth nodes : Nat) : Except Error Nat :=
  match values with
  | [] => .ok nodes
  | value :: rest => do
    let nodes ← validateValue value depth nodes
    validateValues rest depth nodes

/-- The entries of a map. -/
def validateEntries (values : List (String × RuntimeValue)) (depth nodes : Nat) : Except Error Nat :=
  match values with
  | [] => .ok nodes
  | (name, value) :: rest => do
    validateBoundedText "trace map key" name maxTraceNameBytes
    let nodes ← validateValue value depth nodes
    validateEntries rest depth nodes

end

/-- The loop over the attributes (`trace.rs:341-345`). -/
def validateAttributes (attributes : RuntimeProperties) (nodes : Nat) : Except Error Unit :=
  match attributes with
  | [] => .ok ()
  | (name, value) :: rest => do
    validateBoundedText "trace attribute name" name maxTraceNameBytes
    let nodes ← validateValue value 0 nodes
    validateAttributes rest nodes

end Trace

abbrev TraceId := Trace.HexIdent 32
abbrev SpanId := Trace.HexIdent 16

/-! ## Events -/

/-- `TracePhase` (`trace.rs:79-83`). -/
inductive TracePhase where
  | start
  | annotation
  | finish
  deriving DecidableEq, Repr

/-- `TraceOutcome` (`trace.rs:87-93`). -/
inductive TraceOutcome where
  | running
  | ok
  | error
  | denied
  | cancelled
  deriving DecidableEq, Repr

/-- `TraceDataClass` (`trace.rs:97-104`). -/
inductive TraceDataClass where
  | control
  | operator
  | content
  deriving DecidableEq, Repr

/-- `TraceDomain` (`trace.rs:108-121`). -/
inductive TraceDomain where
  | lifecycle
  | reasoning
  | query
  | planning
  | storage
  | projection
  | search
  | embedding
  | model
  | tool
  | adapter
  | cluster
  deriving DecidableEq, Repr

/-- `enum_name` (`trace.rs:673-679`). -/
def TracePhase.name : TracePhase → String
  | start => "start"
  | annotation => "annotation"
  | finish => "finish"

/-- `outcome_name` (`trace.rs:681-689`). -/
def TraceOutcome.name : TraceOutcome → String
  | .running => "running"
  | .ok => "ok"
  | .error => "error"
  | .denied => "denied"
  | .cancelled => "cancelled"

/-- `data_class_name` (`trace.rs:691-697`). -/
def TraceDataClass.name : TraceDataClass → String
  | .control => "control"
  | .operator => "operator"
  | .content => "content"

/-- `domain_name` (`trace.rs:699-714`). -/
def TraceDomain.name : TraceDomain → String
  | .lifecycle => "lifecycle"
  | .reasoning => "reasoning"
  | .query => "query"
  | .planning => "planning"
  | .storage => "storage"
  | .projection => "projection"
  | .search => "search"
  | .embedding => "embedding"
  | .model => "model"
  | .tool => "tool"
  | .adapter => "adapter"
  | .cluster => "cluster"

/-- `TraceLink` (`trace.rs:127-162`). -/
inductive TraceLink where
  | reasoningRun (runId : String)
  | runtimeCursor (cursor : UInt64)
  | read (stamp : ReadStamp)
  | snapshot (snapshotId : SnapshotId) (cursor : UInt64)
  | plan (planDigest : String)
  | projection (stamp : ProjectionStamp)
  | workflow (event manifestDigest : String)
  | provider (name invocationId : String)
  | operatorKnowledge (adapter projectId sourceRevision : String)

/-- `validate_link` (`trace.rs:485-535`). -/
def TraceLink.validate : TraceLink → Except Error Unit
  | .reasoningRun runId => Trace.validateBoundedText "trace reasoning run" runId maxTraceNameBytes
  | .runtimeCursor _ => .ok ()
  | .read stamp => stamp.validate
  | .snapshot snapshotId _ =>
    Trace.validateBoundedText "trace snapshot id" snapshotId.asStr maxTraceStringBytes
  | .plan planDigest => Trace.validateDigest "trace plan" planDigest
  | .projection stamp => stamp.validate
  | .workflow event manifestDigest => do
    Trace.validateBoundedText "trace workflow event" event maxTraceNameBytes
    Trace.validateDigest "trace workflow manifest" manifestDigest
  | .provider name invocationId => do
    Trace.validateBoundedText "trace provider" name maxTraceNameBytes
    Trace.validateBoundedText "trace provider invocation" invocationId maxTraceStringBytes
  | .operatorKnowledge adapter projectId sourceRevision => do
    Trace.validateBoundedText "operator knowledge adapter" adapter maxTraceNameBytes
    Trace.validateBoundedText "operator knowledge project" projectId maxTraceNameBytes
    Trace.validateBoundedText "operator knowledge revision" sourceRevision maxTraceStringBytes

/-- `link_value` (`trace.rs:571-671`); the entries of a map are in key order. -/
def TraceLink.value : TraceLink → RuntimeValue
  | .reasoningRun runId => .map [("kind", .string "reasoning_run"), ("run_id", .string runId)]
  | .runtimeCursor cursor => .map [("cursor", .unsigned cursor), ("kind", .string "runtime_cursor")]
  | .read stamp =>
    .map [("cursor", .unsigned stamp.commitCursor), ("kind", .string "read"),
      ("manifest_id", .digest stamp.manifestId), ("scope", .string stamp.scope.asStr)]
  | .snapshot snapshotId cursor =>
    .map [("cursor", .unsigned cursor), ("kind", .string "snapshot"),
      ("snapshot_id", .string snapshotId.asStr)]
  | .plan planDigest => .map [("kind", .string "plan"), ("plan_digest", .digest planDigest)]
  | .projection stamp =>
    .map [("artifact_digest", .digest stamp.artifactDigest),
      ("generation", .unsigned (UInt64.ofNat stamp.generation)), ("id", .string stamp.id.asStr),
      ("kind", .string "projection"), ("source_cursor", .unsigned stamp.sourceCursor)]
  | .workflow event manifestDigest =>
    .map [("event", .string event), ("kind", .string "workflow"),
      ("manifest_digest", .digest manifestDigest)]
  | .provider name invocationId =>
    .map [("invocation_id", .string invocationId), ("kind", .string "provider"),
      ("provider", .string name)]
  | .operatorKnowledge adapter projectId sourceRevision =>
    .map [("adapter", .string adapter), ("kind", .string "operator_knowledge"),
      ("project_id", .string projectId), ("source_revision", .string sourceRevision)]

/-- `RuntimeTraceEvent` (`trace.rs:165-183`). -/
structure RuntimeTraceEvent where
  contractVersion : UInt16
  traceId : TraceId
  spanId : SpanId
  parentSpanId : Option SpanId
  phase : TracePhase
  domain : TraceDomain
  name : String
  at_ : Millis
  durationMicros : Option UInt64
  outcome : TraceOutcome
  dataClass : TraceDataClass
  links : List TraceLink
  attributes : RuntimeProperties

namespace RuntimeTraceEvent

open TracePhase in
/-- The lifecycles `validate` accepts (`trace.rs:318-327`). -/
def lifecycle (phase : TracePhase) (durationMicros : Option UInt64) (outcome : TraceOutcome) : Bool :=
  match phase, durationMicros, outcome with
  | start, none, .running => true
  | annotation, none, _ => true
  | finish, some _, outcome => outcome ≠ .running
  | _, _, _ => false

/-- `validate` (`trace.rs:307-347`). -/
def validate (event : RuntimeTraceEvent) : Except Error Unit := do
  let version := event.contractVersion
  if version ≠ runtimeTraceContractVersion then
    invalid s!"unsupported runtime trace contract version {version}"
  Trace.validateBoundedText "trace operation" event.name maxTraceNameBytes
  if event.parentSpanId.map (·.asStr) = some event.spanId.asStr then
    invalid "a trace span cannot parent itself"
  if ¬ lifecycle event.phase event.durationMicros event.outcome then
    invalid "trace phase, duration, and outcome do not form a valid lifecycle transition"
  if maxTraceLinks < event.links.length then
    invalid s!"runtime trace exceeds {maxTraceLinks} causal links"
  event.links.forM TraceLink.validate
  if maxTraceAttributes < event.attributes.length then
    invalid s!"runtime trace exceeds {maxTraceAttributes} attributes"
  Trace.validateAttributes event.attributes 0

/-- `event_type` (`trace.rs:407-409`), which does not fail. -/
def eventType : RuntimeType := ⟨"runtime_trace", by decide, by decide⟩

/-- What `into_runtime_event` stores, in key order (`trace.rs:354-399`). -/
def properties (event : RuntimeTraceEvent) : RuntimeProperties :=
  [("at", .unsigned event.at_), ("attributes", .map event.attributes),
    ("contract_version", .unsigned event.contractVersion.toUInt64),
    ("data_class", .string event.dataClass.name), ("domain", .string event.domain.name)] ++
  (event.durationMicros.map fun duration => ("duration_micros", .unsigned duration)).toList ++
  [("links", .list (event.links.map TraceLink.value)), ("name", .string event.name),
    ("outcome", .string event.outcome.name)] ++
  (event.parentSpanId.map fun parent => ("parent_span_id", .string parent.asStr)).toList ++
  [("phase", .string event.phase.name), ("span_id", .string event.spanId.asStr),
    ("trace_id", .string event.traceId.asStr)]

/-- `into_runtime_event` (`trace.rs:352-405`). -/
def intoRuntimeEvent (event : RuntimeTraceEvent) : Except Error RuntimeEvent := do
  event.validate
  return { kind := eventType, subject := none, properties := event.properties }

/-- `event_schema` (`trace.rs:412-454`). -/
def eventSchema : RuntimeEventSchema :=
  { subjectRequired := false
    subjectTypes := []
    properties :=
      [("at", ⟨.unsigned, true⟩), ("attributes", ⟨.map, true⟩), ("contract_version", ⟨.unsigned, true⟩),
        ("data_class", ⟨.string, true⟩), ("domain", ⟨.string, true⟩), ("duration_micros", ⟨.unsigned, false⟩),
        ("links", ⟨.list, true⟩), ("name", ⟨.string, true⟩), ("outcome", ⟨.string, true⟩),
        ("parent_span_id", ⟨.string, false⟩), ("phase", ⟨.string, true⟩), ("span_id", ⟨.string, true⟩),
        ("trace_id", ⟨.string, true⟩)]
    allowAdditionalProperties := false }

/-- What an event is stored as conforms to the schema of its type. -/
theorem properties_declared (event : RuntimeTraceEvent) (object : String) :
    validateDeclared object eventType event.properties eventSchema.properties false = .ok () := by
  cases duration : event.durationMicros <;> cases parent : event.parentSpanId <;>
    simp [validateDeclared, properties, eventSchema, duration, parent, List.lookup_cons,
      RuntimeValueType.accepts]

end RuntimeTraceEvent

/-! ## Installing the schema -/

/-- `RuntimeSchemaRegistry::empty` (`schema.rs:117-125`). -/
def RuntimeSchemaRegistry.empty (revision : UInt64) (migration : String) : RuntimeSchemaRegistry :=
  { revision, migration, records := [], relations := [], events := [] }

/-- `BTreeMap::insert`, of entries in key order. -/
def insertEntry {κ α : Type} [Ord κ] (key : κ) (a : α) : List (κ × α) → List (κ × α)
  | [] => [(key, a)]
  | (other, b) :: rest =>
    match compare key other with
    | .lt => (key, a) :: (other, b) :: rest
    | .eq => (key, a) :: rest
    | .gt => (other, b) :: insertEntry key a rest

/-- An insertion changes no entry of another key. -/
theorem filter_insertEntry {κ α : Type} [Ord κ] [Std.LawfulEqOrd κ] [DecidableEq κ] (key : κ) (a : α)
    (entries : List (κ × α)) :
    (insertEntry key a entries).filter (fun entry => entry.1 ≠ key) =
      entries.filter fun entry => entry.1 ≠ key := by
  induction entries with
  | nil => simp [insertEntry]
  | cons entry rest ih =>
    obtain ⟨other, b⟩ := entry
    unfold insertEntry
    split
    · simp
    · rename_i same
      obtain rfl := Std.LawfulEqOrd.eq_of_compare same
      simp
    · rw [List.filter_cons, List.filter_cons, ih]

/-- `register_schema` (`trace.rs:460-468`): the registry with the declaration of the type, if that is
not in it. -/
def RuntimeTraceEvent.registerSchema (registry : RuntimeSchemaRegistry) : Option RuntimeSchemaRegistry :=
  if registry.events.lookup eventType = some eventSchema then none
  else some { registry with events := insertEntry eventType eventSchema registry.events }

/-- A registry that declares what another does, but for the type of trace events. -/
structure RuntimeSchemaRegistry.Extends (registry previous : RuntimeSchemaRegistry) : Prop where
  records : registry.records = previous.records
  relations : registry.relations = previous.relations
  events : registry.events.filter (fun entry => entry.1 ≠ RuntimeTraceEvent.eventType) =
    previous.events.filter fun entry => entry.1 ≠ RuntimeTraceEvent.eventType

theorem RuntimeTraceEvent.extends_registerSchema {registry registered : RuntimeSchemaRegistry}
    (registers : registerSchema registry = some registered) : registered.Extends registry := by
  unfold registerSchema at registers
  split at registers
  · cases registers
  · cases registers
    exact ⟨rfl, rfl, filter_insertEntry _ _ _⟩

end Vyrm.Core
