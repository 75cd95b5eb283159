import Vyrm.Core.Reasoning.Replay
import Vyrm.Node.Trace

/-!
# The reasoning ledger

`crates/vyrm-node/src/reasoning.rs`: the ledger of reasoning runs, read back from the typed events
of the runtime log, or from the projection of an older format, and the recording of one more event.
-/

namespace Vyrm.Node
open Lib Vyrm.Core Vyrm.Store

/-- `BTreeMap<String, Vec<ReasoningEvent>>`. -/
abbrev Runs := OrdMap String (List ReasoningEvent)

/-- `Ledger` (`reasoning.rs:25-29`). -/
structure Ledger where
  format : UInt32
  active : Option String
  runs : Runs

/-- `serde_json`, for the values that are written and read here. -/
structure Serde where
  toString : ReasoningEvent → String
  fromStr : String → Except String ReasoningEvent
  ledger : Bytes → Except String Ledger

/-- `Error::from(vyrm_core::ContractError)`. -/
def contract {α : Type} : Except ContractError α → Except Error α
  | .ok a => .ok a
  | .error e => .error (.contract e)

/-- `Error::from(vyrm_core::Error)`. -/
def kernel {α : Type} : Except Core.Error α → Except Error α
  | .ok a => .ok a
  | .error e => .error (.kernel e)

/-- `Error::from(serde_json::Error)`. -/
def json {α : Type} : Except String α → Except Error α
  | .ok a => .ok a
  | .error e => .error (.json e)

namespace Reasoning

/-- `REASONING_SCOPE` (`reasoning.rs:18`). -/
def scope : ScopeId := ⟨"instance:default", by decide, by decide⟩

/-- `FORMAT` (`reasoning.rs:19`). -/
def format : UInt32 := 1

/-- `REPLAY_PAGE` (`reasoning.rs:20`). -/
def replayPage : Nat := 1024

/-- `RUN_TYPE` (`reasoning.rs:21`). -/
def runType : RuntimeType := ⟨"reasoning_run", by decide, by decide⟩

/-- `EVENT_TYPE` (`reasoning.rs:22`). -/
def eventType : RuntimeType := ⟨"reasoning_event", by decide, by decide⟩

/-- `RuntimeRef::new(RUN_TYPE, id)`. -/
def runRef (id : String) : Except Error RuntimeRef :=
  match Ident.new .runtimeId id with
  | .error e => .error (.kernel e)
  | .ok id => .ok ⟨runType, id⟩

/-- `empty_ledger` (`reasoning.rs:31-36`). -/
def emptyLedger : Ledger := { format, active := none, runs := ∅ }

/-! ## Loading -/

/-- The loop of `validate_ledger` (`reasoning.rs:46-62`): the run that is not complete. -/
def validateRuns : List (String × List ReasoningEvent) → Option String → Except Error (Option String)
  | [], active => .ok active
  | (id, events) :: rest, active =>
    match ReasoningRun.replay events with
    | .error e => .error (.contract e)
    | .ok run =>
      if run.id ≠ id then
        let shown := debugText id
        .error (.message s!"reasoning ledger key {shown} disagrees with its event run id")
      else if run.state = .complete then validateRuns rest active
      else
        match active with
        | some other =>
          let first := debugText other
          let second := debugText id
          .error (.message s!"reasoning ledger has multiple active runs: {first} and {second}")
        | none => validateRuns rest (some id)

/-- `validate_ledger` (`reasoning.rs:38-65`). -/
def validateLedger (ledger : Ledger) : Except Error Ledger := do
  let found := ledger.format
  if found ≠ format then
    throw (.message s!"reasoning ledger format {found} is unsupported (expected {format})")
  let active ← validateRuns ledger.runs.toList none
  return { ledger with active }

/-- `load_legacy` (`reasoning.rs:67-75`), of what the projection holds. -/
def loadLegacy (serde : Serde) (legacy : Option Bytes) : Except Error Ledger :=
  match legacy with
  | none => .ok emptyLedger
  | some bytes =>
    match serde.ledger bytes with
    | .error text =>
      .error (.message s!"reasoning ledger is unreadable and mutations must wait: {text}")
    | .ok ledger => validateLedger ledger

/-- `entry(run_id).or_default().push(event)`. -/
def push (runs : Runs) (event : ReasoningEvent) : Runs :=
  runs.insert event.runId (runs[event.runId]?.getD [] ++ [event])

/-- One change of a page (`reasoning.rs:94-122`). With the runs goes whether there is an event. -/
def absorb (serde : Serde) (reading : Runs × Bool) (change : RuntimeChange) : Except Error (Runs × Bool) :=
  match change.mutation with
  | .event event =>
    if event.kind ≠ eventType then .ok reading
    else
      let cursor := change.cursor
      match event.properties.lookup "event_json" with
      | some (.string encoded) => do
        let reasoning ← json (serde.fromStr encoded)
        let reference ← runRef reasoning.runId
        if event.subject ≠ some reference then
          throw (.message s!"reasoning runtime event at cursor {cursor} names the wrong run")
        return (push reading.1 reasoning, true)
      | _ => .error (.message s!"reasoning runtime event at cursor {cursor} has no event_json")
  | _ => .ok reading

/-- The changes of a page (`reasoning.rs:88-122`). -/
def absorbPage (serde : Serde) (observed : UInt64) (reading : Runs × Bool) (page : RuntimeChangePage) :
    Except Error (Runs × Bool) :=
  (page.changes.filter fun change => change.cursor ≤ observed).foldlM (absorb serde) reading

/-- The loop over the pages (`reasoning.rs:85-127`). A page that is not the last has changes, so
there are not more of them than `fuel` if that is beyond the head. -/
def readPages (serde : Serde) (engine : MemoryEngine) (observed : UInt64) :
    Nat → UInt64 → Runs × Bool → Except Error (Runs × Bool)
  | 0, _, reading => .ok reading
  | fuel + 1, cursor, reading =>
    if observed ≤ cursor then .ok reading
    else
      match engine.runtimeChangesSince cursor replayPage (some scope) with
      | .error e => .error (.store e)
      | .ok page => do
        let reading ← absorbPage serde observed reading page
        let cursor := min page.throughCursor observed
        if ¬ page.throughCursor < page.headCursor ∨ observed ≤ cursor then return reading
        readPages serde engine observed fuel cursor reading

/-- What is left of `load_runtime` once the pages are read (`reasoning.rs:128-131`). -/
def foundLedger (reading : Runs × Bool) : Except Error (Option Ledger) :=
  if reading.2 then do
    let ledger ← validateLedger { emptyLedger with runs := reading.1 }
    return some ledger
  else .ok none

/-- `load_runtime` (`reasoning.rs:79-132`). -/
def loadRuntime (serde : Serde) (engine : MemoryEngine) : Except Error (Option Ledger × UInt64) := do
  let observed := engine.head
  let reading ← readPages serde engine observed (observed.toNat + 1) 0 (∅, false)
  let ledger ← foundLedger reading
  return (ledger, observed)

/-- What `load` makes of the runtime ledger (`reasoning.rs:136-143`). -/
def orLegacy (serde : Serde) (legacy : Option Bytes) : Option Ledger → Except Error (Ledger × Bool)
  | some ledger => .ok (ledger, false)
  | none => do
    let ledger ← loadLegacy serde legacy
    return (ledger, ! ledger.runs.isEmpty)

/-- `load` (`reasoning.rs:134-144`). -/
def load (serde : Serde) (legacy : Option Bytes) (engine : MemoryEngine) :
    Except Error (Ledger × Bool × UInt64) := do
  let (runtime, observed) ← loadRuntime serde engine
  let (ledger, migrate) ← orLegacy serde legacy runtime
  return (ledger, migrate, observed)

/-! ## Recording -/

/-- `event_mutation` (`reasoning.rs:146-168`). -/
def eventMutation (serde : Serde) (event : ReasoningEvent) : Except Error RuntimeMutation := do
  let subject ← runRef event.runId
  return .event
    { kind := eventType
      subject := some subject
      properties :=
        [("event_digest", .digest event.digest), ("event_json", .string (serde.toString event)),
          ("ordinal", .unsigned event.ordinal), ("payload_kind", .string event.payload.name)] }

/-- `run_record` (`reasoning.rs:170-197`). -/
def runRecord (run : ReasoningRun) : Except Error RuntimeMutation :=
  match run.events.head?, run.events.getLast? with
  | some first, some last => do
    let reference ← runRef run.id
    return .record
      { reference
        validFrom := first.at_
        validTo := none
        properties :=
          [("complete", .bool (run.state = .complete)), ("last_event_digest", .digest last.digest),
            ("state", .string (run.state.shown.map Char.toLower))] }
  | _, _ => .error (.message "cannot persist an empty reasoning run")

/-- The record schema of runs (`reasoning.rs:207-223`). -/
def runSchema : RuntimeRecordSchema :=
  { properties := [("complete", ⟨.bool, true⟩), ("last_event_digest", ⟨.digest, true⟩),
      ("state", ⟨.string, true⟩)]
    allowAdditionalProperties := false
    uniqueProperties := [] }

/-- The event schema (`reasoning.rs:224-246`). -/
def eventSchema : RuntimeEventSchema :=
  { subjectRequired := true
    subjectTypes := [runType]
    properties := [("event_digest", ⟨.digest, true⟩), ("event_json", ⟨.string, true⟩),
      ("ordinal", ⟨.unsigned, true⟩), ("payload_kind", ⟨.string, true⟩)]
    allowAdditionalProperties := false }

/-- `reasoning_schema_update` (`reasoning.rs:199-263`). -/
def schemaUpdate (current : Option RuntimeSchemaRegistry) : Option RuntimeSchemaRegistry :=
  let registry := current.getD (.empty 1 "bootstrap reasoning runtime schema")
  if registry.records.lookup runType = some runSchema ∧ registry.events.lookup eventType = some eventSchema then
    none
  else
    let registered := { registry with
      records := insertEntry runType runSchema registry.records
      events := insertEntry eventType eventSchema registry.events }
    match current with
    | none => some registered
    | some current => some { registered with
        revision := saturatingSucc current.revision, migration := "register reasoning runtime types" }

/-- The mutations that carry a run over (`reasoning.rs:311-317`). -/
def migrateRun (serde : Serde) (events : List ReasoningEvent) : Except Error (List RuntimeMutation) := do
  let migrated ← contract (ReasoningRun.replay events)
  let record ← runRecord migrated
  let historical ← migrated.events.mapM (eventMutation serde)
  return record :: historical

/-- Whether a call may go on (`reasoning.rs:276-294`). -/
def checkActive (ledger : Ledger) (runId : String) (payload : ReasoningPayload) : Except Error Unit :=
  let shown := debugText runId
  match payload with
  | .goal _ _ =>
    if ledger.runs[runId]?.isSome then .error (.message s!"reasoning run {shown} already exists")
    else
      match ledger.active with
      | some active =>
        let other := debugText active
        .error (.message
          s!"reasoning run {other} is still active; complete it before starting {shown}")
      | none => .ok ()
  | _ =>
    if ledger.active ≠ some runId then
      let other := ledger.active.getD "none"
      .error (.message s!"reasoning run {shown} is not active (active: {other})")
    else .ok ()

/-- The run a call appends to (`reasoning.rs:296-299`). -/
def openRun (ledger : Ledger) (runId : String) : Except Error ReasoningRun :=
  match ledger.runs[runId]? with
  | some events => contract (ReasoningRun.replay events)
  | none => contract (ReasoningRun.empty runId)

/-- What a call records, and the mutations of its commit apart from a schema (`reasoning.rs:275-321`). -/
def prepare (serde : Serde) (ledger : Ledger) (migrate : Bool) (runId : String) (at_ : Millis) (actor : String)
    (payload : ReasoningPayload) : Except Error (ReasoningEvent × List RuntimeMutation) := do
  checkActive ledger runId payload
  let run ← openRun ledger runId
  match run.append at_ actor payload with
  | (.error e, _) => throw (.contract e)
  | (.ok event, run) =>
    let runs := ledger.runs.insert runId run.events
    if migrate then
      let mutations ← (OrdMap.values runs).mapM (migrateRun serde)
      return (event, mutations.flatten)
    else
      let record ← runRecord run
      let mutation ← eventMutation serde event
      return (event, [record, mutation])

/-- The commit of a call (`reasoning.rs:322-332`). -/
def commitOf (current : Option RuntimeSchemaRegistry) (observed : UInt64) (at_ : Millis) (actor : String)
    (mutations : List RuntimeMutation) : RuntimeCommit :=
  { scope, at_, actor, expectedCursor := observed
    mutations := ((schemaUpdate current).map RuntimeMutation.schema).toList ++ mutations }

/-- What `record_reasoning` does before it commits (`reasoning.rs:275-332`). -/
def propose (serde : Serde) (legacy : Option Bytes) (engine : MemoryEngine) (runId : String) (at_ : Millis)
    (actor : String) (payload : ReasoningPayload) : Except Error (ReasoningEvent × RuntimeCommit) := do
  let (ledger, migrate, observed) ← load serde legacy engine
  let (event, mutations) ← prepare serde ledger migrate runId at_ actor payload
  return (event, commitOf engine.runtimeSchemas[scope]? observed at_ actor mutations)

/-- `record_reasoning` (`reasoning.rs:268-335`). -/
def record (serde : Serde) (legacy : Option Bytes) (engine : MemoryEngine) (runId : String) (at_ : Millis)
    (actor : String) (payload : ReasoningPayload) : Except Error ReasoningEvent × MemoryEngine :=
  match propose serde legacy engine runId at_ actor payload with
  | .error e => (.error e, engine)
  | .ok (event, commit) =>
    match engine.commitRuntime commit with
    | (.error e, engine) => (.error (.store e), engine)
    | (.ok _, engine) => (.ok event, engine)

/-- The arguments of a call of `record_reasoning`. -/
structure Call where
  runId : String
  at_ : Millis
  actor : String
  payload : ReasoningPayload

/-- `active_reasoning_run` (`reasoning.rs:350-361`). -/
def activeRun (serde : Serde) (legacy : Option Bytes) (engine : MemoryEngine) :
    Except Error (Option ReasoningRun) := do
  let (ledger, _) ← load serde legacy engine
  match ledger.active.bind fun id => ledger.runs[id]? with
  | none => return none
  | some events =>
    let run ← contract (ReasoningRun.replay events)
    return some run

end Reasoning

end Vyrm.Node
