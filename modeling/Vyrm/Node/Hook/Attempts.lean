import Vyrm.Node.Hook
import Vyrm.Node.Reasoning.Recording

/-!
# Attempts and the calls they authorise

Hooks and calls of `record_reasoning` in any order on one store. Beside the engine stands what has
happened: which events were recorded, and which tools that change files were let through.
-/

namespace Vyrm.Node.Hook
open Lib Vyrm.Core Vyrm.Store

/-! ## Worlds -/

/-- What has happened. -/
inductive Note where
  | recorded (event : ReasoningEvent)
  | allowed (tool : String)
  deriving DecidableEq

namespace Note

def isAllowed : Note → Bool
  | .allowed _ => true
  | .recorded _ => false

def isAttemptOf (id : String) : Note → Bool
  | .recorded event => event.runId = id && event.isAttempt
  | .allowed _ => false

def eventOf (id : String) : Note → Option ReasoningEvent
  | .recorded event => if event.runId = id then some event else none
  | .allowed _ => none

end Note

structure World where
  engine : MemoryEngine
  notes : List Note

/-- What arrives at a store. The commits are those of other writers, and of the traces and the journal
of the hooks themselves. -/
inductive Arrival where
  | preToolUse (gates : Gates) (input : Value)
  | postToolUse (now : Millis) (input : Value)
  | recordReasoning (call : Reasoning.Call)
  | commit (commit : RuntimeCommit)

/-- The hook let a tool that changes files go on. -/
def letsThrough (ctx : HookContext) (gates : Gates) (engine : MemoryEngine) (input : Value) : Bool :=
  input.toolName ∈ mutationTools &&
    match preToolUse ctx gates engine input with
    | .ok response => ! responseDenied response
    | .error _ => false

namespace World

variable (ctx : HookContext)

/-- A world after a call of `record_reasoning`. -/
def record (world : World) (call : Reasoning.Call) : World :=
  match recordCall ctx call world.engine with
  | (.error _, engine) => { world with engine }
  | (.ok event, engine) => ⟨engine, world.notes ++ [.recorded event]⟩

/-- The call of `record_reasoning` that an arrival makes. -/
def callOf (world : World) : Arrival → Option Reasoning.Call
  | .postToolUse now input =>
    match resultCall ctx now world.engine input with
    | .ok call => call
    | .error _ => none
  | .recordReasoning call => some call
  | _ => none

def next (world : World) (arrival : Arrival) : World :=
  match arrival with
  | .preToolUse gates input =>
    if letsThrough ctx gates world.engine input then
      { world with notes := world.notes ++ [.allowed input.toolName] }
    else world
  | .commit commit => { world with engine := (world.engine.commitRuntime commit).2 }
  | _ => (world.callOf ctx arrival).elim world (world.record ctx)

/-- What a commit needs: room in the log, and no reasoning event from another writer. -/
def Possible (world : World) : Arrival → Prop
  | .preToolUse _ _ => True
  | .commit commit => world.engine.Room commit ∧ Reasoning.Foreign commit
  | arrival => ∀ call, world.callOf ctx arrival = some call →
      ∀ event commit, Reasoning.propose ctx.serde ctx.legacy world.engine call.runId call.at_ call.actor
        call.payload = .ok (event, commit) → world.engine.Room commit

/-- One arrival. -/
def Step (world : World) (arrival : Arrival) (world' : World) : Prop :=
  world.Possible ctx arrival ∧ world' = world.next ctx arrival

/-- The events of an older ledger. -/
def legacyEvents : List ReasoningEvent :=
  match Reasoning.loadLegacy ctx.serde ctx.legacy with
  | .ok ledger => (OrdMap.values ledger.runs).flatten
  | .error _ => []

/-- A new store, maybe with the ledger of an older format. -/
def start : World := { engine := .new, notes := (legacyEvents ctx).map .recorded }

end World

theorem postToolUse_snd (ctx : HookContext) (world : World) (now : Millis) (input : Value) :
    (world.next ctx (.postToolUse now input)).engine = (postToolUse ctx now world.engine input).2 := by
  simp only [World.next, World.callOf, postToolUse]
  cases resultCall ctx now world.engine input with
  | error e => rfl
  | ok call =>
    cases call with
    | none => rfl
    | some call =>
      simp only [Option.elim, World.record]
      cases recordCall ctx call world.engine with
      | mk result engine => cases result <;> rfl

/-! ## Counting -/

/-- The calls let through since the last attempt of a run, if it has one. -/
def tally (id : String) (notes : List Note) : Option Nat :=
  notes.foldl (fun count note =>
    if note.isAttemptOf id then some 0 else if note.isAllowed then count.map (· + 1) else count) none

/-- A call that was let through waits for its observation. -/
def outstanding (notes : List Note) : Bool :=
  notes.foldl (fun waits note =>
    match note with
    | .allowed _ => true
    | .recorded event => waits && ! event.isObservation) false

/-- When an attempt is recorded, at most one call was let through since the one before it. -/
def Once (before : List Note) (note : Note) : Prop :=
  ∀ event, note = .recorded event → event.isAttempt → ∀ count ∈ tally event.runId before, count ≤ 1

section Counting
variable {id : String} {notes more : List Note} {event : ReasoningEvent} {tool : String}

theorem tally_allowed : tally id (notes ++ [.allowed tool]) = (tally id notes).map (· + 1) := by
  simp [tally, Note.isAttemptOf, Note.isAllowed]

theorem tally_attempt (attempt : event.isAttempt) (own : event.runId = id) :
    tally id (notes ++ [.recorded event]) = some 0 := by
  simp [tally, Note.isAttemptOf, attempt, own]

theorem tally_other (other : event.isAttempt = false) : tally id (notes ++ [.recorded event]) = tally id notes := by
  simp [tally, Note.isAttemptOf, Note.isAllowed, other]

@[simp] theorem outstanding_allowed : outstanding (notes ++ [.allowed tool]) = true := by simp [outstanding]

/-- A run without an attempt has no count. -/
theorem tally_none (none_ : ∀ note ∈ notes, note.isAttemptOf id = false) : tally id notes = none := by
  induction notes using List.reverseRecOn with
  | nil => rfl
  | append_singleton notes note ih =>
    have before := ih fun other member => none_ other (by simp [member])
    rw [tally, List.foldl_append, List.foldl_cons, List.foldl_nil, ← tally, before]
    simp [none_ note (by simp)]

/-- Without a call let through there is nothing to count. -/
theorem tally_recorded (events : List ReasoningEvent) : ∀ count ∈ tally id (events.map .recorded), count = 0 := by
  induction events using List.reverseRecOn with
  | nil => simp [tally]
  | append_singleton events event ih =>
    rw [List.map_append, List.map_singleton]
    cases attempt : event.isAttempt with
    | true =>
      by_cases own : event.runId = id
      · simp [tally_attempt attempt own]
      · simpa [tally, Note.isAttemptOf, Note.isAllowed, own] using ih
    | false => rwa [tally_other attempt]

/-- From an attempt up to the next one of its run, the count is that of the calls let through. -/
theorem tally_between (attempt : event.isAttempt) (own : event.runId = id)
    (none_ : ∀ note ∈ more, note.isAttemptOf id = false) :
    tally id (notes ++ .recorded event :: more) = some (more.countP (·.isAllowed)) := by
  induction more using List.reverseRecOn with
  | nil => simpa using tally_attempt attempt own
  | append_singleton more note ih =>
    have before := ih fun other member => none_ other (by simp [member])
    have plain := none_ note (by simp)
    rw [← List.cons_append, ← List.append_assoc, tally, List.foldl_append, List.foldl_cons, List.foldl_nil, ← tally,
      before, List.countP_append, List.countP_singleton, plain]
    cases note.isAllowed <;> simp

end Counting

/-- Between two consecutive attempts of a run at most one call is let through. -/
def OnePerAttempt (notes : List Note) : Prop :=
  ∀ front first between second rest,
    notes = front ++ .recorded first :: (between ++ .recorded second :: rest) →
    first.isAttempt → second.isAttempt → second.runId = first.runId →
    (∀ note ∈ between, note.isAttemptOf first.runId = false) → between.countP (·.isAllowed) ≤ 1

theorem onePerAttempt_of_placed {notes : List Note} (placed : Placed Once notes) : OnePerAttempt notes := by
  intro front first between second rest split attempt next same none_
  have whole : notes = (front ++ .recorded first :: between) ++ .recorded second :: rest := by simp [split]
  apply placed _ _ _ whole second rfl next
  rw [same, tally_between attempt rfl none_]
  rfl

/-! ## What an arrival keeps -/

open Reasoning in
/-- What all arrivals keep, as long as calls wait for their observation. -/
structure Lawful (ctx : HookContext) (world : World) : Prop where
  sound : world.engine.Sound
  /-- The runs of the ledger are the recorded events. -/
  runs : ∀ ledger migrate, view ctx.serde ctx.legacy world.engine.runtimeChanges = .ok (ledger, migrate) →
    ∀ id : String, ledger.runs[id]?.getD [] = world.notes.filterMap (Note.eventOf id)
  /-- Of the active run at most one call is counted, and none where nothing is outstanding. -/
  active : ∀ ledger migrate, view ctx.serde ctx.legacy world.engine.runtimeChanges = .ok (ledger, migrate) →
    ∀ (id : String) (events : List ReasoningEvent) (run : ReasoningRun),
      ledger.active = some id → ledger.runs[id]? = some events → ReasoningRun.replay events = .ok run →
      ∀ count ∈ tally id world.notes,
        count ≤ 1 ∧ (run.state = .needsObservation → outstanding world.notes = false → count = 0)
  placed : Placed Once world.notes

/-- A mutation arrives, and the gates after the policy let it pass, only when no call that was let
through still waits for its observation. -/
def Serial (world : World) : Arrival → Prop
  | .preToolUse gates input =>
    input.toolName ∈ mutationTools → gates.projection = .ok none → gates.routing.isOk →
      outstanding world.notes = false
  | _ => True

variable {ctx : HookContext} {world world' : World}

/-- A tool that changes files is let through for a run that waits for an observation, when the gates
after the policy pass. -/
theorem letsThrough_ok {gates : Gates} {engine : MemoryEngine} {input : Value}
    (through : letsThrough ctx gates engine input = true) :
    input.toolName ∈ mutationTools ∧ gates.projection = .ok none ∧ gates.routing.isOk ∧
      ∃ run, Reasoning.activeRun ctx.serde ctx.legacy engine = .ok (some run) ∧ run.state = .needsObservation := by
  rw [letsThrough, Bool.and_eq_true, decide_eq_true_iff] at through
  obtain ⟨mutation, through⟩ := through
  have denies : ∀ reason detail, responseDenied (deny reason detail) = true := fun _ _ => rfl
  have first : ∃ differential, evaluateTool none input = .deny differential := by
    rcases evaluateTool_mutation none mutation with denied | ⟨-, active, -, none, -⟩
    · exact denied
    · cases none
  obtain ⟨differential, denied⟩ := first
  simp only [preToolUse, denied, projectGate] at through
  cases found : Reasoning.activeRun ctx.serde ctx.legacy engine with
  | error e => simp [found, denies] at through
  | ok run =>
    rcases evaluateTool_mutation run mutation with ⟨_, denied⟩ | ⟨_, active, allowed, rfl, state⟩
    · simp [found, denied, denies] at through
    · simp only [found, allowed, waitGates] at through
      refine ⟨mutation, ?_, ?_, active, rfl, state⟩
      · cases projection : gates.projection with
        | error e => simp [projection] at through
        | ok quarantined =>
          cases quarantined with
          | none => rfl
          | some at_ => simp [projection, denies] at through
      · cases projection : gates.projection with
        | error e => simp [projection] at through
        | ok quarantined =>
          cases routing : gates.routing with
          | ok ready => rfl
          | error text => cases quarantined <;> simp [projection, routing, denies] at through

theorem filterMap_eventOf_recorded (id : String) (events : List ReasoningEvent) :
    (events.map Note.recorded).filterMap (Note.eventOf id) = events.filter fun event => event.runId = id := by
  induction events with
  | nil => rfl
  | cons event events ih =>
    by_cases own : event.runId = id
    · simp [Note.eventOf, own, ih]
    · simp [Note.eventOf, own, ih]

/-- A run without a recorded event has no count. -/
theorem tally_of_no_event {id : String} {notes : List Note} (none_ : notes.filterMap (Note.eventOf id) = []) :
    tally id notes = none := by
  apply tally_none
  intro note member
  have missing := List.filterMap_eq_nil_iff.mp none_ note member
  cases note with
  | allowed tool => rfl
  | recorded event =>
    have other : event.runId ≠ id := by simpa [Note.eventOf] using missing
    simp [Note.isAttemptOf, other]

open Reasoning in
theorem lawful_start (ctx : HookContext) : Lawful ctx (World.start ctx) := by
  have runs : ∀ ledger migrate, view ctx.serde ctx.legacy [] = .ok (ledger, migrate) →
      ∀ id : String, ledger.runs[id]?.getD [] =
        (World.legacyEvents ctx).filter fun event => event.runId = id := by
    intro ledger migrate viewed id
    obtain ⟨valid, ⟨read, -⟩ | ⟨-, loaded, -⟩⟩ := view_ok viewed
    · simp [stored] at read
    · rw [World.legacyEvents, loaded]
      exact (filter_values valid.named id).symm
  refine ⟨MemoryEngine.sound_new, ?_, ?_, ?_⟩
  · intro ledger migrate viewed id
    rw [runs ledger migrate viewed id]
    exact (filterMap_eventOf_recorded id _).symm
  · intro ledger migrate _ id events run _ _ _ count counted
    have zero := tally_recorded _ count counted
    omega
  · intro before note after split event same attempt count counted
    obtain ⟨earlier, later, -, here, -⟩ := List.map_eq_append_iff.mp split
    rw [← here] at counted
    have zero := tally_recorded _ count counted
    omega

/-- A call that is let through is the first since the attempt that the active run waits for. -/
theorem Lawful.allowed (lawful : Lawful ctx world) {gates : Gates} {input : Value}
    (serial : Serial world (.preToolUse gates input)) : Lawful ctx (world.next ctx (.preToolUse gates input)) := by
  simp only [World.next]
  split
  · rename_i through
    obtain ⟨mutation, projection, routing, run, found, waits⟩ := letsThrough_ok through
    have clear := serial mutation projection routing
    obtain ⟨ledger, migrate, id, events, viewed, active, stored, replayed⟩ :=
      Reasoning.activeRun_ok lawful.sound found
    refine ⟨lawful.sound, ?_, ?_, ?_⟩
    · intro ledger migrate viewed id
      rw [lawful.runs ledger migrate viewed id]
      simp [Note.eventOf]
    · intro ledger' migrate' viewed' id' events' run' active' stored' replayed' count counted
      rw [viewed] at viewed'
      cases viewed'
      rw [active] at active'
      cases active'
      rw [stored] at stored'
      cases stored'
      rw [replayed] at replayed'
      cases replayed'
      rw [tally_allowed, Option.mem_map] at counted
      obtain ⟨before, counted, rfl⟩ := counted
      have none := (lawful.active ledger migrate viewed id events run active stored replayed before counted).2
        waits clear
      refine ⟨by omega, ?_⟩
      simp
    · apply lawful.placed.concat
      intro event same
      cases same
  · exact lawful

open Reasoning in
/-- An attempt continues the active run, of which at most one call is counted; another event starts no
count. -/
theorem Lawful.recorded (lawful : Lawful ctx world) {call : Reasoning.Call} {event : ReasoningEvent}
    {next : MemoryEngine} {ledger : Ledger} {migrate : Bool} {run run' : ReasoningRun}
    (viewed : view ctx.serde ctx.legacy world.engine.runtimeChanges = .ok (ledger, migrate))
    (recorded : Recorded ctx.serde ctx.legacy world.engine call event next ledger migrate run run')
    (faithful : RoundTrips ctx.serde event) (older : LegacyRoundTrips ctx.serde ctx.legacy) :
    Lawful ctx ⟨next, world.notes ++ [.recorded event]⟩ := by
  have read := recorded.stored faithful older
  obtain ⟨⟨valid, -⟩, records, sound, -⟩ := recorded
  obtain ⟨own, -⟩ := records.runId_eq valid
  have replayed := records.replay valid
  have few : ∀ count ∈ tally call.runId world.notes, count ≤ 1 := by
    intro count counted
    cases stored : ledger.runs[call.runId]? with
    | none =>
      have nothing := lawful.runs ledger migrate viewed call.runId
      rw [stored] at nothing
      rw [tally_of_no_event nothing.symm] at counted
      cases counted
    | some events =>
      obtain ⟨found, replays, same⟩ := valid.replays call.runId events stored
      have active := records.active_of_stored stored
      exact (lawful.active ledger migrate viewed call.runId events found active stored replays count counted).1
  have later : ∀ ledger' migrate', view ctx.serde ctx.legacy next.runtimeChanges = .ok (ledger', migrate') →
      Valid ledger'.runs ledger'.active ∧ ledger'.runs = ledger.runs.insert call.runId run'.events := by
    intro ledger' migrate' viewed'
    obtain ⟨valid', ⟨read', -⟩ | ⟨read', -⟩⟩ := view_ok viewed'
    · rw [read, Except.ok.injEq, Prod.mk.injEq] at read'
      exact ⟨valid', read'.1.symm⟩
    · simp [read] at read'
  refine ⟨sound, ?_, ?_, ?_⟩
  · intro ledger' migrate' viewed' id
    obtain ⟨-, same⟩ := later ledger' migrate' viewed'
    have before := lawful.runs ledger migrate viewed id
    rw [List.filterMap_append, ← before, same]
    by_cases here : call.runId = id
    · subst here
      rw [OrdMap.getElem?_insert_self, Option.getD_some, records.step.events_eq, (records.opens valid).2.2]
      simp [Note.eventOf, own]
    · rw [OrdMap.getElem?_insert_of_ne here]
      simp [Note.eventOf, own, here]
  · intro ledger' migrate' viewed' id events found active stored replays count counted
    obtain ⟨valid', same⟩ := later ledger' migrate' viewed'
    have opened := (valid'.active id).mp active
    rw [same, ← (records.valid_insert valid).active id] at opened
    have here : call.runId = id := by
      split at opened
      · cases opened
      · exact Option.some.inj opened
    subst here
    rw [same, OrdMap.getElem?_insert_self, Option.some.injEq] at stored
    subst stored
    rw [replayed] at replays
    cases replays
    cases attempt : event.isAttempt with
    | true =>
      rw [tally_attempt attempt own, Option.mem_some] at counted
      omega
    | false =>
      rw [tally_other attempt] at counted
      refine ⟨few count counted, ?_⟩
      intro waits
      rw [records.step.waits.1, attempt] at waits
      cases waits
  · apply lawful.placed.concat
    intro other same attempt count counted
    cases same
    rw [own] at counted
    exact few count counted

/-- The commits of other writers record nothing. -/
theorem Lawful.committed (lawful : Lawful ctx world) {commit : RuntimeCommit} (room : world.engine.Room commit)
    (foreign : Reasoning.Foreign commit) : Lawful ctx (world.next ctx (.commit commit)) := by
  rcases MemoryEngine.commitRuntime_cases lawful.sound room with
    ⟨e, -, refused⟩ | ⟨outcome, next, committed, accepts⟩
  · simp only [World.next, refused]
    exact lawful
  · simp only [World.next, committed]
    have same : Reasoning.view ctx.serde ctx.legacy next.runtimeChanges =
        Reasoning.view ctx.serde ctx.legacy world.engine.runtimeChanges := by
      rw [Reasoning.view, Reasoning.stored_foreign accepts foreign, Reasoning.view]
    refine ⟨accepts.sound lawful.sound room, ?_, ?_, lawful.placed⟩
    · simpa only [same] using lawful.runs
    · simpa only [same] using lawful.active

/-- What happened is not forgotten. -/
theorem prefix_notes (world : World) (arrival : Arrival) : world.notes <+: (world.next ctx arrival).notes := by
  have recording : ∀ call, world.notes <+: (world.record ctx call).notes := by
    intro call
    unfold World.record
    split
    · exact List.prefix_refl _
    · exact List.prefix_append _ _
  cases arrival with
  | preToolUse gates input =>
    simp only [World.next]
    split
    · exact List.prefix_append _ _
    · exact List.prefix_refl _
  | commit commit => exact List.prefix_refl _
  | postToolUse now input =>
    simp only [World.next]
    cases world.callOf ctx (.postToolUse now input) with
    | none => exact List.prefix_refl _
    | some call => exact recording call
  | recordReasoning call => exact recording call

/-- The events that were recorded are read back as they were written. -/
def Faithful (ctx : HookContext) (notes : List Note) : Prop :=
  ∀ event, .recorded event ∈ notes → Reasoning.RoundTrips ctx.serde event

theorem Faithful.of_prefix {notes more : List Note} (faithful : Faithful ctx more) (earlier : notes <+: more) :
    Faithful ctx notes := fun event member => faithful event (earlier.subset member)

/-- A call of `record_reasoning` keeps the laws. -/
theorem Lawful.called (lawful : Lawful ctx world) (older : Reasoning.LegacyRoundTrips ctx.serde ctx.legacy)
    {call : Reasoning.Call} (faithful : Faithful ctx (world.record ctx call).notes)
    (room : ∀ event commit, Reasoning.propose ctx.serde ctx.legacy world.engine call.runId call.at_ call.actor
      call.payload = .ok (event, commit) → world.engine.Room commit) : Lawful ctx (world.record ctx call) := by
  rcases Reasoning.record_cases lawful.sound room with
    ⟨e, refused⟩ | ⟨event, next, ledger, migrate, run, run', accepted, viewed, recorded⟩
  · simp only [World.record, recordCall, refused]
    exact lawful
  · have after : world.record ctx call = ⟨next, world.notes ++ [.recorded event]⟩ := by
      simp only [World.record, recordCall, accepted]
    rw [after] at faithful ⊢
    exact lawful.recorded viewed recorded (faithful event (by simp)) older

theorem Lawful.step (lawful : Lawful ctx world) (older : Reasoning.LegacyRoundTrips ctx.serde ctx.legacy)
    {arrival : Arrival} (step : World.Step ctx world arrival world') (serial : Serial world arrival)
    (faithful : Faithful ctx world'.notes) : Lawful ctx world' := by
  obtain ⟨possible, rfl⟩ := step
  cases arrival with
  | preToolUse gates input => exact lawful.allowed serial
  | commit commit => exact lawful.committed possible.1 possible.2
  | postToolUse now input =>
    have room : ∀ call, world.callOf ctx (.postToolUse now input) = some call → _ := possible
    simp only [World.next] at faithful ⊢
    cases made : world.callOf ctx (.postToolUse now input) with
    | none => exact lawful
    | some call =>
      rw [made] at faithful
      exact lawful.called older faithful (room call made)
  | recordReasoning call => exact lawful.called older faithful (possible call rfl)

/-- The arrivals of a run, each of them serial. -/
abbrev SerialStep (ctx : HookContext) (world : World) (arrival : Arrival) (world' : World) : Prop :=
  World.Step ctx world arrival world' ∧ Serial world arrival

theorem prefix_of_path {arrivals : List Arrival} (path : Path (SerialStep ctx) world arrivals world') :
    world.notes <+: world'.notes := by
  induction path with
  | nil => exact List.prefix_refl _
  | cons first _ ih =>
    obtain ⟨⟨-, rfl⟩, -⟩ := first
    exact (prefix_notes _ _).trans ih

theorem Lawful.run {arrivals : List Arrival} (path : Path (SerialStep ctx) world arrivals world')
    (lawful : Lawful ctx world) (older : Reasoning.LegacyRoundTrips ctx.serde ctx.legacy)
    (faithful : Faithful ctx world'.notes) : Lawful ctx world' := by
  induction path with
  | nil => exact lawful
  | cons first rest ih =>
    have earlier := faithful.of_prefix (prefix_of_path rest)
    exact ih (lawful.step older first.1 first.2 earlier) faithful

/-- As long as a tool that changes files arrives, and passes the gates after the policy, only when no
call that was let through waits for its observation, at most one is let through between two
consecutive attempts of a run. The events that are recorded are read back as they were written. -/
theorem one_mutation_per_attempt (ctx : HookContext) (arrivals : List Arrival) (world : World)
    (path : Path (SerialStep ctx) (World.start ctx) arrivals world) (faithful : Faithful ctx world.notes) :
    OnePerAttempt world.notes := by
  apply onePerAttempt_of_placed
  refine (Lawful.run path (lawful_start ctx) ?_ faithful).placed
  intro ledger loaded event member
  refine faithful event ((prefix_of_path path).subset ?_)
  rw [World.start, World.legacyEvents, loaded]
  exact List.mem_map.mpr ⟨event, member, rfl⟩

/-! ## Two calls for one attempt -/

/-- A context in which some events are read back, and an older ledger of some of them. -/
def sampleContext (events older : List ReasoningEvent) : HookContext :=
  { serde := Reasoning.sampleSerde events ⟨Reasoning.format, none, (∅ : Runs).insert "r" older⟩
    legacy := if older = [] then none else
      some (utf8 (Reasoning.jsonObject [("format", "1"),
        ("runs", Reasoning.jsonObject [("r", Reasoning.jsonArray (older.map Reasoning.eventJson))])]))
    harness := none
    toVec := fun _ => utf8 "\x7b\"tool_name\":\"Edit\"\x7d"
    shown := fun _ => "" }

def sampleInput : Value := .object [("tool_name", .string "Edit")]

/-- A run with two attempts, of which the first is observed by the hook. -/
def samplePayloads : List (Millis × String × ReasoningPayload) :=
  [(1, "a", .goal "g" ["x"]), (2, "a", .plan "p" ["x"]), (3, "a", .attempt "t" []),
    (4, "hook:unknown", .observation "observed result of declared Edit attempt"
      [resultEvidence (sampleContext [] []) sampleInput]),
    (5, "a", .decision .continue "c"), (6, "a", .attempt "t" [])]

def sampleEvents : List ReasoningEvent :=
  (ReasoningRun.after { id := "r", events := [], state := .empty, lastVerificationPassed := none }
    samplePayloads).events

/-- A call of the tool, with all gates open. -/
def sampleEdit : Arrival :=
  .preToolUse { projection := .ok none, routing := .ok "built generation 1", workflow := fun _ => .notPackage }
    sampleInput

def sampleCall (attempt : Millis × String × ReasoningPayload) : Arrival :=
  .recordReasoning ⟨"r", attempt.1, attempt.2.1, attempt.2.2⟩

/-- The first attempt is declared, the tool is called twice before its result arrives, and the second
attempt is declared. -/
def sampleArrivals : List Arrival :=
  (samplePayloads.take 3).map sampleCall ++ [sampleEdit, sampleEdit, .postToolUse 4 sampleInput] ++
    (samplePayloads.drop 4).map sampleCall

/-- An engine after a commit that it accepts. After the checks nothing fails, so what the commit queues
and what the audit says of it need not be looked at. -/
def afterCommit (engine : MemoryEngine) (commit : RuntimeCommit) : Option MemoryEngine :=
  match engine.checkCommit commit, engine.insertEach (commitClaims commit) with
  | .ok (), (.ok (), stored) =>
    let commitId := commit.digest
    let start := UInt64.ofNat engine.runtimeChanges.length
    let lastCursor := start + UInt64.ofNat commit.mutations.length
    let work := (commitWork commit commitId start commit.mutations 0).toOption.getD []
    let audit := (AuditEnvelope.acceptedCommit commit commitId lastCursor stored.runtimeLastAuditDigest).toOption.getD
      (AuditEnvelope.ofCommit commit commitId lastCursor stored.runtimeLastAuditDigest)
    some (stored.publish commit
      (commit.changesAfter commitId start (stored.runtimeChanges.getLast?.map (·.digest))) work audit
      (MemoryEngine.outcome commit start (UInt64.ofNat engine.order.length) work))
  | _, _ => none

theorem commitRuntime_of_afterCommit {engine next : MemoryEngine} {commit : RuntimeCommit} (sound : engine.Sound)
    (room : engine.Room commit) (admitted : afterCommit engine commit = some next) :
    ∃ outcome, engine.commitRuntime commit = (.ok outcome, next) ∧ engine.Accepts commit outcome next := by
  rcases MemoryEngine.commitRuntime_cases sound room with ⟨e, refused, -⟩ | ⟨outcome, next', committed, accepts⟩
  · simp [afterCommit, refused] at admitted
  · have applied := committed
    simp only [MemoryEngine.commitRuntime, accepts.checked, MemoryEngine.applyCommit] at applied
    simp only [afterCommit, accepts.checked] at admitted
    rcases inserted : engine.insertEach (commitClaims commit) with ⟨result, stored⟩
    rw [inserted] at applied admitted
    cases result with
    | error e => cases admitted
    | ok =>
      dsimp only at applied admitted
      cases queued : commitWork commit commit.digest (UInt64.ofNat engine.runtimeChanges.length) commit.mutations 0 with
      | error e => simp [queued] at applied
      | ok work =>
        rw [queued] at applied admitted
        dsimp only at applied
        cases sealed : AuditEnvelope.acceptedCommit commit commit.digest (UInt64.ofNat engine.runtimeChanges.length +
            UInt64.ofNat commit.mutations.length) stored.runtimeLastAuditDigest with
        | error e => simp [sealed] at applied
        | ok audit =>
          rw [sealed] at applied admitted
          simp only [Prod.mk.injEq, Except.ok.injEq, Option.some.injEq] at applied admitted
          have same : next' = next := applied.2.symm.trans admitted
          exact ⟨outcome, same ▸ committed, same ▸ accepts⟩

/-- A call whose commit has room and is accepted. -/
def World.advanceCall (ctx : HookContext) (world : World) : Option Reasoning.Call → Option World
  | none => some world
  | some call =>
    match Reasoning.propose ctx.serde ctx.legacy world.engine call.runId call.at_ call.actor call.payload with
    | .error _ => none
    | .ok (event, commit) =>
      if world.engine.runtimeChanges.length + commit.mutations.length < 2 ^ 63 then
        (afterCommit world.engine commit).map fun engine => ⟨engine, world.notes ++ [.recorded event]⟩
      else none

/-- An arrival of this store alone. -/
def World.advance (ctx : HookContext) (world : World) (arrival : Arrival) : Option World :=
  match arrival with
  | .commit _ => none
  | .preToolUse _ _ => some (world.next ctx arrival)
  | _ => world.advanceCall ctx (world.callOf ctx arrival)

theorem call_of_advanceCall {made : Option Reasoning.Call} (sound : world.engine.Sound)
    (advanced : world.advanceCall ctx made = some world') :
    (∀ call, made = some call → ∀ event commit, Reasoning.propose ctx.serde ctx.legacy world.engine call.runId
        call.at_ call.actor call.payload = .ok (event, commit) → world.engine.Room commit) ∧
      world' = made.elim world (world.record ctx) ∧ world'.engine.Sound := by
  cases made with
  | none =>
    cases advanced
    exact ⟨nofun, rfl, sound⟩
  | some call =>
    cases proposed : Reasoning.propose ctx.serde ctx.legacy world.engine call.runId call.at_ call.actor
        call.payload with
    | error e => simp [World.advanceCall, proposed] at advanced
    | ok found =>
      obtain ⟨event, commit⟩ := found
      simp only [World.advanceCall, proposed, Option.ite_none_right_eq_some, Option.map_eq_some_iff] at advanced
      obtain ⟨room, engine, admitted, rfl⟩ := advanced
      obtain ⟨outcome, committed, accepts⟩ := commitRuntime_of_afterCommit sound room admitted
      refine ⟨?_, ?_, accepts.sound sound room⟩
      · rintro _ ⟨⟩ event' commit' same
        rw [proposed] at same
        cases same
        exact room
      · simp only [Option.elim, World.record, recordCall, Reasoning.record, proposed, committed]

theorem step_of_advance {arrival : Arrival} (sound : world.engine.Sound)
    (advanced : world.advance ctx arrival = some world') :
    World.Step ctx world arrival world' ∧ world'.engine.Sound := by
  cases arrival with
  | preToolUse gates input =>
    cases advanced
    refine ⟨⟨trivial, rfl⟩, ?_⟩
    simp only [World.next]
    split
    · exact sound
    · exact sound
  | postToolUse now input =>
    obtain ⟨room, same, later⟩ := call_of_advanceCall sound advanced
    exact ⟨⟨room, same⟩, later⟩
  | recordReasoning call =>
    have called : world.advanceCall ctx (some call) = some world' := advanced
    obtain ⟨room, same, later⟩ := call_of_advanceCall sound called
    exact ⟨⟨room, same⟩, later⟩
  | commit commit => cases advanced

theorem path_of_advances {arrivals : List Arrival} (sound : world.engine.Sound)
    (advanced : arrivals.foldlM (World.advance ctx) world = some world') :
    Path (World.Step ctx) world arrivals world' := by
  induction arrivals generalizing world with
  | nil =>
    rw [List.foldlM_nil] at advanced
    cases advanced
    exact .nil _
  | cons arrival arrivals ih =>
    rw [List.foldlM_cons] at advanced
    obtain ⟨between, first, rest⟩ := Option.bind_eq_some_iff.mp advanced
    obtain ⟨step, later⟩ := step_of_advance sound first
    exact .cons step (ih later rest)

theorem sampleEvents_eq : sampleEvents =
    [⟨"r", 1, 1, "a", .goal "g" ["x"], none, "be88e3f86dd411f8f23a0af0ea0533df620272262903e24f7210bc745e02578e"⟩,
      ⟨"r", 2, 2, "a", .plan "p" ["x"], some "be88e3f86dd411f8f23a0af0ea0533df620272262903e24f7210bc745e02578e",
        "c6e01ba148e046f0a542a4ce8bcbfa5718d183bc17f3fc8cb2f64fcd233ce777"⟩,
      ⟨"r", 3, 3, "a", .attempt "t" [], some "c6e01ba148e046f0a542a4ce8bcbfa5718d183bc17f3fc8cb2f64fcd233ce777",
        "fa3e183b3b32f7d03c903d08204466a94c349f618b2d5b5ff8247b55066a3376"⟩,
      ⟨"r", 4, 4, "hook:unknown", .observation "observed result of declared Edit attempt"
          [⟨"Edit:unreported target", "489073b3d4e801ba2bdf5c242dcf551efb277fffe2b43a3c7ab8653514ce1ca7",
            "Edit hook result captured"⟩],
        some "fa3e183b3b32f7d03c903d08204466a94c349f618b2d5b5ff8247b55066a3376",
        "60037cdff4e498c4c305eb3b60616da53d6932f0cfc5240d5a35a7d8edf4665f"⟩,
      ⟨"r", 5, 5, "a", .decision .continue "c",
        some "60037cdff4e498c4c305eb3b60616da53d6932f0cfc5240d5a35a7d8edf4665f",
        "4a00e36309d7607ea7a883826e7161c482531d35e5fd932e8583b04c8d6b81a1"⟩,
      ⟨"r", 6, 6, "a", .attempt "t" [], some "4a00e36309d7607ea7a883826e7161c482531d35e5fd932e8583b04c8d6b81a1",
        "a7dc6aed3dbbdd38ac1d5819da28e859d908c199b08251264f906352feb71a55"⟩] := by
  decide +kernel

theorem sample_faithful (older : List ReasoningEvent) :
    ∀ event ∈ sampleEvents, Reasoning.RoundTrips (sampleContext sampleEvents older).serde event := by
  apply Reasoning.roundTrips_sampleSerde
  rw [sampleEvents_eq]
  decide +kernel

theorem sampleEvents_kinds : sampleEvents.map (fun event => (event.runId, event.isAttempt)) =
    [("r", false), ("r", false), ("r", true), ("r", false), ("r", false), ("r", true)] := by
  rw [sampleEvents_eq]
  decide +kernel

/-- Two calls stand between the attempts. The first attempt and what leads to it are in the older
ledger. -/
theorem sample_notes :
    ((sampleArrivals.drop 3).foldlM (World.advance (sampleContext sampleEvents (sampleEvents.take 3)))
        (World.start (sampleContext sampleEvents (sampleEvents.take 3)))).map (·.notes) =
      some ((sampleEvents.take 3).map .recorded ++ [.allowed "Edit", .allowed "Edit"] ++
        (sampleEvents.drop 3).map .recorded) := by
  rw [sampleEvents_eq]
  decide +kernel

/-- The hook lets two calls through for the first attempt of the run. -/
theorem two_mutations_for_one_attempt : ∃ ctx arrivals world,
    Path (World.Step ctx) (World.start ctx) arrivals world ∧ Faithful ctx world.notes ∧
      ¬ OnePerAttempt world.notes := by
  obtain ⟨world, advanced, notes⟩ := Option.map_eq_some_iff.mp sample_notes
  have faithful : Faithful (sampleContext sampleEvents (sampleEvents.take 3)) world.notes := by
    intro event member
    apply sample_faithful
    rw [notes] at member
    simp only [List.mem_append, List.mem_map, Note.recorded.injEq, exists_eq_right, List.mem_cons, reduceCtorEq,
      List.not_mem_nil, or_false] at member
    rcases member with early | late
    · exact List.mem_of_mem_take early
    · exact List.mem_of_mem_drop late
  refine ⟨_, _, world, path_of_advances (lawful_start _).sound advanced, faithful, ?_⟩
  intro once
  have kinds := sampleEvents_kinds
  rw [notes] at once
  simp only [List.map_eq_cons_iff, List.map_eq_nil_iff, Prod.mk.injEq] at kinds
  obtain ⟨goal, _, all, -, plan, _, rfl, -, first, _, rfl, ⟨own, attempt⟩, observation, _, rfl, ⟨-, observes⟩,
    decision, _, rfl, ⟨-, decides⟩, second, _, rfl, ⟨same, next⟩, rfl⟩ := kinds
  rw [all] at once
  have few := once [.recorded goal, .recorded plan] first
    [.allowed "Edit", .allowed "Edit", .recorded observation, .recorded decision] second [] rfl attempt next
    (same.trans own.symm) (by simp [Note.isAttemptOf, observes, decides])
  simp [Note.isAllowed] at few

/-- The tool is called once for the attempt that an older ledger ends with. -/
theorem one_mutation_per_attempt_sample :
    ∃ world, World.Step (sampleContext sampleEvents (sampleEvents.take 3))
        (World.start (sampleContext sampleEvents (sampleEvents.take 3))) sampleEdit world ∧
      world.notes = (sampleEvents.take 3).map .recorded ++ [.allowed "Edit"] ∧ OnePerAttempt world.notes := by
  have notes : (World.next (sampleContext sampleEvents (sampleEvents.take 3))
      (World.start (sampleContext sampleEvents (sampleEvents.take 3))) sampleEdit).notes =
        (sampleEvents.take 3).map .recorded ++ [.allowed "Edit"] := by
    rw [sampleEvents_eq]
    decide +kernel
  have serial : outstanding (World.start (sampleContext sampleEvents (sampleEvents.take 3))).notes = false := by
    rw [sampleEvents_eq]
    decide +kernel
  refine ⟨_, ⟨trivial, rfl⟩, notes, ?_⟩
  apply one_mutation_per_attempt _ [sampleEdit] _ (.cons ⟨⟨trivial, rfl⟩, fun _ _ _ => serial⟩ (.nil _))
  intro event member
  apply sample_faithful
  rw [notes] at member
  simp only [List.mem_append, List.mem_map, Note.recorded.injEq, exists_eq_right, List.mem_cons, reduceCtorEq,
    List.not_mem_nil, or_false] at member
  exact List.mem_of_mem_take member

end Vyrm.Node.Hook
