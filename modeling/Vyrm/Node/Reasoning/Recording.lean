import Vyrm.Node.Reasoning.Stored

/-!
# What a recorded event does

A ledger that is loaded holds valid runs, of which at most one is not complete. What is recorded is
the next event of such a run, and the commit that carries it is made for the log that was read.
-/

namespace Vyrm.Node.Reasoning
open Lib Vyrm.Core Vyrm.Store

variable {serde : Serde} {legacy : Option Bytes} {engine next : MemoryEngine} {ledger : Ledger} {migrate : Bool}

/-! ## Valid runs -/

/-- A stored run that is not complete. -/
def Open (runs : Runs) (id : String) : Prop :=
  ∃ (events : List ReasoningEvent) (run : ReasoningRun),
    runs[id]? = some events ∧ ReasoningRun.replay events = .ok run ∧ run.state ≠ .complete

/-- Runs that all replay with their own id, with the one that is not complete. -/
structure Valid (runs : Runs) (active : Option String) : Prop where
  replays : ∀ (id : String) (events : List ReasoningEvent), runs[id]? = some events →
    ∃ run, ReasoningRun.replay events = .ok run ∧ run.id = id
  active : ∀ id, active = some id ↔ Open runs id

/-- Entries that all replay with their own id. -/
def Replays (pairs : List (String × List ReasoningEvent)) : Prop :=
  ∀ pair ∈ pairs, ∃ run, ReasoningRun.replay pair.2 = .ok run ∧ run.id = pair.1

/-- The entries that replay and are not complete. -/
def incomplete (pairs : List (String × List ReasoningEvent)) : List String :=
  (pairs.filter fun pair => (ReasoningRun.replay pair.2).toOption.any fun run => run.state ≠ .complete).map Prod.fst

theorem validateRuns_ok {pairs : List (String × List ReasoningEvent)} {active found : Option String}
    (validated : validateRuns pairs active = .ok found) :
    Replays pairs ∧ found.toList = active.toList ++ incomplete pairs := by
  induction pairs generalizing active with
  | nil =>
    cases validated
    simp [Replays, incomplete]
  | cons pair pairs ih =>
    obtain ⟨id, events⟩ := pair
    unfold validateRuns at validated
    split at validated
    · cases validated
    · rename_i run replayed
      rw [except_reject_ok, not_not] at validated
      obtain ⟨same, validated⟩ := validated
      by_cases done : run.state = .complete
      · rw [if_pos done] at validated
        obtain ⟨rest, found⟩ := ih validated
        refine ⟨List.forall_mem_cons.mpr ⟨⟨run, replayed, same⟩, rest⟩, ?_⟩
        rw [found]
        simp [incomplete, replayed, done, Except.toOption]
      · rw [if_neg done] at validated
        split at validated
        · cases validated
        · obtain ⟨rest, found⟩ := ih validated
          refine ⟨List.forall_mem_cons.mpr ⟨⟨run, replayed, same⟩, rest⟩, ?_⟩
          rw [found]
          simp [incomplete, replayed, done, Except.toOption]

theorem validateLedger_ok {found : Ledger} (validated : validateLedger found = .ok ledger) :
    ledger.runs = found.runs ∧ Valid ledger.runs ledger.active := by
  simp only [validateLedger, except_throw, except_error_bind, except_reject_ok, except_bind_ok] at validated
  obtain ⟨-, active, validated, made⟩ := validated
  cases made
  obtain ⟨replays, one⟩ := validateRuns_ok validated
  refine ⟨rfl, ?_, ?_⟩
  · intro id events stored
    exact replays (id, events) (Std.ExtTreeMap.mem_toList_iff_getElem?_eq_some.mpr stored)
  · intro id
    have member : active = some id ↔ id ∈ incomplete found.runs.toList := by
      have same : active.toList = incomplete found.runs.toList := one
      rw [← same]
      simp
    rw [member]
    simp only [incomplete, List.mem_map, List.mem_filter, Prod.exists, Open,
      Std.ExtTreeMap.mem_toList_iff_getElem?_eq_some, Option.any_eq_true, except_toOption_eq_some]
    simp

theorem Valid.empty : Valid ∅ none where
  replays := by simp
  active := by simp [Open]

/-- At most one run is not complete. -/
theorem Valid.open_unique {runs : Runs} {active : Option String} (valid : Valid runs active) {a b : String}
    (first : Open runs a) (second : Open runs b) : a = b := by
  have same := (valid.active a).mpr first
  rw [(valid.active b).mpr second, Option.some.injEq] at same
  exact same.symm

/-- The events of a run carry its id. -/
theorem runId_of_path {run run' : ReasoningRun} {events : List ReasoningEvent}
    (path : Path ReasoningRun.Step run events run') :
    run'.id = run.id ∧ ∀ event ∈ events, event.runId = run.id := by
  induction path with
  | nil => simp
  | @cons run next _ event rest first _ ih =>
    obtain ⟨made, -, same⟩ := first.spec
    have id : next.id = run.id := by rw [same]
    have own : event.runId = run.id := by rw [made, ReasoningRun.nextEvent]
    rw [id] at ih
    exact ⟨ih.1, List.forall_mem_cons.mpr ⟨own, ih.2⟩⟩

theorem runId_of_replay {run : ReasoningRun} {events : List ReasoningEvent}
    (replayed : ReasoningRun.replay events = .ok run) : events ≠ [] ∧ ∀ event ∈ events, event.runId = run.id := by
  obtain ⟨some_, id, start, -, path⟩ := ReasoningRun.replay_ok_iff.mp replayed
  obtain ⟨same, own⟩ := runId_of_path path
  rw [same]
  exact ⟨some_, own⟩

theorem Valid.named {runs : Runs} {active : Option String} (valid : Valid runs active) : Named runs := by
  intro id events stored
  obtain ⟨run, replayed, rfl⟩ := valid.replays id events stored
  exact runId_of_replay replayed

/-! ## The ledger of a log -/

/-- What a log and the older ledger say is the ledger, and whether it is the older one. -/
def view (serde : Serde) (legacy : Option Bytes) (log : List RuntimeChange) : Except Error (Ledger × Bool) := do
  let reading ← stored serde log
  let found ← foundLedger reading
  orLegacy serde legacy found

theorem load_eq (serde : Serde) (legacy : Option Bytes) (sound : engine.Sound) :
    load serde legacy engine = do
      let (ledger, migrate) ← view serde legacy engine.runtimeChanges
      return (ledger, migrate, engine.head) := by
  rw [load, loadRuntime_eq serde sound, view]
  simp only [bind_assoc, except_pure, except_ok_bind]

/-- A change that leaves no event behind leaves all as it was. -/
theorem absorb_false {change : RuntimeChange} {reading next : Runs × Bool}
    (absorbed : absorb serde reading change = .ok next) (none : next.2 = false) : next = reading := by
  unfold absorb at absorbed
  split at absorbed
  · split at absorbed
    · cases absorbed
      rfl
    · dsimp only at absorbed
      split at absorbed
      · simp only [except_throw, except_error_bind, except_bind_ok, except_reject_ok] at absorbed
        obtain ⟨event, -, reference, -, -, made⟩ := absorbed
        cases made
        cases none
      · cases absorbed
  · cases absorbed
    rfl

theorem foldlM_absorb_false {changes : List RuntimeChange} {reading next : Runs × Bool}
    (absorbed : changes.foldlM (absorb serde) reading = .ok next) (none : next.2 = false) : next = reading := by
  induction changes generalizing reading with
  | nil =>
    cases absorbed
    rfl
  | cons change changes ih =>
    obtain ⟨middle, first, rest⟩ := except_bind_ok.mp absorbed
    obtain rfl := ih rest
    exact absorb_false first none

/-- A log without an event has no runs. -/
theorem stored_none {log : List RuntimeChange} {runs : Runs} (read : stored serde log = .ok (runs, false)) :
    runs = ∅ := by
  have same := foldlM_absorb_false read rfl
  rw [Prod.mk.injEq] at same
  exact same.1

/-- Where a ledger was found. -/
structure View (serde : Serde) (legacy : Option Bytes) (log : List RuntimeChange) (ledger : Ledger)
    (migrate : Bool) : Prop where
  valid : Valid ledger.runs ledger.active
  source : stored serde log = .ok (ledger.runs, true) ∧ migrate = false ∨
    stored serde log = .ok (∅, false) ∧ loadLegacy serde legacy = .ok ledger ∧ migrate = ! ledger.runs.isEmpty

theorem view_ok {log : List RuntimeChange} (found : view serde legacy log = .ok (ledger, migrate)) :
    View serde legacy log ledger migrate := by
  obtain ⟨⟨runs, any⟩, read, found⟩ := except_bind_ok.mp found
  obtain ⟨runtime, made, found⟩ := except_bind_ok.mp found
  cases any with
  | true =>
    obtain ⟨whole, validated, made⟩ := except_bind_ok.mp made
    cases made
    cases found
    obtain ⟨same, valid⟩ := validateLedger_ok validated
    refine ⟨valid, .inl ⟨?_, rfl⟩⟩
    rw [same]
    exact read
  | false =>
    cases made
    obtain ⟨older, loaded, found⟩ := except_bind_ok.mp found
    cases found
    refine ⟨?_, .inr ⟨?_, loaded, rfl⟩⟩
    · unfold loadLegacy at loaded
      split at loaded
      · cases loaded
        exact Valid.empty
      · split at loaded
        · cases loaded
        · exact (validateLedger_ok loaded).2
    · rw [read, stored_none read]

/-! ## Preparing a commit -/

theorem runRecord_ok {run : ReasoningRun} {mutation : RuntimeMutation} (made : runRecord run = .ok mutation) :
    ∀ event, mutation ≠ .event event := by
  unfold runRecord at made
  split at made
  · obtain ⟨reference, -, made⟩ := except_bind_ok.mp made
    cases made
    simp
  · cases made

theorem migrateRun_ok {events : List ReasoningEvent} {mutations : List RuntimeMutation}
    (made : migrateRun serde events = .ok mutations) : Carries serde mutations events := by
  simp only [migrateRun, except_bind_ok] at made
  obtain ⟨run, replayed, record, recorded, historical, carried, made⟩ := made
  cases made
  have same : run.events = events := by
    cases replays : ReasoningRun.replay events with
    | error e =>
      rw [replays] at replayed
      cases replayed
    | ok found =>
      rw [replays] at replayed
      cases replayed
      exact (ReasoningRun.replay_ok_iff.mp replays).2.events_eq
  rw [← same]
  exact .skip (runRecord_ok recorded) (carries_mapM carried)

theorem migrateRuns_ok {runs : List (List ReasoningEvent)} {mutations : List (List RuntimeMutation)}
    (made : runs.mapM (migrateRun serde) = .ok mutations) : Carries serde mutations.flatten runs.flatten := by
  induction runs generalizing mutations with
  | nil =>
    cases made
    exact .nil
  | cons events runs ih =>
    rw [List.mapM_cons] at made
    obtain ⟨first, migrated, rest⟩ := except_bind_ok.mp made
    obtain ⟨others, more, rest⟩ := except_bind_ok.mp rest
    cases rest
    exact (migrateRun_ok migrated).append (ih more)

/-- What a call records: the next event of a run of the ledger. -/
structure Records (ledger : Ledger) (call : Call) (run : ReasoningRun) (event : ReasoningEvent)
    (run' : ReasoningRun) : Prop where
  admitted : checkActive ledger call.runId call.payload = .ok ()
  opened : openRun ledger call.runId = .ok run
  appended : run.append call.at_ call.actor call.payload = (.ok event, run')

theorem prepare_ok {call : Call} {event : ReasoningEvent} {mutations : List RuntimeMutation}
    (prepared : prepare serde ledger migrate call.runId call.at_ call.actor call.payload = .ok (event, mutations)) :
    ∃ run run', Records ledger call run event run' ∧
      Carries serde mutations
        (if migrate then (OrdMap.values (ledger.runs.insert call.runId run'.events)).flatten else [event]) := by
  obtain ⟨⟨⟩, admitted, prepared⟩ := except_bind_ok.mp prepared
  obtain ⟨run, opened, prepared⟩ := except_bind_ok.mp prepared
  split at prepared
  · cases prepared
  · rename_i recorded run' appended
    cases migrate with
    | true =>
      obtain ⟨migrated, made, prepared⟩ := except_bind_ok.mp prepared
      cases prepared
      exact ⟨run, run', ⟨admitted, opened, appended⟩, migrateRuns_ok made⟩
    | false =>
      obtain ⟨record, recorded, prepared⟩ := except_bind_ok.mp prepared
      obtain ⟨mutation, made, prepared⟩ := except_bind_ok.mp prepared
      cases prepared
      exact ⟨run, run', ⟨admitted, opened, appended⟩, .skip (runRecord_ok recorded) (.event made .nil)⟩

/-- The schema of a commit is no event. -/
theorem carries_commitOf {current : Option RuntimeSchemaRegistry} {observed : UInt64} {at_ : Millis}
    {actor : String} {mutations : List RuntimeMutation} {events : List ReasoningEvent}
    (carries : Carries serde mutations events) :
    Carries serde (commitOf current observed at_ actor mutations).mutations events := by
  unfold commitOf
  cases schemaUpdate current with
  | none => exact carries
  | some registry => exact .skip (by simp) carries

namespace Records

variable {call : Call} {run run' : ReasoningRun} {event : ReasoningEvent}
  (records : Records ledger call run event run') (valid : Valid ledger.runs ledger.active)
include records

theorem step : ReasoningRun.Step run event run' := ⟨_, _, _, records.appended⟩

/-- The event says what the call was made with. -/
theorem fields : event.at_ = call.at_ ∧ event.actor = call.actor ∧ event.payload = call.payload := by
  have appended := records.appended
  unfold ReasoningRun.append at appended
  split at appended
  · cases appended
  · rw [Prod.mk.injEq, Except.ok.injEq] at appended
    rw [← appended.1]
    exact ⟨rfl, rfl, rfl⟩

include valid

/-- The run that is opened is the stored one, or has no event yet. -/
theorem opens : ReasoningRun.Produced run.events run ∧ run.id = call.runId ∧
    run.events = ledger.runs[call.runId]?.getD [] := by
  have opened := records.opened
  unfold openRun at opened
  split at opened
  · rename_i events stored
    obtain ⟨found, replayed, same⟩ := valid.replays call.runId events stored
    rw [replayed] at opened
    cases opened
    have produced := (ReasoningRun.replay_ok_iff.mp replayed).2
    rw [produced.events_eq, stored]
    exact ⟨produced, same, rfl⟩
  · rename_i none
    rw [none]
    cases created : ReasoningRun.empty call.runId with
    | error e =>
      rw [created] at opened
      cases opened
    | ok start =>
      rw [created] at opened
      cases opened
      have fields := ReasoningRun.empty_ok created
      refine ⟨⟨call.runId, run, created, ?_⟩, ?_, ?_⟩
      · rw [fields]
        exact .nil _
      · rw [fields]
      · rw [fields]
        rfl

theorem runId_eq : event.runId = call.runId ∧ run'.id = call.runId := by
  obtain ⟨-, id, -⟩ := records.opens valid
  obtain ⟨made, -, same⟩ := records.step.spec
  constructor
  · rw [made, ReasoningRun.nextEvent]
    exact id
  · rw [same]
    exact id

/-- The run with the event replays. -/
theorem replay : ReasoningRun.replay run'.events = .ok run' := by
  obtain ⟨⟨id, start, created, path⟩, -, -⟩ := records.opens valid
  have events := records.step.events_eq
  refine ReasoningRun.replay_ok_iff.mpr ⟨by simp [events], id, start, created, ?_⟩
  rw [events]
  exact path.concat records.step

/-- No other run is open. -/
theorem only_open {id : String} (open_ : Open ledger.runs id) : id = call.runId := by
  have active := (valid.active id).mpr open_
  have admitted := records.admitted
  unfold checkActive at admitted
  split at admitted
  · split at admitted
    · cases admitted
    · rw [active] at admitted
      cases admitted
  · rw [except_reject_ok, not_not, active] at admitted
    exact Option.some.inj admitted.1

/-- The runs with the event are valid, and at most its run is open. -/
theorem valid_insert : Valid (ledger.runs.insert call.runId run'.events)
    (if run'.state = .complete then none else some call.runId) := by
  have replayed := records.replay valid
  have opens : ∀ id, Open (ledger.runs.insert call.runId run'.events) id ↔ id = call.runId ∧ run'.state ≠ .complete := by
    intro id
    by_cases same : call.runId = id
    · subst same
      simp [Open, replayed]
    · have only : ¬ Open ledger.runs id := fun open_ => same (records.only_open valid open_).symm
      have kept : Open (ledger.runs.insert call.runId run'.events) id ↔ Open ledger.runs id := by
        simp only [Open, OrdMap.getElem?_insert_of_ne same]
      simp [kept, only, Ne.symm same]
  constructor
  · intro id events stored
    by_cases same : call.runId = id
    · subst same
      rw [OrdMap.getElem?_insert_self, Option.some.injEq] at stored
      subst stored
      exact ⟨run', replayed, (records.runId_eq valid).2⟩
    · rw [OrdMap.getElem?_insert_of_ne same] at stored
      exact valid.replays id events stored
  · intro id
    rw [opens]
    by_cases done : run'.state = .complete
    · simp [done]
    · rw [if_neg done, Option.some.injEq, eq_comm]
      simp [done]

/-- Pushing the event gives the runs with it. -/
theorem push_eq : push ledger.runs event = ledger.runs.insert call.runId run'.events := by
  rw [push, (records.runId_eq valid).1, records.step.events_eq, (records.opens valid).2.2]

omit valid in
/-- A run that has events is the active one. -/
theorem active_of_stored {events : List ReasoningEvent} (stored : ledger.runs[call.runId]? = some events) :
    ledger.active = some call.runId := by
  have admitted := records.admitted
  unfold checkActive at admitted
  split at admitted
  · simp [stored] at admitted
  · rw [except_reject_ok, not_not] at admitted
    exact admitted.1

omit valid in
/-- The event is among those of all runs with it. -/
theorem event_mem : event ∈ (OrdMap.values (ledger.runs.insert call.runId run'.events)).flatten := by
  have here : run'.events ∈ OrdMap.values (ledger.runs.insert call.runId run'.events) :=
    OrdMap.mem_values.mpr ⟨call.runId, OrdMap.getElem?_insert_self _ _ _⟩
  exact List.mem_flatten.mpr ⟨_, here, by simp [records.step.events_eq]⟩

/-- The others are those of the ledger. -/
theorem mem_ledger {other : ReasoningEvent}
    (member : other ∈ (OrdMap.values (ledger.runs.insert call.runId run'.events)).flatten) :
    other = event ∨ other ∈ (OrdMap.values ledger.runs).flatten := by
  obtain ⟨events, found, member⟩ := List.mem_flatten.mp member
  obtain ⟨id, found⟩ := OrdMap.mem_values.mp found
  by_cases same : call.runId = id
  · subst same
    rw [OrdMap.getElem?_insert_self, Option.some.injEq] at found
    subst found
    rw [records.step.events_eq, (records.opens valid).2.2, List.mem_append, List.mem_singleton] at member
    rcases member with before | last
    · cases stored : ledger.runs[call.runId]? with
      | none => simp [stored] at before
      | some events =>
        rw [stored] at before
        exact .inr (List.mem_flatten.mpr ⟨events, OrdMap.mem_values.mpr ⟨call.runId, stored⟩, before⟩)
    · exact .inl last
  · rw [OrdMap.getElem?_insert_of_ne same] at found
    exact .inr (List.mem_flatten.mpr ⟨events, OrdMap.mem_values.mpr ⟨id, found⟩, member⟩)

end Records

/-! ## Recording -/

/-- What an accepted call does: its event is the next one of a run of the ledger of the log it was made
for, and the commit that the engine accepts carries it. -/
structure Recorded (serde : Serde) (legacy : Option Bytes) (engine : MemoryEngine) (call : Call) (event : ReasoningEvent) (next : MemoryEngine) (ledger : Ledger)
    (migrate : Bool) (run run' : ReasoningRun) : Prop where
  view : View serde legacy engine.runtimeChanges ledger migrate
  records : Records ledger call run event run'
  sound : next.Sound
  accepts : ∃ commit outcome, engine.Accepts commit outcome next ∧ commit.scope = scope ∧
    Carries serde commit.mutations
      (if migrate then (OrdMap.values (ledger.runs.insert call.runId run'.events)).flatten else [event])

/-- The changes of an accepted commit of the reasoning scope push the events that it carries. -/
theorem stored_accepts {commit : RuntimeCommit} {outcome : RuntimeCommitOutcome} {events : List ReasoningEvent}
    {reading : Runs × Bool} (accepts : engine.Accepts commit outcome next) (here : commit.scope = scope)
    (carries : Carries serde commit.mutations events) (faithful : ∀ event ∈ events, RoundTrips serde event)
    (read : stored serde engine.runtimeChanges = .ok reading) :
    stored serde next.runtimeChanges = .ok (events.foldl push reading.1, reading.2 || ! events.isEmpty) := by
  have all : (engine.appended commit).filter (fun change => scope = change.scope) = engine.appended commit := by
    rw [List.filter_eq_self]
    intro change member
    simp [MemoryEngine.Accepts.scope_appended engine commit change member, here]
  rw [accepts.changes, stored_append, read, except_ok_bind, all]
  exact carries.absorb map_mutation_changesAfter faithful reading

/-- The events of the older ledger are read back as they were written. -/
def LegacyRoundTrips (serde : Serde) (legacy : Option Bytes) : Prop :=
  ∀ ledger, loadLegacy serde legacy = .ok ledger →
    ∀ event ∈ (OrdMap.values ledger.runs).flatten, RoundTrips serde event

/-- The log of the next engine has the runs of the ledger, and the event. -/
theorem Recorded.stored {call : Call} {event : ReasoningEvent} {run run' : ReasoningRun}
    (recorded : Recorded serde legacy engine call event next ledger migrate run run')
    (faithful : RoundTrips serde event) (older : LegacyRoundTrips serde legacy) :
    stored serde next.runtimeChanges = .ok (ledger.runs.insert call.runId run'.events, true) := by
  obtain ⟨⟨valid, source⟩, records, -, commit, outcome, accepts, here, carries⟩ := recorded
  have one : ∀ {reading : Runs × Bool}, Carries serde commit.mutations [event] → reading.1 = ledger.runs →
      Reasoning.stored serde engine.runtimeChanges = .ok reading →
      Reasoning.stored serde next.runtimeChanges = .ok (ledger.runs.insert call.runId run'.events, true) := by
    intro reading carries same read
    rw [stored_accepts accepts here carries (by simpa using faithful) read, List.foldl_cons, List.foldl_nil, same,
      records.push_eq valid]
    simp
  rcases source with ⟨read, rfl⟩ | ⟨read, loaded, rfl⟩
  · exact one carries rfl read
  · cases none : ledger.runs.isEmpty with
    | true =>
      rw [none] at carries
      exact one carries (Std.ExtTreeMap.isEmpty_iff.mp none).symm read
    | false =>
      rw [none, if_pos (by rfl)] at carries
      have trips : ∀ event ∈ (OrdMap.values (ledger.runs.insert call.runId run'.events)).flatten,
          RoundTrips serde event := by
        intro other member
        rcases records.mem_ledger valid member with rfl | before
        · exact faithful
        · exact older ledger loaded other before
      have some_ := List.ne_nil_of_mem (records.event_mem)
      rw [stored_accepts accepts here carries trips read, foldl_push_values (records.valid_insert valid).named]
      simp only [List.isEmpty_eq_false_iff.mpr some_]
      rfl

/-- A call that fails leaves the engine as it was. -/
theorem record_cases (sound : engine.Sound) {call : Call}
    (room : ∀ event commit, propose serde legacy engine call.runId call.at_ call.actor call.payload =
      .ok (event, commit) → engine.Room commit) :
    (∃ e, record serde legacy engine call.runId call.at_ call.actor call.payload = (.error e, engine)) ∨
    ∃ event next ledger migrate run run',
      record serde legacy engine call.runId call.at_ call.actor call.payload = (.ok event, next) ∧
      view serde legacy engine.runtimeChanges = .ok (ledger, migrate) ∧
      Recorded serde legacy engine call event next ledger migrate run run' := by
  cases proposed : propose serde legacy engine call.runId call.at_ call.actor call.payload with
  | error e => exact .inl ⟨e, by rw [record, proposed]⟩
  | ok result =>
    obtain ⟨event, commit⟩ := result
    rcases MemoryEngine.commitRuntime_cases sound (room event commit proposed) with
      ⟨e, -, refused⟩ | ⟨outcome, next, committed, accepts⟩
    · exact .inl ⟨.store e, by simp only [record, proposed, refused]⟩
    · right
      have after := accepts.sound sound (room event commit proposed)
      have recorded : record serde legacy engine call.runId call.at_ call.actor call.payload =
          (.ok event, next) := by
        simp only [record, proposed, committed]
      obtain ⟨⟨ledger, migrate, observed⟩, loaded, proposed⟩ := except_bind_ok.mp proposed
      obtain ⟨⟨event, mutations⟩, prepared, proposed⟩ := except_bind_ok.mp proposed
      cases proposed
      rw [load_eq serde legacy sound] at loaded
      obtain ⟨⟨ledger, migrate⟩, viewed, loaded⟩ := except_bind_ok.mp loaded
      cases loaded
      obtain ⟨run, run', records, carries⟩ := prepare_ok prepared
      exact ⟨event, next, ledger, migrate, run, run', recorded, viewed, view_ok viewed, records,
        after, _, outcome, accepts, rfl, carries_commitOf carries⟩

/-! ## Other commits -/

/-- A commit that has no reasoning event for the ledger. -/
def Foreign (commit : RuntimeCommit) : Prop :=
  commit.scope = scope → ∀ event, RuntimeMutation.event event ∈ commit.mutations → event.kind ≠ eventType

theorem absorb_foreign {changes : List RuntimeChange}
    (foreign : ∀ change ∈ changes, ∀ event, change.mutation = .event event → event.kind ≠ eventType)
    (reading : Runs × Bool) : changes.foldlM (absorb serde) reading = .ok reading := by
  induction changes with
  | nil => rfl
  | cons change changes ih =>
    have first : absorb serde reading change = .ok reading := by
      unfold absorb
      split
      · rename_i event same
        rw [if_pos (foreign change (by simp) event same)]
      · rfl
    rw [List.foldlM_cons, first, except_ok_bind, ih fun other member => foreign other (by simp [member])]

/-- The commits of other writers leave the runs as they were. -/
theorem stored_foreign {commit : RuntimeCommit} {outcome : RuntimeCommitOutcome}
    (accepts : engine.Accepts commit outcome next) (foreign : Foreign commit) :
    stored serde next.runtimeChanges = stored serde engine.runtimeChanges := by
  rw [accepts.changes, stored_append]
  have nothing : ∀ reading, ((engine.appended commit).filter fun change => scope = change.scope).foldlM
      (absorb serde) reading = .ok reading := by
    apply absorb_foreign
    intro change member event same
    obtain ⟨member, here⟩ := List.mem_filter.mp member
    have mutation : change.mutation ∈ (engine.appended commit).map (·.mutation) := List.mem_map.mpr ⟨change, member, rfl⟩
    rw [MemoryEngine.appended, map_mutation_changesAfter, same] at mutation
    refine foreign ?_ event mutation
    rw [← MemoryEngine.Accepts.scope_appended engine commit change member]
    exact (of_decide_eq_true here).symm
  simp only [nothing]
  exact bind_pure (stored serde engine.runtimeChanges)

/-! ## The active run -/

theorem activeRun_ok (sound : engine.Sound) {run : ReasoningRun}
    (found : activeRun serde legacy engine = .ok (some run)) :
    ∃ (ledger : Ledger) (migrate : Bool) (id : String) (events : List ReasoningEvent),
      view serde legacy engine.runtimeChanges = .ok (ledger, migrate) ∧
      ledger.active = some id ∧ ledger.runs[id]? = some events ∧ ReasoningRun.replay events = .ok run := by
  obtain ⟨⟨ledger, migrate, observed⟩, loaded, found⟩ := except_bind_ok.mp found
  rw [load_eq serde legacy sound] at loaded
  obtain ⟨⟨ledger, migrate⟩, viewed, loaded⟩ := except_bind_ok.mp loaded
  cases loaded
  dsimp only at found
  split at found
  · cases found
  · rename_i events stored
    obtain ⟨id, active, stored⟩ := Option.bind_eq_some_iff.mp stored
    obtain ⟨replayed, same, found⟩ := except_bind_ok.mp found
    cases found
    refine ⟨ledger, migrate, id, events, viewed, active, stored, ?_⟩
    cases replays : ReasoningRun.replay events with
    | error e =>
      rw [replays] at same
      cases same
    | ok found =>
      rw [replays] at same
      cases same
      rfl

/-! ## Events in JSON -/

/-- A JSON string, of text that needs no escape. -/
def quoted (text : String) : String := "\"" ++ text ++ "\""

def jsonArray (values : List String) : String := "[" ++ String.intercalate "," values ++ "]"

def jsonObject (entries : List (String × String)) : String :=
  "\x7b" ++ String.intercalate "," (entries.map fun entry => quoted entry.1 ++ ":" ++ entry.2) ++ "\x7d"

def evidenceJson (evidence : List Evidence) : String :=
  jsonArray (evidence.map fun value => jsonObject
    [("source", quoted value.source), ("digest", quoted value.digest), ("summary", quoted value.summary)])

def payloadJson : ReasoningPayload → String
  | .goal statement acceptance =>
    jsonObject [("kind", quoted "goal"), ("statement", quoted statement),
      ("acceptance", jsonArray (acceptance.map quoted))]
  | .plan hypothesis steps =>
    jsonObject [("kind", quoted "plan"), ("hypothesis", quoted hypothesis), ("steps", jsonArray (steps.map quoted))]
  | .attempt summary actions =>
    jsonObject [("kind", quoted "attempt"), ("summary", quoted summary), ("actions", jsonArray (actions.map quoted))]
  | .observation summary evidence =>
    jsonObject [("kind", quoted "observation"), ("summary", quoted summary), ("evidence", evidenceJson evidence)]
  | .decision decision rationale =>
    let shown := match decision with
      | .continue => "continue"
      | .verify => "verify"
      | .stop => "stop"
    jsonObject [("kind", quoted "decision"), ("decision", quoted shown), ("rationale", quoted rationale)]
  | .verification checks =>
    jsonObject [("kind", quoted "verification"), ("checks", jsonArray (checks.map fun check => jsonObject
      [("name", quoted check.name), ("status", quoted (if check.status = .passed then "passed" else "failed")),
        ("evidence", evidenceJson check.evidence)]))]
  | .outcome outcome summary =>
    let shown := match outcome with
      | .succeeded => "succeeded"
      | .failed => "failed"
      | .blocked => "blocked"
    jsonObject [("kind", quoted "outcome"), ("outcome", quoted shown), ("summary", quoted summary)]

/-- The JSON of an event whose texts need no escape. -/
def eventJson (event : ReasoningEvent) : String :=
  jsonObject ([("run_id", quoted event.runId), ("ordinal", toString event.ordinal), ("at", toString event.at_),
      ("actor", quoted event.actor), ("payload", payloadJson event.payload)] ++
    event.previousDigest.toList.map (fun digest => ("previous_digest", quoted digest)) ++
    [("digest", quoted event.digest)])

/-- `serde_json` on some events, and a ledger. -/
def sampleSerde (events : List ReasoningEvent) (ledger : Ledger) : Serde :=
  { toString := eventJson
    fromStr := fun text =>
      match events.find? fun event => eventJson event = text with
      | some event => .ok event
      | none => .error "expected value at line 1 column 1"
    ledger := fun _ => .ok ledger }

theorem roundTrips_sampleSerde {events : List ReasoningEvent}
    (found : ∀ event ∈ events, events.find? (fun other => eventJson other = eventJson event) = some event) :
    ∀ event ∈ events, RoundTrips (sampleSerde events ledger) event := by
  intro event member
  simp only [RoundTrips, sampleSerde, found event member]

end Vyrm.Node.Reasoning
