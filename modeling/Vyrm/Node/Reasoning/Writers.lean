import Vyrm.Node.Reasoning.Recording

/-!
# Concurrent writers of the reasoning ledger

Calls of `record_reasoning` (`crates/vyrm-node/src/reasoning.rs`) on one engine, each in the steps in
which it reads the store, and the commits of other writers, in any order. A call decides from several
reads, but its commit is only accepted by the log that it observed first, so what it read is what is
still there.
-/

namespace Vyrm.Node.Reasoning
open Lib Vyrm.Core Vyrm.Store

/-! ## Calls in steps -/

/-- Where a call stands. -/
inductive Stage where
  | entered
  /-- At the head of the loop over the pages. -/
  | paging (observed cursor : UInt64) (reading : Runs × Bool)
  | loaded (observed : UInt64) (reading : Runs × Bool)
  | prepared (observed : UInt64) (event : ReasoningEvent) (mutations : List RuntimeMutation)
  | committing (event : ReasoningEvent) (commit : RuntimeCommit)
  | returned (result : Except Error ReasoningEvent)

/-- The commit a step makes. -/
def Stage.commit : Stage → Option RuntimeCommit
  | .committing _ commit => some commit
  | _ => none

/-- A page, and whether there is another (`reasoning.rs:87-126`). -/
def readPage (serde : Serde) (engine : MemoryEngine) (observed cursor : UInt64) (reading : Runs × Bool) :
    Except Error Stage :=
  match engine.runtimeChangesSince cursor replayPage (some scope) with
  | .error e => .error (.store e)
  | .ok page => do
    let reading ← absorbPage serde observed reading page
    let cursor := min page.throughCursor observed
    if ¬ page.throughCursor < page.headCursor ∨ observed ≤ cursor then return .loaded observed reading
    return .paging observed cursor reading

/-- What a call decides from what it read (`reasoning.rs:128-144`, `275-321`). -/
def conclude (serde : Serde) (legacy : Option Bytes) (call : Call) (reading : Runs × Bool) :
    Except Error (ReasoningEvent × List RuntimeMutation) := do
  let found ← foundLedger reading
  let (ledger, migrate) ← orLegacy serde legacy found
  prepare serde ledger migrate call.runId call.at_ call.actor call.payload

/-- The next step of a call (`reasoning.rs:268-335`). -/
def advance (serde : Serde) (legacy : Option Bytes) (engine : MemoryEngine) (call : Call) :
    Stage → Stage × MemoryEngine
  | .entered => (.paging engine.head 0 (∅, false), engine)
  | .paging observed cursor reading =>
    if observed ≤ cursor then (.loaded observed reading, engine)
    else
      match readPage serde engine observed cursor reading with
      | .error e => (.returned (.error e), engine)
      | .ok stage => (stage, engine)
  | .loaded observed reading =>
    match conclude serde legacy call reading with
    | .error e => (.returned (.error e), engine)
    | .ok (event, mutations) => (.prepared observed event mutations, engine)
  | .prepared observed event mutations =>
    (.committing event (commitOf engine.runtimeSchemas[scope]? observed call.at_ call.actor mutations), engine)
  | .committing event commit =>
    match engine.commitRuntime commit with
    | (.error e, engine) => (.returned (.error (.store e)), engine)
    | (.ok _, engine) => (.returned (.ok event), engine)
  | .returned result => (.returned result, engine)

/-- The event of a commit that a step made. -/
def Stage.accepted : Stage → Stage → Option ReasoningEvent
  | .committing _ _, .returned (.ok event) => some event
  | _, _ => none

/-! ## Runs -/

/-- The engine, the calls made so far, and the events that were accepted, each with its call. -/
structure Writers where
  engine : MemoryEngine
  calls : List (Call × Stage)
  accepted : List (Nat × ReasoningEvent)

namespace Writers

variable (serde : Serde) (legacy : Option Bytes)

def start : Writers := { engine := .new, calls := [], accepted := [] }

/-- A call takes its next step. -/
def advance (world : Writers) (i : Nat) (call : Call) (stage : Stage) : Writers :=
  let (after, engine) := Reasoning.advance serde legacy world.engine call stage
  { engine
    calls := world.calls.set i (call, after)
    accepted := world.accepted ++ (stage.accepted after).toList.map fun event => (i, event) }

/-- What can happen: a call is made, a call takes a step, or somebody else commits. -/
inductive Step (world : Writers) : Writers → Prop where
  | call (call : Call) : Step world { world with calls := world.calls ++ [(call, .entered)] }
  | advance {i : Nat} {call : Call} {stage : Stage} (called : world.calls[i]? = some (call, stage))
    (room : ∀ commit ∈ stage.commit, world.engine.Room commit) :
    Step world (world.advance serde legacy i call stage)
  | other (commit : RuntimeCommit) (room : world.engine.Room commit) (foreign : Foreign commit) :
    Step world { world with engine := (world.engine.commitRuntime commit).2 }

/-- The worlds that runs reach from one. -/
def Reaches : Writers → Writers → Prop := Relation.ReflTransGen (Step serde legacy)

end Writers

/-- What the log says in view of the accepted events. -/
structure Intact (serde : Serde) (legacy : Option Bytes) (world : Writers) (runs : Runs) : Prop where
  stored : stored serde world.engine.runtimeChanges = .ok (runs, ! world.accepted.isEmpty)
  /-- Every run replays with its own id, and at most one is not complete. -/
  valid : ∃ active, Valid runs active
  /-- The calls that returned an event are those of the accepted events, each with one. -/
  once : (world.accepted.map Prod.fst).Nodup
  returned : ∀ (i : Nat) (event : ReasoningEvent),
    (i, event) ∈ world.accepted ↔ ∃ call, world.calls[i]? = some (call, Stage.returned (.ok event))
  made : ∀ (i : Nat) (call : Call) (event : ReasoningEvent),
    world.calls[i]? = some (call, Stage.returned (.ok event)) →
      event.runId = call.runId ∧ event.at_ = call.at_ ∧ event.actor = call.actor ∧ event.payload = call.payload
  none : world.accepted = [] → runs = ∅
  /-- Of every run there are the events of the older ledger, and the accepted ones. -/
  runs : world.accepted ≠ [] → ∃ older, loadLegacy serde legacy = .ok older ∧
    ∀ id : String, runs[id]?.getD [] =
      older.runs[id]?.getD [] ++ (world.accepted.map Prod.snd).filter fun event => event.runId = id

/-! ## One step -/

variable {serde : Serde} {legacy : Option Bytes} {engine next : MemoryEngine} {call : Call} {stage : Stage}
  {log more : List RuntimeChange}

/-- Mutations that carry what a call records, in view of a log. -/
def Drafted (serde : Serde) (legacy : Option Bytes) (log : List RuntimeChange) (call : Call)
    (event : ReasoningEvent) (mutations : List RuntimeMutation) : Prop :=
  ∃ ledger migrate run run', View serde legacy log ledger migrate ∧ Records ledger call run event run' ∧
    Carries serde mutations
      (if migrate then (OrdMap.values (ledger.runs.insert call.runId run'.events)).flatten else [event])

/-- What is known of a call: it is about the log up to the head that it observed. -/
def Known (serde : Serde) (legacy : Option Bytes) (log : List RuntimeChange) (call : Call) : Stage → Prop
  | .paging observed cursor reading =>
    observed.toNat ≤ log.length ∧ cursor.toNat ≤ observed.toNat ∧
      stored serde (log.take cursor.toNat) = .ok reading
  | .loaded observed reading => observed.toNat ≤ log.length ∧ stored serde (log.take observed.toNat) = .ok reading
  | .prepared observed event mutations =>
    observed.toNat ≤ log.length ∧ Drafted serde legacy (log.take observed.toNat) call event mutations
  | .committing event commit =>
    commit.scope = scope ∧ commit.expectedCursor.toNat ≤ log.length ∧
      Drafted serde legacy (log.take commit.expectedCursor.toNat) call event commit.mutations
  | _ => True

/-- What is known stays true while the log grows. -/
theorem Known.grow (known : Known serde legacy log call stage) : Known serde legacy (log ++ more) call stage := by
  cases stage with
  | paging observed cursor reading =>
    obtain ⟨past, behind, read⟩ := known
    refine ⟨by rw [List.length_append]; omega, behind, ?_⟩
    rw [List.take_append_of_le_length (by omega)]
    exact read
  | loaded observed reading =>
    obtain ⟨past, read⟩ := known
    refine ⟨by rw [List.length_append]; omega, ?_⟩
    rw [List.take_append_of_le_length past]
    exact read
  | prepared observed event mutations =>
    obtain ⟨past, drafted⟩ := known
    refine ⟨by rw [List.length_append]; omega, ?_⟩
    rw [List.take_append_of_le_length past]
    exact drafted
  | committing event commit =>
    obtain ⟨here, past, drafted⟩ := known
    refine ⟨here, by rw [List.length_append]; omega, ?_⟩
    rw [List.take_append_of_le_length past]
    exact drafted
  | _ => trivial

/-- Reading a page reads on in the log up to the observed head. -/
theorem readPage_known (sound : engine.Sound) {observed cursor : UInt64} {reading : Runs × Bool}
    (known : Known serde legacy engine.runtimeChanges call (.paging observed cursor reading))
    (behind : ¬ observed ≤ cursor) (read : readPage serde engine observed cursor reading = .ok stage) :
    Known serde legacy engine.runtimeChanges call stage ∧ ∀ event, stage ≠ .returned (.ok event) := by
  obtain ⟨past, -, before⟩ := known
  rw [UInt64.le_iff_toNat_le] at behind
  obtain ⟨page, paged, head, through, changes⟩ :=
    @runtimeChangesSince_eq engine sound.short cursor (by omega)
  have whole : engine.runtimeChanges =
      engine.runtimeChanges.take observed.toNat ++ engine.runtimeChanges.drop observed.toNat :=
    (List.take_append_drop observed.toNat engine.runtimeChanges).symm
  have numbered := sound.numbered
  rw [whole] at numbered changes
  have seen : observed.toNat = (engine.runtimeChanges.take observed.toNat).length := by
    rw [List.length_take]
    omega
  simp only [readPage, paged, absorbPage_eq numbered seen reading changes, except_bind_ok] at read
  obtain ⟨after, absorbed, made⟩ := read
  have next : (min page.throughCursor observed).toNat = min (cursor.toNat + replayPage) observed.toNat := by
    have either : min page.throughCursor observed =
        if page.throughCursor ≤ observed then page.throughCursor else observed := rfl
    rw [either]
    split
    · rename_i below
      rw [UInt64.le_iff_toNat_le, through] at below
      omega
    · rename_i above
      rw [UInt64.le_iff_toNat_le, through] at above
      omega
  have further : stored serde (engine.runtimeChanges.take (min (cursor.toNat + replayPage) observed.toNat)) =
      .ok after := by
    rw [← List.take_take, ← List.take_append_drop cursor.toNat
      ((engine.runtimeChanges.take observed.toNat).take (cursor.toNat + replayPage)), stored_append]
    rw [List.take_take, List.take_take, Nat.min_eq_left (Nat.le_add_right _ _), Nat.min_eq_left (by omega), before]
    exact absorbed
  split at made
  · rename_i last
    cases made
    rw [UInt64.lt_iff_toNat_lt, UInt64.le_iff_toNat_le, next, through, head] at last
    have all : min (cursor.toNat + replayPage) observed.toNat = observed.toNat := by omega
    rw [all] at further
    exact ⟨⟨past, further⟩, by simp⟩
  · cases made
    refine ⟨⟨past, by omega, ?_⟩, by simp⟩
    rw [next]
    exact further

/-- What a call decides, it decides about the log it has read. -/
theorem conclude_ok {reading : Runs × Bool} {event : ReasoningEvent} {mutations : List RuntimeMutation}
    (read : stored serde log = .ok reading)
    (concluded : conclude serde legacy call reading = .ok (event, mutations)) :
    Drafted serde legacy log call event mutations := by
  obtain ⟨found, validated, concluded⟩ := except_bind_ok.mp concluded
  obtain ⟨⟨ledger, migrate⟩, settled, prepared⟩ := except_bind_ok.mp concluded
  have viewed : view serde legacy log = .ok (ledger, migrate) := by
    rw [view, read, except_ok_bind, validated, except_ok_bind, settled]
  obtain ⟨run, run', records, carries⟩ := prepare_ok prepared
  exact ⟨ledger, migrate, run, run', view_ok viewed, records, carries⟩

/-- A commit that the engine accepts was drafted for the log that the engine has. -/
theorem recorded_of_drafted (sound : engine.Sound) {event : ReasoningEvent} {commit : RuntimeCommit}
    {outcome : RuntimeCommitOutcome}
    (known : Known serde legacy engine.runtimeChanges call (.committing event commit))
    (accepts : engine.Accepts commit outcome next) (room : engine.Room commit) :
    ∃ ledger migrate run run', Recorded serde legacy engine call event next ledger migrate run run' := by
  obtain ⟨here, -, ledger, migrate, run, run', view, records, carries⟩ := known
  have whole : commit.expectedCursor.toNat = engine.runtimeChanges.length := by
    rw [accepts.expected, MemoryEngine.toNat_head sound.short]
  rw [whole, List.take_length] at view
  exact ⟨ledger, migrate, run, run', view, records, accepts.sound sound room, commit, outcome, accepts, here, carries⟩

/-- A step of a call leaves the engine alone, or is its commit. -/
theorem advance_cases (sound : engine.Sound) (room : ∀ commit ∈ stage.commit, engine.Room commit)
    (known : Known serde legacy engine.runtimeChanges call stage) :
    (∃ after, advance serde legacy engine call stage = (after, engine) ∧ stage.accepted after = none ∧
      Known serde legacy engine.runtimeChanges call after ∧
      ∀ event, after = .returned (.ok event) ↔ stage = .returned (.ok event)) ∨
    ∃ event commit outcome next, stage = .committing event commit ∧ engine.Accepts commit outcome next ∧
      advance serde legacy engine call stage = (.returned (.ok event), next) := by
  cases stage with
  | entered =>
    have observes := MemoryEngine.toNat_head sound.short
    exact .inl ⟨_, rfl, rfl, ⟨by omega, Nat.zero_le _, rfl⟩, by simp⟩
  | paging observed cursor reading =>
    left
    rw [advance]
    by_cases behind : observed ≤ cursor
    · rw [if_pos behind]
      obtain ⟨past, below, read⟩ := known
      rw [UInt64.le_iff_toNat_le] at behind
      rw [Nat.le_antisymm below behind] at read
      exact ⟨_, rfl, rfl, ⟨past, read⟩, by simp⟩
    · rw [if_neg behind]
      cases read : readPage serde engine observed cursor reading with
      | error e => exact ⟨_, rfl, rfl, trivial, by simp⟩
      | ok after =>
        obtain ⟨further, running⟩ := readPage_known sound known behind read
        refine ⟨after, rfl, rfl, further, ?_⟩
        intro event
        simp [running event]
  | loaded observed reading =>
    left
    obtain ⟨past, read⟩ := known
    rw [advance]
    cases concluded : conclude serde legacy call reading with
    | error e => exact ⟨_, rfl, rfl, trivial, by simp⟩
    | ok drafted => exact ⟨_, rfl, rfl, ⟨past, conclude_ok read concluded⟩, by simp⟩
  | prepared observed event mutations =>
    left
    obtain ⟨past, ledger, migrate, run, run', view, records, carries⟩ := known
    exact ⟨_, rfl, rfl, ⟨rfl, past, ledger, migrate, run, run', view, records, carries_commitOf carries⟩, by simp⟩
  | committing event commit =>
    rcases MemoryEngine.commitRuntime_cases sound (room commit rfl) with
      ⟨e, -, refused⟩ | ⟨outcome, next, committed, accepts⟩
    · left
      rw [advance, refused]
      exact ⟨_, rfl, rfl, trivial, by simp⟩
    · right
      exact ⟨event, commit, outcome, next, rfl, accepts, by rw [advance, committed]⟩
  | returned result => exact .inl ⟨_, rfl, rfl, trivial, fun event => Iff.rfl⟩

/-! ## All steps -/

namespace Writers

variable {world world' : Writers}

/-- What all steps keep. -/
structure Inv (serde : Serde) (legacy : Option Bytes) (world : Writers) : Prop where
  sound : world.engine.Sound
  known : ∀ (i : Nat) (call : Call) (stage : Stage), world.calls[i]? = some (call, stage) →
    Known serde legacy world.engine.runtimeChanges call stage
  intact : ∃ runs, Intact serde legacy world runs

theorem inv_start : Inv serde legacy start where
  sound := MemoryEngine.sound_new
  known := by simp [start]
  intact := by
    refine ⟨∅, rfl, ⟨none, Valid.empty⟩, ?_, ?_, ?_, ?_, ?_⟩
    all_goals simp [start]

/-- Steps that accept nothing keep what the log says, if the runs stay as they were and no call returns
an event. -/
theorem Intact.same {runs : Runs} (intact : Intact serde legacy world runs)
    (stored : stored serde world'.engine.runtimeChanges = Reasoning.stored serde world.engine.runtimeChanges)
    (accepted : world'.accepted = world.accepted)
    (calls : ∀ (i : Nat) (call : Call) (event : ReasoningEvent),
      world'.calls[i]? = some (call, Stage.returned (.ok event)) ↔
        world.calls[i]? = some (call, Stage.returned (.ok event))) : Intact serde legacy world' runs := by
  constructor
  · rw [stored, accepted]
    exact intact.stored
  · exact intact.valid
  · rw [accepted]
    exact intact.once
  · intro i event
    simp only [accepted, calls]
    exact intact.returned i event
  · intro i call event returned
    exact intact.made i call event ((calls i call event).mp returned)
  · rw [accepted]
    exact intact.none
  · rw [accepted]
    exact intact.runs

theorem Inv.called (inv : Inv serde legacy world) (call : Call) :
    Inv serde legacy { world with calls := world.calls ++ [(call, .entered)] } := by
  obtain ⟨runs, intact⟩ := inv.intact
  have last : ∀ (i : Nat) (other : Call × Stage), (world.calls ++ [(call, Stage.entered)])[i]? = some other →
      world.calls[i]? = some other ∨ other = (call, .entered) := by
    intro i other here
    rw [List.getElem?_append] at here
    split at here
    · exact .inl here
    · right
      rw [List.getElem?_singleton] at here
      split at here
      · exact (Option.some.inj here).symm
      · cases here
  refine ⟨inv.sound, ?_, runs, Intact.same intact rfl rfl ?_⟩
  · intro i other stage here
    rcases last i (other, stage) here with before | same
    · exact inv.known i other stage before
    · cases same
      trivial
  · intro i other event
    constructor
    · intro here
      rcases last i _ here with before | same
      · exact before
      · cases same
    · intro before
      have present := (List.getElem?_eq_some_iff.mp before).1
      rw [List.getElem?_append_left present]
      exact before

/-- What is known of all calls stays known while the log grows. -/
theorem Inv.other (inv : Inv serde legacy world) {commit : RuntimeCommit} (room : world.engine.Room commit)
    (foreign : Foreign commit) :
    Inv serde legacy { world with engine := (world.engine.commitRuntime commit).2 } := by
  obtain ⟨runs, intact⟩ := inv.intact
  rcases MemoryEngine.commitRuntime_cases inv.sound room with
    ⟨e, -, refused⟩ | ⟨outcome, next, committed, accepts⟩
  · simp only [refused]
    exact inv
  · simp only [committed]
    refine ⟨accepts.sound inv.sound room, ?_, runs,
      Intact.same intact (stored_foreign accepts foreign) rfl fun _ _ _ => Iff.rfl⟩
    intro i call stage here
    rw [accepts.changes]
    exact (inv.known i call stage here).grow

/-- A call that takes a step without a commit. -/
theorem Inv.moved (inv : Inv serde legacy world) {i : Nat} (called : world.calls[i]? = some (call, stage))
    {after : Stage} (known : Known serde legacy world.engine.runtimeChanges call after)
    (returns : ∀ event, after = .returned (.ok event) ↔ stage = .returned (.ok event)) :
    Inv serde legacy { world with calls := world.calls.set i (call, after) } := by
  obtain ⟨runs, intact⟩ := inv.intact
  have present := (List.getElem?_eq_some_iff.mp called).1
  refine ⟨inv.sound, ?_, runs, Intact.same intact rfl rfl ?_⟩
  · intro j other stage' here
    by_cases same : i = j
    · subst same
      rw [List.getElem?_set_self present] at here
      cases here
      exact known
    · rw [List.getElem?_set_ne same] at here
      exact inv.known j other stage' here
  · intro j other event
    by_cases same : i = j
    · subst same
      rw [List.getElem?_set_self present, called]
      simp [returns]
    · rw [List.getElem?_set_ne same]

/-- A call whose commit is accepted: its event goes to the end of its run, beside those that were
there, of the older ledger if it is the first. -/
theorem Inv.accepted (inv : Inv serde legacy world) {i : Nat} {event : ReasoningEvent} {commit : RuntimeCommit}
    {outcome : RuntimeCommitOutcome} (called : world.calls[i]? = some (call, .committing event commit))
    (accepts : world.engine.Accepts commit outcome next) (room : world.engine.Room commit)
    (faithful : RoundTrips serde event) (older : LegacyRoundTrips serde legacy) :
    Inv serde legacy ⟨next, world.calls.set i (call, .returned (.ok event)), world.accepted ++ [(i, event)]⟩ := by
  obtain ⟨runs, intact⟩ := inv.intact
  have present := (List.getElem?_eq_some_iff.mp called).1
  obtain ⟨ledger, migrate, run, run', recorded⟩ :=
    recorded_of_drafted inv.sound (inv.known i call _ called) accepts room
  have stored := recorded.stored faithful older
  obtain ⟨⟨valid, source⟩, records, sound, -⟩ := recorded
  have own := (records.runId_eq valid).1
  have gained : ∀ id : String, (ledger.runs.insert call.runId run'.events)[id]?.getD [] =
      ledger.runs[id]?.getD [] ++ [event].filter fun event => event.runId = id := by
    intro id
    by_cases same : call.runId = id
    · subst same
      rw [OrdMap.getElem?_insert_self, Option.getD_some, records.step.events_eq, (records.opens valid).2.2]
      simp [own]
    · rw [OrdMap.getElem?_insert_of_ne same]
      simp [own, same]
  have fresh : ∀ event, (i, event) ∉ world.accepted := by
    intro other member
    obtain ⟨call', returned⟩ := (intact.returned i other).mp member
    rw [called] at returned
    cases returned
  refine ⟨sound, ?_, ledger.runs.insert call.runId run'.events, ?_, ⟨_, records.valid_insert valid⟩, ?_, ?_, ?_, ?_, ?_⟩
  · intro j other stage here
    rw [accepts.changes]
    by_cases same : i = j
    · subst same
      rw [List.getElem?_set_self present] at here
      cases here
      trivial
    · rw [List.getElem?_set_ne same] at here
      exact (inv.known j other stage here).grow
  · rw [stored]
    simp
  · rw [List.map_append, List.nodup_append]
    refine ⟨intact.once, by simp, ?_⟩
    intro j before k last
    obtain ⟨entry, member, rfl⟩ := List.mem_map.mp before
    simp only [List.map_cons, List.map_nil, List.mem_singleton] at last
    rintro rfl
    exact fresh entry.2 (last ▸ member)
  · intro j other
    by_cases same : i = j
    · subst same
      simp [present, fresh, eq_comm]
    · simp only [List.getElem?_set_ne same, List.mem_append, intact.returned j other]
      simp [Ne.symm same]
  · intro j other event' here
    by_cases same : i = j
    · subst same
      rw [List.getElem?_set_self present] at here
      cases here
      exact ⟨own, records.fields⟩
    · rw [List.getElem?_set_ne same] at here
      exact intact.made j other event' here
  · simp
  · intro _
    have read := intact.stored
    cases empty : world.accepted.isEmpty with
    | true =>
      rw [empty] at read
      rcases source with ⟨some_, -⟩ | ⟨-, loaded, -⟩
      · simp [read] at some_
      · refine ⟨ledger, loaded, ?_⟩
        rw [List.isEmpty_iff.mp empty]
        exact gained
    | false =>
      rw [empty] at read
      rcases source with ⟨some_, -⟩ | ⟨none, -⟩
      · obtain ⟨before, loaded, all⟩ := intact.runs (List.isEmpty_eq_false_iff.mp empty)
        rw [read, Except.ok.injEq, Prod.mk.injEq] at some_
        refine ⟨before, loaded, ?_⟩
        intro id
        rw [gained, ← some_.1, all id, List.map_append, List.filter_append, List.append_assoc]
        rfl
      · simp [read] at none

/-- The events that were accepted are read back as they were written. -/
def Faithful (serde : Serde) (world : Writers) : Prop := ∀ entry ∈ world.accepted, RoundTrips serde entry.2

theorem Step.grows (step : Step serde legacy world world') : world.accepted <+: world'.accepted := by
  cases step with
  | call call => exact List.prefix_refl _
  | advance called room => exact List.prefix_append _ _
  | other commit room foreign => exact List.prefix_refl _

theorem Inv.step (inv : Inv serde legacy world) (step : Step serde legacy world world')
    (faithful : Faithful serde world') (older : LegacyRoundTrips serde legacy) : Inv serde legacy world' := by
  cases step with
  | call call => exact inv.called call
  | other commit room foreign => exact inv.other room foreign
  | @advance i call stage called room =>
    rcases advance_cases inv.sound room (inv.known i call stage called) with
      ⟨after, moved, nothing, known, returns⟩ | ⟨event, commit, outcome, next, rfl, accepts, moved⟩
    · simp only [Writers.advance, moved, nothing]
      simpa using inv.moved called known returns
    · have accepted : (Stage.committing event commit).accepted (.returned (.ok event)) = some event := rfl
      simp only [Writers.advance, moved, accepted] at faithful ⊢
      exact inv.accepted called accepts (room commit rfl) (faithful (i, event) (by simp)) older

theorem Reaches.grows (reaches : Reaches serde legacy world world') : world.accepted <+: world'.accepted := by
  induction reaches with
  | refl => exact List.prefix_refl _
  | tail _ step ih => exact ih.trans step.grows

theorem Reaches.inv (reaches : Reaches serde legacy start world) (faithful : Faithful serde world)
    (older : LegacyRoundTrips serde legacy) : Inv serde legacy world := by
  induction reaches with
  | refl => exact inv_start
  | tail _ step ih =>
    have earlier : Faithful serde _ := fun entry member => faithful entry (step.grows.subset member)
    exact (ih earlier).step step faithful older

end Writers

/-- Writers of the ledger, with any others beside them, lose nothing. At every point of every run the
stored runs replay with their own ids and at most one of them is not complete; they are those of the
older ledger, once a call is accepted, with exactly the events of the calls that returned one; and
nothing of them goes away later. The events that are accepted, and those of the older ledger, are
read back as they were written. -/
theorem reasoning_writers_lose_nothing (serde : Serde) (legacy : Option Bytes) (world world' : Writers)
    (reached : Writers.Reaches serde legacy Writers.start world) (later : Writers.Reaches serde legacy world world')
    (faithful : Writers.Faithful serde world') (older : LegacyRoundTrips serde legacy) :
    ∃ runs runs', Intact serde legacy world runs ∧ Intact serde legacy world' runs' ∧
      world.accepted <+: world'.accepted ∧ ∀ id : String, runs[id]?.getD [] <+: runs'[id]?.getD [] := by
  have grown := later.grows
  have before : Writers.Faithful serde world := fun entry member => faithful entry (grown.subset member)
  obtain ⟨runs, intact⟩ := (reached.inv before older).intact
  obtain ⟨runs', intact'⟩ := (Writers.Reaches.inv (reached.trans later) faithful older).intact
  refine ⟨runs, runs', intact, intact', grown, ?_⟩
  intro id
  by_cases first : world.accepted = []
  · rw [intact.none first]
    simp
  · obtain ⟨ledger, loaded, all⟩ := intact.runs first
    have still : world'.accepted ≠ [] := by
      intro none
      rw [none, List.prefix_nil] at grown
      exact first grown
    obtain ⟨ledger', loaded', all'⟩ := intact'.runs still
    rw [loaded, Except.ok.injEq] at loaded'
    subst loaded'
    rw [all id, all' id, List.prefix_append_right_inj]
    exact (grown.map Prod.snd).filter _

/-! ## Two writers -/

/-- The next step of a call, whose commit has room. -/
def Writers.turn (serde : Serde) (legacy : Option Bytes) (world : Writers) (i : Nat) : Option Writers :=
  match world.calls[i]? with
  | none => none
  | some (call, stage) =>
    if stage.commit.all fun commit => world.engine.runtimeChanges.length + commit.mutations.length < 2 ^ 63 then
      some (world.advance serde legacy i call stage)
    else none

theorem Writers.reaches_of_turns {world world' : Writers} {turns : List Nat}
    (taken : turns.foldlM (Writers.turn serde legacy) world = some world') : Reaches serde legacy world world' := by
  induction turns generalizing world with
  | nil =>
    cases taken
    exact .refl
  | cons i turns ih =>
    rw [List.foldlM_cons, Option.bind_eq_bind, Option.bind_eq_some_iff] at taken
    obtain ⟨middle, first, rest⟩ := taken
    refine .head ?_ (ih rest)
    unfold Writers.turn at first
    split at first
    · cases first
    · rename_i call stage called
      rw [Option.ite_none_right_eq_some, Option.some.injEq] at first
      obtain ⟨roomy, rfl⟩ := first
      refine .advance called ?_
      intro commit made
      rw [Option.mem_def] at made
      rw [made] at roomy
      show world.engine.runtimeChanges.length + commit.mutations.length < 2 ^ 63
      exact of_decide_eq_true roomy

def sampleCalls : List Call := [⟨"r", 1, "a", .goal "g" ["x"]⟩, ⟨"s", 2, "b", .goal "h" ["y"]⟩]

/-- The event of the first call. -/
def sampleGoal : ReasoningEvent :=
  ReasoningRun.nextEvent { id := "r", events := [], state := .empty, lastVerificationPassed := none } 1 "a"
    (.goal "g" ["x"])

/-- Two calls that both find no run, step by step in turn: the first to commit is accepted, and the
other is not. -/
theorem reasoning_writers_lose_nothing_sample : ∃ world runs,
    Writers.Reaches (sampleSerde [sampleGoal] emptyLedger) none Writers.start world ∧
      world.accepted = [(0, sampleGoal)] ∧
      world.calls.map (fun entry => entry.2 matches .returned _) = [true, true] ∧
      Intact (sampleSerde [sampleGoal] emptyLedger) none world runs := by
  have run : ([0, 1, 0, 1, 0, 1, 0, 1, 0, 1].foldlM (Writers.turn (sampleSerde [sampleGoal] emptyLedger) none)
      { Writers.start with calls := sampleCalls.map fun call => (call, .entered) }).map
        (fun world => (world.accepted, world.calls.map fun entry => entry.2 matches .returned _)) =
      some ([(0, sampleGoal)], [true, true]) := by decide +kernel
  obtain ⟨world, taken, same⟩ := Option.map_eq_some_iff.mp run
  rw [Prod.mk.injEq] at same
  have reached : Writers.Reaches (sampleSerde [sampleGoal] emptyLedger) none Writers.start world :=
    .head (.call ⟨"r", 1, "a", .goal "g" ["x"]⟩)
      (.head (.call ⟨"s", 2, "b", .goal "h" ["y"]⟩) (Writers.reaches_of_turns taken))
  obtain ⟨runs, -, intact, -⟩ := reasoning_writers_lose_nothing (sampleSerde [sampleGoal] emptyLedger) none world
    world reached .refl
    (by
      intro entry member
      rw [same.1] at member
      rw [List.mem_singleton.mp member]
      exact roundTrips_sampleSerde (by simp) sampleGoal (by simp))
    (by
      intro ledger loaded event member
      cases loaded
      simp [OrdMap.values, emptyLedger] at member)
  exact ⟨world, runs, reached, same.1, same.2, intact⟩

end Vyrm.Node.Reasoning
