import Vyrm.Core.Reasoning

/-!
# What a reasoning run records

An accepted append is one step of a run. From what a single step can do follow the
order in which attempts, observations, verifications and outcomes stand in the events
of any run, and which lists of events replay.
-/

namespace Vyrm.Core
open Lib Reasoning

/-! ## Events -/

namespace ReasoningEvent

def isAttempt (event : ReasoningEvent) : Bool :=
  match event.payload with
  | .attempt _ _ => true
  | _ => false

def isObservation (event : ReasoningEvent) : Bool :=
  match event.payload with
  | .observation _ _ => true
  | _ => false

def isOutcome (event : ReasoningEvent) : Bool :=
  match event.payload with
  | .outcome _ _ => true
  | _ => false

def succeeds (event : ReasoningEvent) : Bool :=
  match event.payload with
  | .outcome .succeeded _ => true
  | _ => false

/-- A verification in which every check passed. -/
def passes (event : ReasoningEvent) : Bool :=
  match event.payload with
  | .verification checks => allPassed checks
  | _ => false

end ReasoningEvent

/-- How the events of a run follow each other. -/
structure WellOrdered (events : List ReasoningEvent) : Prop where
  /-- From an attempt up to the next one, if anything follows it, there is one observation. -/
  observed : ∀ front attempt rest, events = front ++ attempt :: rest → attempt.isAttempt → rest ≠ [] →
    (rest.takeWhile fun event => ! event.isAttempt).countP (·.isObservation) = 1
  /-- Success stands directly after a verification that passed, so after the last attempt. -/
  verified : ∀ front outcome rest, events = front ++ outcome :: rest → outcome.succeeds →
    ∃ before verification, front = before ++ [verification] ∧ verification.passes
  /-- Nothing follows an outcome. -/
  terminal : ∀ front outcome rest, events = front ++ outcome :: rest → outcome.isOutcome → rest = []

namespace ReasoningRun
open ReasoningEvent

variable {run run' : ReasoningRun} {event : ReasoningEvent} {events : List ReasoningEvent}

/-! ## Steps -/

/-- An accepted append, with the event it records. -/
def Step (run : ReasoningRun) (event : ReasoningEvent) (run' : ReasoningRun) : Prop :=
  ∃ at_ actor payload, run.append at_ actor payload = (.ok event, run')

/-- A rejected append leaves the run as it was. -/
theorem append_error {at_ : Millis} {actor : String} {payload : ReasoningPayload} {e : ContractError}
    (rejected : (run.append at_ actor payload).1 = .error e) :
    (run.append at_ actor payload).2 = run := by
  unfold append at rejected ⊢
  split
  · rfl
  · rename_i next admitted
    rw [admitted] at rejected
    cases rejected

theorem nextState_ok {at_ : Millis} {actor : String} {payload : ReasoningPayload} {next : ReasoningState}
    (admitted : run.nextState at_ actor payload = .ok next) :
    transition run.state run.lastVerificationPassed payload = .ok next := by
  obtain ⟨⟨⟩, -, admitted⟩ := except_bind_ok.mp admitted
  simp only [except_throw, except_error_bind, except_reject_ok] at admitted
  obtain ⟨-, admitted⟩ := admitted
  obtain ⟨⟨⟩, -, admitted⟩ := except_bind_ok.mp admitted
  exact admitted

/-- Everything an accepted append does. -/
theorem Step.spec (step : Step run event run') :
    event = run.nextEvent event.at_ event.actor event.payload ∧
    transition run.state run.lastVerificationPassed event.payload = .ok run'.state ∧
    run' = { run with
      lastVerificationPassed := verified run.lastVerificationPassed event.payload
      state := run'.state
      events := run.events ++ [event] } := by
  obtain ⟨at_, actor, payload, accepted⟩ := step
  unfold append at accepted
  split at accepted
  · cases accepted
  · rename_i next admitted
    rw [Prod.mk.injEq, Except.ok.injEq] at accepted
    obtain ⟨rfl, rfl⟩ := accepted
    exact ⟨rfl, nextState_ok admitted, rfl⟩

theorem Step.events_eq (step : Step run event run') : run'.events = run.events ++ [event] := by
  have := congrArg ReasoningRun.events step.spec.2.2
  exact this

/-- A run records the events of its steps. -/
theorem events_of_path (path : Path Step run events run') : run'.events = run.events ++ events := by
  induction path with
  | nil => simp
  | cons first _ ih => rw [ih, first.events_eq, List.append_assoc, List.singleton_append]

/-! ## Replay -/

/-- Replaying events onto a run is appending them one by one. -/
theorem replayFrom_ok_iff : run.replayFrom events = .ok run' ↔ Path Step run events run' := by
  induction events generalizing run with
  | nil => simp [replayFrom]
  | cons stored rest ih =>
    rw [replayFrom, Path.cons_iff]
    constructor
    · intro replayed
      split at replayed
      · cases replayed
      · rename_i expected next appended
        rw [except_reject_ok, not_not] at replayed
        obtain ⟨rfl, replayed⟩ := replayed
        exact ⟨next, ⟨_, _, _, appended⟩, ih.mp replayed⟩
    · intro ⟨next, step, path⟩
      obtain ⟨at_, actor, payload, appended⟩ := step
      have fields : stored.at_ = at_ ∧ stored.actor = actor ∧ stored.payload = payload := by
        unfold append at appended
        split at appended
        · cases appended
        · rw [Prod.mk.injEq, Except.ok.injEq] at appended
          rw [← appended.1]
          exact ⟨rfl, rfl, rfl⟩
      obtain ⟨rfl, rfl, rfl⟩ := fields
      rw [appended]
      simpa using ih.mpr path

/-- The histories of a run under an identity. -/
def Produced (events : List ReasoningEvent) (run : ReasoningRun) : Prop :=
  ∃ id start, empty id = .ok start ∧ Path Step start events run

theorem empty_ok {id : String} {start : ReasoningRun} (created : empty id = .ok start) :
    start = { id, events := [], state := .empty, lastVerificationPassed := none } := by
  obtain ⟨⟨⟩, -, created⟩ := except_bind_ok.mp created
  simp only [except_throw, except_error_bind, except_reject_ok, except_pure, Except.ok.injEq] at created
  exact created.2.symm

theorem Produced.events_eq (produced : Produced events run) : run.events = events := by
  obtain ⟨id, start, created, path⟩ := produced
  rw [events_of_path path, empty_ok created]
  rfl

/-- Replay accepts the histories of at least one event, and rebuilds the run. -/
theorem replay_ok_iff : replay events = .ok run ↔ events ≠ [] ∧ Produced events run := by
  cases events with
  | nil => simp [replay]
  | cons first rest =>
    have name : ∀ {id start}, empty id = .ok start → Path Step start (first :: rest) run →
        first.runId = id := by
      intro id start created path
      obtain ⟨_, step, -⟩ := Path.cons_iff.mp path
      rw [step.spec.1, empty_ok created]
      rfl
    rw [replay, List.head?_cons]
    simp only [except_bind_ok, replayFrom_ok_iff, ne_eq, reduceCtorEq, not_false_eq_true, true_and]
    constructor
    · intro ⟨start, created, path⟩
      exact ⟨_, start, created, path⟩
    · intro ⟨id, start, created, path⟩
      rw [name created path]
      exact ⟨start, created, path⟩

/-! ## Order -/

/-- The state a transition leads to, by the payload. -/
def Leads (state : ReasoningState) (last : Option Bool) (payload : ReasoningPayload)
    (next : ReasoningState) : Prop :=
  match payload with
  | .goal _ _ => state = .empty ∧ next = .needsPlan
  | .plan _ _ => state = .needsPlan ∧ next = .needsAttempt
  | .attempt _ _ => state = .needsAttempt ∧ next = .needsObservation
  | .observation _ _ => state = .needsObservation ∧ next = .needsDecision
  | .decision _ _ =>
    state = .needsDecision ∧ (next = .needsAttempt ∨ next = .needsVerification) ∨
    state = .needsPostVerificationDecision ∧ (next = .needsAttempt ∨ next = .needsOutcome)
  | .verification checks => state = .needsVerification ∧
    next = if allPassed checks then .needsOutcome else .needsPostVerificationDecision
  | .outcome outcome _ => state = .needsOutcome ∧ next = .complete ∧
    (outcome = .succeeded → last = some true)

theorem leads_of_transition {state next : ReasoningState} {last : Option Bool}
    {payload : ReasoningPayload} (moved : transition state last payload = .ok next) :
    Leads state last payload next := by
  unfold transition at moved
  split at moved
  case h_8 checks =>
    by_cases all : allPassed checks
    · rw [if_pos all, Except.ok.injEq] at moved
      exact ⟨rfl, by rw [if_pos all, moved]⟩
    · rw [if_neg all, Except.ok.injEq] at moved
      exact ⟨rfl, by rw [if_neg all, moved]⟩
  case h_11 outcome summary =>
    split at moved <;> cases moved <;> simp [Leads]
  all_goals
    cases moved
    try simp [Leads]

theorem Step.leads (step : Step run event run') :
    Leads run.state run.lastVerificationPassed event.payload run'.state :=
  leads_of_transition step.spec.2.1

/-- Only an attempt makes a run wait for an observation, and then an observation is next. -/
theorem Step.waits (step : Step run event run') :
    (run'.state = .needsObservation ↔ event.isAttempt) ∧
      (run.state = .needsObservation ↔ event.isObservation) := by
  have leads := step.leads
  unfold isAttempt isObservation
  cases payload : event.payload with
  | decision decision rationale =>
    rw [payload] at leads
    rcases leads with ⟨before, after | after⟩ | ⟨before, after | after⟩ <;> simp [before, after]
  | verification checks =>
    rw [payload] at leads
    obtain ⟨before, after⟩ := leads
    rw [before, after]
    split <;> simp
  | _ =>
    rw [payload] at leads
    simp [leads.1, leads.2]

theorem Step.after_outcome (step : Step run event run') (outcome : event.isOutcome) :
    run'.state = .complete := by
  have leads := step.leads
  unfold isOutcome at outcome
  split at outcome
  · rename_i payload
    rw [payload] at leads
    exact leads.2.1
  · cases outcome

theorem not_step_of_complete (complete : run.state = .complete) : ¬ Step run event run' := by
  intro step
  have leads := step.leads
  rw [complete] at leads
  unfold Leads at leads
  split at leads <;> simp at leads

/-- Until the next attempt there is no observation, unless one is waited for. -/
theorem countP_observation (path : Path Step run events run') (other : run.state ≠ .needsObservation) :
    (events.takeWhile fun event => ! event.isAttempt).countP (·.isObservation) = 0 := by
  induction path with
  | nil => rfl
  | @cons run next _ event rest first later ih =>
    have none_ : event.isObservation = false := by
      simpa using mt first.waits.2.mpr other
    by_cases attempt : event.isAttempt
    · simp [attempt]
    · have kept : next.state ≠ .needsObservation := mt first.waits.1.mp attempt
      simp [attempt, none_, ih kept]

/-- What the last event says while a run needs its outcome or a decision about a verification. -/
def Judged (run : ReasoningRun) : Prop :=
  (run.state = .needsOutcome → run.lastVerificationPassed = some true →
    ∃ front verification, run.events = front ++ [verification] ∧ verification.passes) ∧
  (run.state = .needsPostVerificationDecision → run.lastVerificationPassed = some false)

theorem Step.judged (judged : Judged run) (step : Step run event run') : Judged run' := by
  have leads := step.leads
  have same : run'.lastVerificationPassed = verified run.lastVerificationPassed event.payload := by
    have := congrArg ReasoningRun.lastVerificationPassed step.spec.2.2
    exact this
  cases payload : event.payload with
  | decision decision rationale =>
    rw [payload] at leads same
    rcases leads with ⟨before, after | after⟩ | ⟨before, after | after⟩
    · simp [Judged, after]
    · simp [Judged, after]
    · simp [Judged, after]
    · have last : run'.lastVerificationPassed = some false := same.trans (judged.2 before)
      simp [Judged, after, last]
  | verification checks =>
    rw [payload] at leads same
    have last : run'.lastVerificationPassed = some (allPassed checks) := same
    obtain ⟨before, after⟩ := leads
    by_cases all : allPassed checks
    · rw [if_pos all] at after
      have passes : event.passes = true := by simp [passes, payload, all]
      refine ⟨fun _ _ => ⟨_, _, step.events_eq, passes⟩, ?_⟩
      simp [after]
    · rw [if_neg all] at after
      simp [Judged, after, last, all]
  | outcome outcome summary =>
    rw [payload] at leads
    simp [Judged, leads.2.1]
  | _ =>
    rw [payload] at leads
    simp [Judged, leads.2]

theorem Produced.judged (produced : Produced events run) : Judged run := by
  obtain ⟨id, start, created, path⟩ := produced
  apply path.keeps fun _ _ _ judged step => Step.judged judged step
  rw [empty_ok created]
  simp [Judged]

/-- The run before an event of a history, and the one after it. -/
theorem Produced.split {front rest : List ReasoningEvent}
    (produced : Produced (front ++ event :: rest) run) :
    ∃ before after, Produced front before ∧ Step before event after ∧ Path Step after rest run := by
  obtain ⟨id, start, created, path⟩ := produced
  obtain ⟨before, first, second⟩ := Path.append_iff.mp path
  obtain ⟨after, step, later⟩ := Path.cons_iff.mp second
  exact ⟨before, after, ⟨id, start, created, first⟩, step, later⟩

theorem Produced.wellOrdered (produced : Produced events run) : WellOrdered events := by
  constructor
  · intro front attempt rest here isAttempt more
    subst here
    obtain ⟨before, after, -, step, path⟩ := produced.split
    have waiting := step.waits.1.mpr isAttempt
    cases path with
    | nil => exact absurd rfl more
    | @cons _ next _ event rest first later =>
      have observation : event.isObservation := first.waits.2.mp waiting
      have plain : event.isAttempt = false := by
        unfold isObservation at observation
        unfold ReasoningEvent.isAttempt
        split at observation
        · rename_i payload
          rw [payload]
        · cases observation
      have done : next.state ≠ .needsObservation := by
        rw [ne_eq, first.waits.1, plain]
        simp
      rw [List.takeWhile_cons, plain]
      simp [observation, countP_observation later done]
  · intro front outcome rest here succeeds
    subst here
    obtain ⟨before, after, start, step, -⟩ := produced.split
    have leads := step.leads
    unfold ReasoningEvent.succeeds at succeeds
    split at succeeds
    · rename_i summary payload
      rw [payload] at leads
      obtain ⟨needs, -, last⟩ := leads
      obtain ⟨ahead, verification, recorded, passes⟩ := start.judged.1 needs (last rfl)
      exact ⟨ahead, verification, start.events_eq.symm.trans recorded, passes⟩
    · cases succeeds
  · intro front outcome rest here isOutcome
    subst here
    obtain ⟨before, after, -, step, path⟩ := produced.split
    cases path with
    | nil => rfl
    | cons first later => exact absurd first (not_step_of_complete (step.after_outcome isOutcome))

/-! ## Runs of attempts -/

/-- An attempt to append. -/
abbrev Attempt := Millis × String × ReasoningPayload

/-- A run after attempts to append, whatever became of them. -/
def after (run : ReasoningRun) (attempts : List Attempt) : ReasoningRun :=
  attempts.foldl (fun run (at_, actor, payload) => (run.append at_ actor payload).2) run

/-- Attempts leave a history of accepted appends. -/
theorem produced_after {id : String} {start : ReasoningRun} (created : empty id = .ok start)
    (attempts : List Attempt) : Produced (start.after attempts).events (start.after attempts) := by
  induction attempts using List.reverseRecOn with
  | nil =>
    refine ⟨id, start, created, ?_⟩
    rw [empty_ok created]
    exact .nil _
  | append_singleton attempts attempt ih =>
    obtain ⟨at_, actor, payload⟩ := attempt
    have last : start.after (attempts ++ [(at_, actor, payload)]) =
        ((start.after attempts).append at_ actor payload).2 := by
      rw [after, List.foldl_append]
      rfl
    rw [last]
    cases outcome : (start.after attempts).append at_ actor payload with
    | mk result next =>
      cases result with
      | error e =>
        have same := append_error (congrArg Prod.fst outcome)
        rw [outcome] at same
        rw [same]
        exact ih
      | ok event =>
        have step : Step (start.after attempts) event next := ⟨_, _, _, outcome⟩
        obtain ⟨id', start', created', path⟩ := ih
        refine ⟨id', start', created', ?_⟩
        rw [step.events_eq]
        exact path.concat step

/-- After any attempts to append, a rejected one changes nothing, the recorded events are well
ordered, and they replay to the run as soon as there is one; and exactly the lists of events that
accepted appends produce replay. -/
theorem reasoning_law (id : String) (start : ReasoningRun) (created : empty id = .ok start)
    (attempts : List Attempt) :
    let run := start.after attempts
    (∀ at_ actor payload e, (run.append at_ actor payload).1 = .error e →
      (run.append at_ actor payload).2 = run) ∧
    WellOrdered run.events ∧
    (run.events ≠ [] → replay run.events = .ok run) ∧
    ∀ events replayed, replay events = .ok replayed ↔ events ≠ [] ∧ Produced events replayed := by
  intro run
  have produced : Produced run.events run := produced_after created attempts
  refine ⟨fun at_ actor payload e rejected => append_error rejected, produced.wellOrdered, ?_, ?_⟩
  · intro some_
    exact replay_ok_iff.mpr ⟨some_, produced⟩
  · intro events replayed
    exact replay_ok_iff

/-- A run with its goal. -/
def goalSet : Attempt := (1, "agent", .goal "fix it" ["tests pass"])

theorem reasoning_law_goal : ∃ start, empty "run-1" = .ok start ∧
    (start.after [goalSet]).state = .needsPlan ∧ WellOrdered (start.after [goalSet]).events ∧
    replay (start.after [goalSet]).events = .ok (start.after [goalSet]) := by
  refine ⟨_, rfl, by decide +kernel, ?_⟩
  obtain ⟨-, ordered, replays, -⟩ := reasoning_law "run-1" _ rfl [goalSet]
  exact ⟨ordered, replays (by decide +kernel)⟩

/-- A run that nothing has been appended to does not replay. -/
theorem replay_empty : ∃ start, empty "run-1" = .ok start ∧ Produced [] start ∧ start.events = [] ∧
    ∀ run, replay start.events ≠ .ok run := by
  refine ⟨_, rfl, ⟨"run-1", _, rfl, .nil _⟩, rfl, ?_⟩
  intro run
  simp [replay]

end ReasoningRun

end Vyrm.Core
