import Vyrm.Store.Writer

/-!
# What becomes of submitted claims

Every submitted claim is durable, in the batch being appended, in the batch whose
append failed, or pending, and in this order they are the claims submitted. `Accounts`
says so of a writer and the events up to it; every step keeps it.
-/

namespace Vyrm.Store
open Lib Vyrm.Core

/-! ## Events -/

/-- The claim a step has accepted. -/
def WriterEvent.accepted : WriterEvent → List Claim
  | .submitted claim (.ok ()) => [claim]
  | _ => []

/-- The batch whose append failed in a step. -/
def WriterEvent.unwritten : WriterEvent → List Claim
  | .completed batch (.error _) => batch
  | _ => []

namespace Writer

/-- The claims that `submit` has accepted, in order. -/
def accepted (events : List WriterEvent) : List Claim := events.flatMap WriterEvent.accepted

/-- The claims of the batch whose append failed. -/
def unwritten (events : List WriterEvent) : List Claim := events.flatMap WriterEvent.unwritten

theorem accepted_append (events : List WriterEvent) (event : WriterEvent) :
    accepted (events ++ [event]) = accepted events ++ event.accepted := by
  simp [accepted]

theorem unwritten_append (events : List WriterEvent) (event : WriterEvent) :
    unwritten (events ++ [event]) = unwritten events ++ event.unwritten := by
  simp [unwritten]

/-- The batch that is being appended. -/
def inFlight (writer : Writer) : List Claim :=
  match writer.worker with
  | .appending batch => batch
  | _ => []

/-! ## Turns -/

variable {config : WriterConfig}

theorem take_spec (config : WriterConfig) (state : WriterState) :
    ∃ batch, (state.take config).1 = .appending batch ∧
      state.pending = batch ++ (state.take config).2.pending ∧
      (state.take config).2.durableThrough = state.durableThrough ∧
      (state.take config).2.submitted = state.submitted ∧
      (state.take config).2.failure = state.failure :=
  ⟨_, rfl, (List.take_append_drop _ _).symm, rfl, rfl, rfl⟩

/-- A turn of the worker moves claims from the queue into its batch, or none. -/
theorem check_spec (config : WriterConfig) (state : WriterState) (timedOut : Bool) :
    ∃ batch, state.pending = batch ++ (state.check config timedOut).2.pending ∧
      ((state.check config timedOut).1 = .appending batch ∨
        batch = [] ∧ ((state.check config timedOut).1 = .waiting ∨ (state.check config timedOut).1 = .exited)) ∧
      (state.check config timedOut).2.durableThrough = state.durableThrough ∧
      (state.check config timedOut).2.submitted = state.submitted ∧
      (state.check config timedOut).2.failure = state.failure := by
  unfold WriterState.check
  split
  · obtain ⟨batch, taken, pending, fields⟩ := take_spec config state
    exact ⟨batch, pending, .inl taken, fields⟩
  split
  · exact ⟨[], rfl, .inr ⟨rfl, .inr rfl⟩, rfl, rfl, rfl⟩
  · by_cases empty : state.pending = []
    · refine ⟨[], ?_⟩
      simp [empty]
    · simp only [empty, if_false, ne_eq, not_false_eq_true, true_and]
      split
      · obtain ⟨batch, taken, pending, fields⟩ := take_spec config state
        exact ⟨batch, pending, .inl taken, fields⟩
      · exact ⟨[], rfl, .inr ⟨rfl, .inl rfl⟩, rfl, rfl, rfl⟩

/-- A turn of a submitter: an accepted claim goes to the end of the queue, and only while the writer
neither failed nor was shut down. -/
theorem submit_spec (config : WriterConfig) (state : WriterState) (claim : Claim) :
    (∃ next, state.submit config claim = (some (.ok ()), next) ∧ state.failure = none ∧
      next.pending = state.pending ++ [claim] ∧ next.submitted = state.submitted + 1 ∧
      next.durableThrough = state.durableThrough ∧ next.failure = none ∧
      next.shutdown = state.shutdown) ∨
    (∃ result next, state.submit config claim = (result, next) ∧ result ≠ some (.ok ()) ∧
      next.pending = state.pending ∧ next.submitted = state.submitted ∧
      next.durableThrough = state.durableThrough ∧ next.failure = state.failure ∧
      next.shutdown = state.shutdown) := by
  unfold WriterState.submit
  cases claim.validate with
  | error e => exact .inr ⟨_, _, rfl, by simp, rfl, rfl, rfl, rfl, rfl⟩
  | ok valid =>
    cases failure : state.failure with
    | some failure => exact .inr ⟨_, _, rfl, by simp, rfl, rfl, rfl, by simp [*], rfl⟩
    | none =>
      dsimp only
      split
      · exact .inr ⟨_, _, rfl, by simp, rfl, rfl, rfl, by simp [*], rfl⟩
      split
      · exact .inl ⟨_, rfl, rfl, rfl, rfl, rfl, rfl, rfl⟩
      · exact .inr ⟨_, _, rfl, by simp, rfl, rfl, rfl, by simp [*], rfl⟩

/-! ## The invariant -/

variable [Codec] {shown : Error → String} {start : Fjall} {first : Nat}
  {events : List WriterEvent} {writer writer' : Writer} {event : WriterEvent}

/-- Where the submitted claims are. -/
structure Accounts (start : Fjall) (first : Nat) (events : List WriterEvent) (writer : Writer) : Prop where
  stored : start.Holds first ((accepted events).take writer.state.durableThrough) writer.store
  ordered : accepted events = (accepted events).take writer.state.durableThrough ++
    (writer.inFlight ++ unwritten events ++ writer.state.pending)
  durable : writer.state.durableThrough ≤ (accepted events).length
  submitted : writer.state.submitted = (accepted events).length
  failed : writer.state.failure.isSome → writer.worker = .exited ∧ writer.state.shutdown = true
  clean : writer.state.failure = none → unwritten events = []

/-- A step that accepts nothing and fails nothing keeps the accounts, if the queue and the batch hold
the same claims as before. -/
theorem Accounts.quiet (accounts : Accounts start first events writer)
    (accepts : event.accepted = []) (fails : event.unwritten = [])
    (moved : writer'.inFlight ++ writer'.state.pending = writer.inFlight ++ writer.state.pending)
    (store : writer'.store = writer.store)
    (durable : writer'.state.durableThrough = writer.state.durableThrough)
    (submitted : writer'.state.submitted = writer.state.submitted)
    (failure : writer'.state.failure = writer.state.failure)
    (failed : writer'.state.failure.isSome → writer'.worker = .exited ∧ writer'.state.shutdown = true) :
    Accounts start first (events ++ [event]) writer' := by
  have same : accepted (events ++ [event]) = accepted events := by simp [accepted_append, accepts]
  have lost : unwritten (events ++ [event]) = unwritten events := by simp [unwritten_append, fails]
  refine ⟨?_, ?_, ?_, ?_, failed, ?_⟩
  · rw [same, store, durable]
    exact accounts.stored
  · rw [same, lost, durable]
    cases failure' : writer.state.failure with
    | none =>
      have ordered := accounts.ordered
      rw [accounts.clean failure', List.append_nil] at ordered ⊢
      rw [moved]
      exact ordered
    | some message =>
      -- the worker is gone, before and after
      have gone := (accounts.failed (by rw [failure']; rfl)).1
      have gone' := (failed (by rw [failure, failure']; rfl)).1
      have ordered := accounts.ordered
      rw [inFlight, inFlight, gone, gone', List.nil_append, List.nil_append] at moved
      rw [inFlight, gone] at ordered
      rw [inFlight, gone', moved]
      exact ordered
  · rw [same, durable]
    exact accounts.durable
  · rw [same, submitted]
    exact accounts.submitted
  · rw [failure, lost]
    exact accounts.clean

theorem Accounts.step (accounts : Accounts start first events writer)
    (step : Step config shown writer event writer') :
    Accounts start first (events ++ [event]) writer' := by
  cases step with
  | @submit claim result state turn =>
    rcases submit_spec config writer.state claim with
      ⟨next, isTurn, working, pending, submitted, durable, failure, shutdown⟩ |
      ⟨other, next, isTurn, refused, pending, submitted, durable, failure, shutdown⟩
    · rw [isTurn, Prod.mk.injEq, Option.some.injEq] at turn
      obtain ⟨rfl, rfl⟩ := turn
      have grown : accepted (events ++ [.submitted claim (.ok ())]) = accepted events ++ [claim] :=
        accepted_append _ _
      have lost : unwritten (events ++ [.submitted claim (.ok ())]) = unwritten events := by
        simp [unwritten_append, WriterEvent.unwritten]
      have within := accounts.durable
      have taken : (accepted events ++ [claim]).take writer.state.durableThrough =
          (accepted events).take writer.state.durableThrough := List.take_append_of_le_length within
      refine ⟨?_, ?_, ?_, ?_, ?_, ?_⟩
      · rw [grown, durable, taken]
        exact accounts.stored
      · have ordered := accounts.ordered
        have batch : Writer.inFlight { writer with state := next } = writer.inFlight := rfl
        rw [grown, lost, durable, taken, pending, batch, ← List.append_assoc, ← List.append_assoc]
        conv_lhs => rw [ordered]
        simp
      · rw [grown, durable, List.length_append]
        exact within.trans (Nat.le_add_right _ _)
      · rw [grown, submitted, accounts.submitted, List.length_append, List.length_singleton]
      · intro some_
        rw [failure] at some_
        cases some_
      · intro _
        rw [lost]
        exact accounts.clean working
    · rw [isTurn, Prod.mk.injEq] at turn
      obtain ⟨rfl, rfl⟩ := turn
      have accepts : (WriterEvent.submitted claim result).accepted = [] := by
        unfold WriterEvent.accepted
        split
        · rename_i same
          cases same
          exact absurd rfl refused
        · rfl
      refine accounts.quiet accepts rfl ?_ rfl durable submitted failure ?_
      · change writer.inFlight ++ next.pending = _
        rw [pending]
      · intro some_
        change writer.worker = .exited ∧ next.shutdown = true
        rw [shutdown]
        exact accounts.failed (failure ▸ some_)
  | @block claim state turn =>
    rcases submit_spec config writer.state claim with
      ⟨next, isTurn, -⟩ | ⟨other, next, isTurn, -, pending, submitted, durable, failure, shutdown⟩
    · rw [isTurn, Prod.mk.injEq] at turn
      cases turn.1
    · rw [isTurn, Prod.mk.injEq] at turn
      obtain ⟨rfl, rfl⟩ := turn
      refine accounts.quiet rfl rfl ?_ rfl durable submitted failure ?_
      · change writer.inFlight ++ next.pending = _
        rw [pending]
      · intro some_
        change writer.worker = .exited ∧ next.shutdown = true
        rw [shutdown]
        exact accounts.failed (failure ▸ some_)
  | @flush caller result state fresh turn =>
    have kept : state.pending = writer.state.pending ∧ state.durableThrough = writer.state.durableThrough ∧
        state.submitted = writer.state.submitted ∧ state.failure = writer.state.failure ∧
        state.shutdown = writer.state.shutdown := by
      have := congrArg Prod.snd turn
      change writer.state.flush.2 = state at this
      rw [← this]
      unfold WriterState.flush
      split
      · exact ⟨rfl, rfl, rfl, rfl, rfl⟩
      · split <;> exact ⟨rfl, rfl, rfl, by simp [*], rfl⟩
    obtain ⟨pending, durable, submitted, failure, shutdown⟩ := kept
    refine accounts.quiet rfl rfl ?_ rfl durable submitted failure ?_
    · change writer.inFlight ++ state.pending = _
      rw [pending]
    · intro some_
      change writer.worker = .exited ∧ state.shutdown = true
      rw [shutdown]
      exact accounts.failed (failure ▸ some_)
  | wake waits turn => exact accounts.quiet rfl rfl rfl rfl rfl rfl rfl accounts.failed
  | @check timedOut ready =>
    obtain ⟨batch, pending, turn, durable, submitted, failure⟩ :=
      check_spec config writer.state timedOut
    have idle : writer.inFlight = [] := by
      rcases ready with ⟨running, -⟩ | waiting
      · simp [inFlight, running]
      · simp [inFlight, waiting]
    have alive : writer.state.failure = none := by
      by_contra failed
      have gone := (accounts.failed (Option.isSome_iff_ne_none.mpr failed)).1
      rcases ready with ⟨running, -⟩ | waiting
      · rw [gone] at running
        cases running
      · rw [gone] at waiting
        cases waiting
    refine accounts.quiet rfl rfl ?_ rfl durable submitted failure ?_
    · rw [idle, pending, List.nil_append]
      congr 1
      rcases turn with appending | ⟨rfl, waiting | exited⟩
      · simp [inFlight, appending]
      · simp [inFlight, waiting]
      · simp [inFlight, exited]
    · intro some_
      change (writer.state.check config timedOut).2.failure.isSome at some_
      rw [failure, alive] at some_
      cases some_
  | @complete batch result store appending appended =>
    have alive : writer.state.failure = none := by
      by_contra failed
      have gone := (accounts.failed (Option.isSome_iff_ne_none.mpr failed)).1
      rw [gone] at appending
      cases appending
    have here : writer.inFlight = batch := by simp [inFlight, appending]
    have ordered := accounts.ordered
    rw [here, accounts.clean alive, List.append_nil] at ordered
    have same : accepted (events ++ [.completed batch result]) = accepted events := by
      simp [accepted_append, WriterEvent.accepted]
    have failing : ∀ e, store = writer.store → result = .error e →
        Accounts start first (events ++ [.completed batch result])
          { writer with
            worker := (writer.state.publish shown batch result).1
            state := (writer.state.publish shown batch result).2
            store } := by
      rintro e rfl rfl
      have lost : unwritten (events ++ [.completed batch (.error e)]) = batch := by
        simp [unwritten_append, accounts.clean alive, WriterEvent.unwritten]
      refine ⟨by rw [same]; exact accounts.stored, ?_, by rw [same]; exact accounts.durable,
        by rw [same]; exact accounts.submitted, fun _ => ⟨rfl, rfl⟩, fun none_ => by cases none_⟩
      rw [same, lost]
      exact ordered
    cases appended with
    | rejected ran => exact failing _ rfl rfl
    | aborted e => exact failing e rfl rfl
    | @accepted outcome _ ran =>
      have lost : unwritten (events ++ [.completed batch (.ok outcome)]) = [] := by
        simp [unwritten_append, accounts.clean alive, WriterEvent.unwritten]
      have taken : (accepted events).take (writer.state.durableThrough + batch.length) =
          (accepted events).take writer.state.durableThrough ++ batch := by
        have length : ((accepted events).take writer.state.durableThrough).length =
            writer.state.durableThrough := List.length_take_of_le accounts.durable
        conv_lhs => rw [ordered]
        rw [List.take_append, length, List.take_of_length_le (by omega)]
        simp
      have durable : (accepted events).length =
          writer.state.durableThrough + batch.length + writer.state.pending.length := by
        have := congrArg List.length ordered
        rw [List.length_append, List.length_append, List.length_take_of_le accounts.durable] at this
        omega
      refine ⟨?_, ?_, ?_, by rw [same]; exact accounts.submitted, ?_, fun _ => lost⟩
      · rw [same]
        change start.Holds first ((accepted events).take (writer.state.durableThrough + batch.length)) store
        rw [taken]
        exact (accounts.stored.appendBatch ran).1
      · rw [same, lost]
        change accepted events = (accepted events).take (writer.state.durableThrough + batch.length) ++
          ([] ++ [] ++ writer.state.pending)
        rw [taken]
        conv_lhs => rw [ordered]
        simp
      · rw [same]
        change writer.state.durableThrough + batch.length ≤ _
        omega
      · intro some_
        change writer.state.failure.isSome at some_
        rw [alive] at some_
        cases some_
  | stop =>
    refine accounts.quiet rfl rfl rfl rfl rfl rfl rfl ?_
    intro some_
    exact ⟨(accounts.failed some_).1, rfl⟩

end Writer

end Vyrm.Store
