import Vyrm.Store.Writer.Accounts

/-!
# What flush promises

A flush that returns was called when no more claims had been submitted than are
durable now; after a failed append nothing is accepted any more.
-/

namespace Vyrm.Store.Writer
open Lib Vyrm.Core

section

variable [Codec] {config : WriterConfig} {shown : Error → String} {start : Fjall}
  {events : List WriterEvent} {writer writer' : Writer} {event : WriterEvent}

theorem Accounts.spawn {first : UInt64} (opened : start.sequence = .ok first) :
    Accounts start first.toNat [] (spawn start) :=
  ⟨Fjall.Holds.start opened, rfl, Nat.le_refl _, rfl, (fun failed => by cases failed),
    fun _ => rfl⟩

/-- The accounts after any steps. -/
theorem Accounts.of_path {first : UInt64} (opened : start.sequence = .ok first)
    (path : Path (Step config shown) (Writer.spawn start) events writer) :
    Accounts start first.toNat events writer := by
  induction events using List.reverseRecOn generalizing writer with
  | nil =>
    rw [Path.nil_iff] at path
    rw [← path]
    exact .spawn opened
  | append_singleton events event ih =>
    obtain ⟨before, earlier, last⟩ := Path.append_iff.mp path
    obtain ⟨after, step, done⟩ := Path.cons_iff.mp last
    rw [Path.nil_iff] at done
    rw [← done]
    exact (ih earlier).step step

/-! ## Flushes -/

/-- A flush keeps its target until it returns. -/
theorem target_kept {caller target : Nat} (path : Path (Step config shown) writer events writer')
    (other : ∀ result, .flushBegan caller result ∉ events)
    (waits : ∀ t, writer.flushes caller = some t → t = target) :
    ∀ t, writer'.flushes caller = some t → t = target := by
  induction path with
  | nil => exact waits
  | @cons writer next _ event rest first _ ih =>
    apply ih fun result member => other result (List.mem_cons_of_mem _ member)
    intro t found
    apply waits
    cases first with
    | @flush another result state fresh turn =>
      have different : caller ≠ another := by
        rintro rfl
        exact other result List.mem_cons_self
      dsimp only at found
      rwa [Function.update_of_ne different] at found
    | @wake another target' result waiting turn =>
      dsimp only at found
      by_cases same : caller = another
      · subst same
        rw [Function.update_self] at found
        split at found
        · rw [waiting]
          exact found
        · cases found
      · rwa [Function.update_of_ne same] at found
    | _ => exact found

omit [Codec] in
/-- A flush that returns after waiting has its target reached. -/
theorem flushWoken_ok {state : WriterState} {target : Nat}
    (done : state.flushWoken target = some (.ok ())) : target ≤ state.durableThrough := by
  unfold WriterState.flushWoken at done
  split at done
  · cases failure : state.failure with
    | none =>
      rw [failure] at done
      cases done
    | some message =>
      rw [failure] at done
      cases done
  · omega

omit [Codec] in
theorem flush_ok {state state' : WriterState} (done : state.flush = (some (.ok ()), state')) :
    state.submitted ≤ state.durableThrough ∧ state' = state := by
  unfold WriterState.flush at done
  split at done
  · cases done
  · split at done
    · rename_i reached
      rw [Prod.mk.injEq] at done
      exact ⟨reached, done.2.symm⟩
    · cases done

/-- What was accepted before a flush that has just returned is durable. -/
theorem durable_of_flushed {first : UInt64} (opened : start.sequence = .ok first)
    {front middle : List WriterEvent} {caller : Nat}
    (path : Path (Step config shown) (Writer.spawn start)
      (front ++ .flushBegan caller none :: middle ++ [.flushWoke caller (some (.ok ()))]) writer)
    (other : ∀ result, .flushBegan caller result ∉ middle) :
    (accepted front).length ≤ writer.state.durableThrough := by
  obtain ⟨woken, earlier, last⟩ := Path.append_iff.mp path
  obtain ⟨after, returned, done⟩ := Path.cons_iff.mp last
  rw [Path.nil_iff] at done
  obtain ⟨before, ahead, rest⟩ := Path.append_iff.mp earlier
  obtain ⟨waiting, began, middle'⟩ := Path.cons_iff.mp rest
  have submitted := (Accounts.of_path opened ahead).submitted
  cases began with
  | @flush _ _ state fresh turn =>
    have target : ∀ t, Function.update before.flushes caller (some before.state.submitted) caller = some t →
        t = before.state.submitted := by
      intro t found
      rw [Function.update_self, Option.some.injEq] at found
      exact found.symm
    have kept := target_kept middle' other target
    cases returned with
    | @wake _ t _ waits turn =>
      have reached := flushWoken_ok turn
      rw [kept t waits, submitted] at reached
      rw [← done]
      exact reached

/-- What was accepted before a flush that returns at once is durable. -/
theorem durable_of_flush {first : UInt64} (opened : start.sequence = .ok first)
    {front : List WriterEvent} {caller : Nat}
    (path : Path (Step config shown) (Writer.spawn start)
      (front ++ [.flushBegan caller (some (.ok ()))]) writer) :
    (accepted front).length ≤ writer.state.durableThrough := by
  obtain ⟨before, ahead, last⟩ := Path.append_iff.mp path
  obtain ⟨after, began, done⟩ := Path.cons_iff.mp last
  rw [Path.nil_iff] at done
  have submitted := (Accounts.of_path opened ahead).submitted
  cases began with
  | @flush _ _ state fresh turn =>
    obtain ⟨reached, rfl⟩ := flush_ok turn
    rw [← done, ← submitted]
    exact reached

/-! ## Failure -/

/-- After a failed append the worker is gone, and nothing more is accepted, flushed or appended. -/
theorem Step.failed (step : Step config shown writer event writer')
    (failed : writer.state.failure.isSome ∧ writer.worker = .exited) :
    (writer'.state.failure.isSome ∧ writer'.worker = .exited) ∧
    (∀ claim, event ≠ .submitted claim (.ok ())) ∧
    (∀ caller, event ≠ .flushBegan caller (some (.ok ()))) ∧
    ∀ batch result, event ≠ .completed batch result := by
  obtain ⟨failure, gone⟩ := failed
  obtain ⟨message, isMessage⟩ := Option.isSome_iff_exists.mp failure
  cases step with
  | @submit claim result state turn =>
    rcases submit_spec config writer.state claim with
      ⟨next, -, working, -⟩ | ⟨other, next, isTurn, refused, -, -, -, kept, -⟩
    · rw [isMessage] at working
      cases working
    · rw [isTurn, Prod.mk.injEq] at turn
      obtain ⟨rfl, rfl⟩ := turn
      refine ⟨⟨by rw [kept]; exact failure, gone⟩, ?_, by simp, by simp⟩
      intro claim' same
      cases same
      exact refused rfl
  | @block claim state turn =>
    rcases submit_spec config writer.state claim with
      ⟨next, -, working, -⟩ | ⟨other, next, isTurn, -, -, -, -, kept, -⟩
    · rw [isMessage] at working
      cases working
    · rw [isTurn, Prod.mk.injEq] at turn
      obtain ⟨rfl, rfl⟩ := turn
      exact ⟨⟨by rw [kept]; exact failure, gone⟩, by simp, by simp, by simp⟩
  | @flush caller result state fresh turn =>
    rw [WriterState.flush, isMessage, Prod.mk.injEq] at turn
    obtain ⟨rfl, rfl⟩ := turn
    exact ⟨⟨failure, gone⟩, by simp, by simp, by simp⟩
  | wake waits turn => exact ⟨⟨failure, gone⟩, by simp, by simp, by simp⟩
  | check ready =>
    rcases ready with ⟨running, -⟩ | waiting
    · rw [gone] at running
      cases running
    · rw [gone] at waiting
      cases waiting
  | complete appending appended =>
    rw [gone] at appending
    cases appending
  | stop => exact ⟨⟨failure, gone⟩, by simp, by simp, by simp⟩

theorem failed_path (path : Path (Step config shown) writer events writer')
    (failed : writer.state.failure.isSome ∧ writer.worker = .exited) :
    (∀ claim, .submitted claim (.ok ()) ∉ events) ∧
    (∀ caller, .flushBegan caller (some (.ok ())) ∉ events) ∧
    ∀ batch result, .completed batch result ∉ events := by
  induction path with
  | nil => simp
  | cons first rest ih =>
    obtain ⟨still, noSubmit, noFlush, noAppend⟩ := first.failed failed
    obtain ⟨submits, flushes, appends⟩ := ih still
    refine ⟨fun claim member => ?_, fun caller member => ?_, fun batch result member => ?_⟩
    · rcases List.mem_cons.mp member with same | later
      · exact noSubmit claim same.symm
      · exact submits claim later
    · rcases List.mem_cons.mp member with same | later
      · exact noFlush caller same.symm
      · exact flushes caller later
    · rcases List.mem_cons.mp member with same | later
      · exact noAppend batch result same.symm
      · exact appends batch result later

theorem Step.fails {batch : List Claim} {e : Error}
    (step : Step config shown writer (.completed batch (.error e)) writer') :
    writer'.state.failure.isSome ∧ writer'.worker = .exited := by
  cases step
  exact ⟨rfl, rfl⟩

/-! ## The writer -/

/-- After any steps of any callers and the worker: the store has recorded the durable claims, in the
order of submission; what was submitted is durable, in flight, in the batch that failed, or pending, in
this order; a flush that returns has everything durable that was submitted before it; and after a
failure nothing is accepted, and only a flush of durable claims returns. -/
theorem group_commit {first : UInt64} (opened : start.sequence = .ok first)
    (path : Path (Step config shown) (Writer.spawn start) events writer) :
    let log := accepted events
    let durable := log.take writer.state.durableThrough
    start.Holds first.toNat durable writer.store ∧
    log = durable ++ (writer.inFlight ++ unwritten events ++ writer.state.pending) ∧
    writer.state.submitted = log.length ∧
    log.length = writer.state.durableThrough + writer.inFlight.length + (unwritten events).length +
      writer.state.pending.length ∧
    (∀ front middle caller,
      events = front ++ .flushBegan caller none :: middle ++ [.flushWoke caller (some (.ok ()))] →
      (∀ result, .flushBegan caller result ∉ middle) → accepted front <+: durable) ∧
    (∀ front caller, events = front ++ [.flushBegan caller (some (.ok ()))] → accepted front <+: durable) ∧
    ∀ front batch e rest, events = front ++ .completed batch (.error e) :: rest →
      (∀ claim, .submitted claim (.ok ()) ∉ rest) ∧
      (∀ caller, .flushBegan caller (some (.ok ())) ∉ rest) ∧
      ∀ batch result, .completed batch result ∉ rest := by
  intro log durable
  have accounts := Accounts.of_path opened path
  have within : ∀ front rest, events = front ++ rest →
      (accepted front).length ≤ writer.state.durableThrough → accepted front <+: durable := by
    rintro front rest rfl reached
    have ahead : accepted front <+: log := by
      simp [log, accepted]
    rw [List.prefix_take_iff]
    exact ⟨ahead, reached⟩
  refine ⟨accounts.stored, accounts.ordered, accounts.submitted, ?_, ?_, ?_, ?_⟩
  · have lengths := congrArg List.length accounts.ordered
    simp only [List.length_append, List.length_take_of_le accounts.durable] at lengths
    change (accepted events).length = _
    omega
  · intro front middle caller isEvents other
    apply within front _ (by rw [isEvents, List.append_assoc])
    rw [isEvents] at path
    exact durable_of_flushed opened path other
  · intro front caller isEvents
    apply within front _ isEvents
    rw [isEvents] at path
    exact durable_of_flush opened path
  · intro front batch e rest isEvents
    rw [isEvents] at path
    obtain ⟨before, -, later⟩ := Path.append_iff.mp path
    obtain ⟨after, failing, rest'⟩ := Path.cons_iff.mp later
    exact failed_path rest' failing.fails

end

/-! ## A writer at work -/

/-- A claim that is submitted. -/
def lampLit : Claim :=
  { subject := .lit "lamp" (Eq.refl true), predicate := .lit "state" (Eq.refl true),
    object := "lit", validFrom := 1, validTo := none, txTime := 1, producer := ⟨"guard", none, none⟩,
    confidence := none, supersedes := none, signature := none, tier := .localTier,
    promotionState := .unpromoted }

/-- An encoding that knows the claim; nothing else is encoded. -/
@[reducible] def lampCodec : Codec where
  claim := .ofTexts plainClaim [lampLit]
  change := .ofTexts (fun _ => "") []
  work := .ofTexts (fun _ => "") []
  registry := .ofTexts (fun _ => "") []
  record := .ofTexts (fun _ => "") []
  relation := .ofTexts (fun _ => "") []
  vector := .ofTexts (fun _ => "") []
  sample := .ofTexts (fun _ => "") []
  geo := .ofTexts (fun _ => "") []
  object := .ofTexts (fun _ => "") []
  audit := .ofTexts (fun _ => "") []
  outcome := .ofTexts (fun _ => "") []

def smallConfig : WriterConfig := ⟨8, 64, by decide, by decide⟩

def emptyStore : Fjall := ⟨fun _ => ∅⟩

/-- A claim is submitted, flushed and appended. -/
def flushed : List WriterEvent :=
  [.submitted lampLit (.ok ()), .flushBegan 0 none, .checked false, .completed [lampLit] (.ok ⟨1, 1, 1⟩),
    .flushWoke 0 (some (.ok ()))]

theorem path_flushed : ∃ writer, Path (@Step lampCodec smallConfig fun _ => "") (spawn emptyStore) flushed
    writer ∧ writer.state.durableThrough = 1 := by
  let _ := lampCodec
  have appended : emptyStore.appendBatch [lampLit] = .ok (⟨1, 1, 1⟩, _) := rfl
  refine ⟨?writer, ?path, ?durable⟩
  case path =>
    apply Path.cons (.submit rfl)
    apply Path.cons (.flush rfl rfl)
    apply Path.cons (.check (.inl ⟨rfl, rfl⟩))
    apply Path.cons (.complete rfl (.accepted appended))
    apply Path.cons (.wake rfl rfl)
    exact .nil _
  case durable => rfl

/-- The claim is in the store when the flush returns. -/
theorem group_commit_flushed : ∃ writer, Path (@Step lampCodec smallConfig fun _ => "")
    (spawn emptyStore) flushed writer ∧ writer.state.durableThrough = 1 ∧
    @Fjall.Holds lampCodec emptyStore 0 [lampLit] writer.store := by
  obtain ⟨writer, path, durable⟩ := path_flushed
  have stored := (@group_commit lampCodec smallConfig (fun _ => "") emptyStore flushed writer 0 rfl path).1
  rw [durable] at stored
  exact ⟨writer, path, durable, stored⟩

/-- When the append fails, the claim is neither durable nor in flight nor pending: it is lost. -/
theorem append_failed : ∃ writer, Path (@Step lampCodec smallConfig fun _ => "") (spawn emptyStore)
      [.submitted lampLit (.ok ()), .flushBegan 0 none, .checked false,
        .completed [lampLit] (.error (.substrate "disk full"))] writer ∧
    writer.state.submitted = 1 ∧ writer.worker = .exited ∧ writer.store = emptyStore ∧
    writer.state.submitted ≠ writer.state.durableThrough + writer.inFlight.length +
      writer.state.pending.length := by
  let _ := lampCodec
  refine ⟨?writer, ?path, ?rest⟩
  case path =>
    apply Path.cons (.submit rfl)
    apply Path.cons (.flush rfl rfl)
    apply Path.cons (.check (.inl ⟨rfl, rfl⟩))
    apply Path.cons (.complete rfl (.aborted _))
    exact .nil _
  case rest => exact ⟨rfl, rfl, rfl, by decide⟩

end Vyrm.Store.Writer
