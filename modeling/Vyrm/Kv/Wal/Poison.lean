import Vyrm.Kv.Reference
import Vyrm.Kv.Wal.Writer

/-!
# Poisoned writers

A run of one writer under any outcomes of its operations: what a write or a sync that failed means
for the calls after it.
-/

namespace Vyrm.Kv
open Lib Lib.FaultFs

section

variable [Platform]

/-- A call of a writer. -/
inductive WalCall where
  | append (batch : WalBatch) (durability : Durability)
  | appendWriteBatch (batch : WriteBatch) (durability : Durability)
  | sync

/-- The files and what becomes of the operations on them. -/
abbrev WalWorld := FaultFs.World Path Directory Process

/-- A writer in use, and whether a write or a sync of it has failed. -/
structure WalSession where
  writer : WalWriter
  world : WalWorld
  broken : Bool

namespace WalCall

/-- The writes of a frame, or the sync after them, fail. -/
def frameBreaks (writer : WalWriter) (batch : WalBatch) (durability : Durability) (world : WalWorld) : Bool :=
  match writer.admission batch with
  | .error _ => false
  | .ok header =>
    match attempt (fileLength writer.path) world with
    | .ok (.ok _) world =>
      match attempt (WalWriter.writeFrame writer.path header batch.payload durability) world with
      | .ok (.error _) _ => true
      | _ => false
    | _ => false

/-- A write or a sync fails that the call makes. -/
def breaks (writer : WalWriter) (world : WalWorld) : WalCall → Bool
  | append batch durability => frameBreaks writer batch durability world
  | appendWriteBatch batch durability =>
    match batch.encode, checkedAdd writer.nextSequence (batch.operations.length - 1) Error.poisonedWriter with
    | .ok payload, .ok lastSequence =>
      frameBreaks writer ⟨writer.nextSequence, lastSequence, payload⟩ durability world
    | _, _ => false
  | sync =>
    ! writer.poisoned && match attempt (syncFile writer.path : Io Unit) world with
      | .ok (.error _) _ => true
      | _ => false

/-- What a call returns, without its receipt, and the writer after it. -/
def perform (writer : WalWriter) : WalCall → Io (Except Error Unit × WalWriter)
  | append batch durability => do
    let (result, writer) ← writer.append batch durability
    return (result.map fun _ => (), writer)
  | appendWriteBatch batch durability => do
    let (result, writer) ← writer.appendWriteBatch batch durability
    return (result.map fun _ => (), writer)
  | sync => do
    let result ← attempt writer.sync
    return (result.map fun _ => (), writer)

end WalCall

namespace WalSession

/-- A call that the process survives. -/
def call (session : WalSession) (call : WalCall) : Option (Except Error Unit × WalSession) :=
  match call.perform session.writer session.world with
  | .ok (result, writer) world =>
    some (result, ⟨writer, world, session.broken || call.breaks session.writer session.world⟩)
  | .error _ _ => none

/-- Calls in turn. -/
def run (session : WalSession) : List WalCall → Option WalSession
  | [] => some session
  | call :: rest =>
    match session.call call with
    | some (_, next) => next.run rest
    | none => none

/-- A sync that is asked for does not fail, and a batch for a poisoned writer is one that it would write. -/
def Sound (session : WalSession) : WalCall → Prop
  | .append _ _ => True
  | .appendWriteBatch batch _ => session.writer.poisoned →
    (batch.encode).isOk ∧ session.writer.nextSequence + (batch.operations.length - 1) ≤ u64Max
  | .sync => ¬ WalCall.sync.breaks session.writer session.world

/-- Every call of a run is sound where it is made. -/
def SoundRun (session : WalSession) : List WalCall → Prop
  | [] => True
  | call :: rest => session.Sound call ∧ ∀ result next, session.call call = some (result, next) → next.SoundRun rest

end WalSession

/-! ## One call -/

theorem admission_poisoned {writer : WalWriter} (poisoned : writer.poisoned) (batch : WalBatch) :
    writer.admission batch = .error .poisonedWriter := by
  simp [WalWriter.admission, poisoned, rejectIf]

theorem append_poisoned {writer : WalWriter} (poisoned : writer.poisoned) (batch : WalBatch)
    (durability : Durability) (world : WalWorld) :
    writer.append batch durability world = .ok (.error .poisonedWriter, writer) world := by
  rw [WalWriter.append, admission_poisoned poisoned]
  rfl

/-- A frame that breaks poisons the writer, and no append takes the poison away. -/
theorem append_poisons {writer next : WalWriter} {batch : WalBatch} {durability : Durability}
    {world after : WalWorld} {result : Except Error AppendReceipt}
    (appended : writer.append batch durability world = .ok (result, next) after)
    (poison : WalCall.frameBreaks writer batch durability world ∨ writer.poisoned) : next.poisoned := by
  rcases poison with breaks | poisoned
  · rw [WalCall.frameBreaks] at breaks
    cases admitted : writer.admission batch with
    | error e => simp [admitted] at breaks
    | ok header =>
      simp only [admitted] at breaks
      rw [WalWriter.append, admitted] at appended
      simp only [bind, EStateM.bind] at appended
      split at breaks
      · rename_i offset world' seeked
        rw [seeked] at appended
        simp only at appended
        split at breaks
        · rename_i e world'' failed
          rw [EStateM.bind, failed] at appended
          cases appended
          rfl
        · cases breaks
      · cases breaks
  · rw [append_poisoned poisoned] at appended
    cases appended
    exact poisoned

/-- A batch that encodes is appended as one frame. -/
theorem appendWriteBatch_of_encode {writer : WalWriter} {batch : WriteBatch} {payload : Bytes}
    {lastSequence : Nat} {e : Error} (encoded : batch.encode = .ok payload)
    (fits : checkedAdd writer.nextSequence (batch.operations.length - 1) e = .ok lastSequence)
    (durability : Durability) : writer.appendWriteBatch batch durability =
      writer.append ⟨writer.nextSequence, lastSequence, payload⟩ durability := by
  have last : ∀ e, checkedAdd writer.nextSequence (batch.operations.length - 1) e = .ok lastSequence :=
    fun e => checkedAdd_ok.mpr (checkedAdd_ok.mp fits)
  rw [WalWriter.appendWriteBatch, encoded]
  simp only [WalWriter.appendEncodedWriteBatch, last]

/-- A batch that does not encode, or does not fit, is refused before the writer is asked. -/
theorem appendWriteBatch_refused {writer : WalWriter} {batch : WriteBatch} {durability : Durability}
    {world : WalWorld} (refused : ∀ payload lastSequence, batch.encode = .ok payload →
      checkedAdd writer.nextSequence (batch.operations.length - 1) Error.poisonedWriter ≠ .ok lastSequence) :
    ∃ e, writer.appendWriteBatch batch durability world = .ok (.error e, writer) world := by
  rw [WalWriter.appendWriteBatch]
  cases encoded : batch.encode with
  | error e => exact ⟨e, rfl⟩
  | ok payload =>
    simp only [WalWriter.appendEncodedWriteBatch]
    cases fits : checkedAdd writer.nextSequence (batch.operations.length - 1) (.invalidBatch "sequence range overflow") with
    | error e => exact ⟨e, rfl⟩
    | ok lastSequence => exact absurd (checkedAdd_ok.mpr (checkedAdd_ok.mp fits)) (refused payload lastSequence encoded)

omit [Platform] in
theorem sync_poisoned {writer : WalWriter} (poisoned : writer.poisoned) (world : WalWorld) :
    attempt writer.sync world = .ok (.error .poisonedWriter) world := by
  rw [attempt, WalWriter.sync, poisoned, rejectIf_of rfl]
  rfl

namespace WalSession

variable {session next : WalSession} {call : WalCall} {result : Except Error Unit}

/-- A poisoned writer refuses every sound call, and nothing happens. -/
theorem call_poisoned (poisoned : session.writer.poisoned) (sound : session.Sound call) :
    session.call call = some (.error .poisonedWriter, session) := by
  obtain ⟨writer, world, broken⟩ := session
  have unbroken : ∀ batch durability, WalCall.frameBreaks writer batch durability world = false := by
    intro batch durability
    rw [WalCall.frameBreaks, admission_poisoned poisoned]
  cases call with
  | append batch durability =>
    have refused := append_poisoned poisoned batch durability world
    simp [WalSession.call, WalCall.perform, WalCall.breaks, unbroken, bind, EStateM.bind, refused, pure, EStateM.pure,
      Except.map]
  | appendWriteBatch batch durability =>
    obtain ⟨encodes, fits⟩ := sound poisoned
    cases encoded : batch.encode with
    | error e => simp [encoded, Except.isOk, Except.toBool] at encodes
    | ok payload =>
      have last := fun e => @checkedAdd_ok writer.nextSequence (batch.operations.length - 1) _ e |>.mpr ⟨fits, rfl⟩
      have refused := append_poisoned poisoned
        ⟨writer.nextSequence, writer.nextSequence + (batch.operations.length - 1), payload⟩ durability world
      simp [WalSession.call, WalCall.perform, WalCall.breaks, appendWriteBatch_of_encode encoded (last Error.poisonedWriter),
        encoded, last, unbroken, bind, EStateM.bind, refused, pure, EStateM.pure, Except.map]
  | sync =>
    have poisoned : writer.poisoned = true := poisoned
    simp [WalSession.call, WalCall.perform, WalCall.breaks, poisoned, bind, EStateM.bind, sync_poisoned poisoned, pure,
      EStateM.pure, Except.map]

/-- After a sound call the writer is poisoned if a write or a sync has failed by then. -/
theorem poisoned_call (sound : session.Sound call) (called : session.call call = some (result, next))
    (poisons : session.broken → session.writer.poisoned) : next.broken → next.writer.poisoned := by
  obtain ⟨writer, world, broken⟩ := session
  simp only [WalSession.call] at called
  split at called
  · rename_i result' writer' world' performed
    cases called
    simp only [Bool.or_eq_true]
    intro broke
    cases call with
    | append batch durability =>
      simp only [WalCall.perform, bind, EStateM.bind] at performed
      split at performed
      · rename_i appended
        cases performed
        exact append_poisons appended (broke.symm.imp id poisons)
      · cases performed
    | appendWriteBatch batch durability =>
      simp only [WalCall.perform, bind, EStateM.bind] at performed
      split at performed
      · rename_i appended
        cases performed
        by_cases written : ∃ payload lastSequence, batch.encode = .ok payload ∧
            checkedAdd writer.nextSequence (batch.operations.length - 1) Error.poisonedWriter = .ok lastSequence
        · obtain ⟨payload, lastSequence, encoded, fits⟩ := written
          rw [appendWriteBatch_of_encode encoded fits] at appended
          simp only [WalCall.breaks, encoded, fits] at broke
          exact append_poisons appended (broke.symm.imp id poisons)
        · have unwritten : ∀ payload lastSequence, batch.encode = .ok payload →
              checkedAdd writer.nextSequence (batch.operations.length - 1) Error.poisonedWriter ≠ .ok lastSequence :=
            fun payload lastSequence encoded fits => written ⟨payload, lastSequence, encoded, fits⟩
          obtain ⟨e, refused⟩ := @appendWriteBatch_refused _ writer batch durability world unwritten
          rw [refused] at appended
          cases appended
          refine poisons (broke.resolve_right ?_)
          simp only [WalCall.breaks]
          exact Bool.false_ne_true
      · cases performed
    | sync =>
      simp only [WalCall.perform, bind, EStateM.bind] at performed
      split at performed
      · cases performed
        exact poisons (broke.resolve_right sound)
      · cases performed
  · cases called

/-! ## Runs -/

theorem poisoned_run {session last : WalSession} {calls : List WalCall} (sound : session.SoundRun calls)
    (ran : session.run calls = some last) (poisons : session.broken → session.writer.poisoned) :
    last.broken → last.writer.poisoned := by
  induction calls generalizing session with
  | nil =>
    cases ran
    exact poisons
  | cons call rest ih =>
    rw [run] at ran
    split at ran
    · rename_i called
      exact ih (sound.2 _ _ called) ran (poisoned_call sound.1 called poisons)
    · cases ran

/-- However a writer was used and whatever became of its operations, once a write or a sync has failed
every call is refused and leaves all as it is: in the runs in which no sync that is asked for fails,
and a poisoned writer is given no batch that it would not write. -/
theorem poisoned_after_failure (writer : WalWriter) (world : WalWorld) (calls : List WalCall) (sound : SoundRun ⟨writer, world, false⟩ calls) (last : WalSession)
    (ran : run ⟨writer, world, false⟩ calls = some last) (broken : last.broken) (call : WalCall)
    (soundCall : last.Sound call) : last.call call = some (.error .poisonedWriter, last) :=
  call_poisoned (poisoned_run sound ran (fun never => nomatch never) broken) soundCall

end WalSession

end

/-! ## A sync that fails -/

/-- A new log with one writer, on a device that writes and does not sync. -/
def samplePoison : WalSession :=
  { writer := ⟨.wal 1, 1, false⟩
    world :=
      { files := AList.singleton (.wal 1) fileHeader
        process := .start 1
        oracle := fun _ op => match op with
          | .sync _ => .error 0
          | _ => .pass
        tick := 0 }
    broken := false }

/-- A batch of one operation for a new log. -/
def sampleFrame : WalBatch := ⟨1, 1, [7]⟩

/-- After a sync that was asked for has failed, an append is accepted and its bytes reach the file; and after
an append that has failed, a batch without operations is refused for what it is. -/
theorem failure_not_poisoned :
    (∃ last next, samplePoison.run [.sync] = some last ∧ last.broken ∧
      last.call (.append sampleFrame .buffered) = some (.ok (), next) ∧
        next.world.files.lookup (.wal 1) = some (fileHeader ++ frame sampleFrame)) ∧
    ∃ last next e, samplePoison.run [.append sampleFrame .authoritative] = some last ∧ last.broken ∧
      last.call (.appendWriteBatch ⟨[]⟩ .buffered) = some (.error e, next) ∧ e ≠ .poisonedWriter := by
  constructor
  · refine ⟨_, _, rfl, rfl, rfl, ?_⟩
    decide +kernel
  · refine ⟨_, _, _, rfl, rfl, rfl, ?_⟩
    decide +kernel

/-- After an append that has failed the writer is poisoned. -/
theorem poisoned_after_failure_sample : ∃ last, samplePoison.run [.append sampleFrame .authoritative] = some last ∧
    last.call .sync = some (.error .poisonedWriter, last) := by
  refine ⟨_, rfl, ?_⟩
  exact WalSession.poisoned_after_failure samplePoison.writer samplePoison.world
    [.append sampleFrame .authoritative] ⟨trivial, fun _ _ _ => trivial⟩ _ rfl rfl .sync (fun broke => nomatch broke)

end Vyrm.Kv
