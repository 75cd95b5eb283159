import Vyrm.Kv.Reference
import Vyrm.Kv.Wal.Writer

/-!
# The prefix law of the log

A log that was written by any sequence of appends and then cut at any length
recovers exactly the frames that the cut left whole. Repair removes the rest, is
idempotent, and leaves a log that a writer can go on appending to.
-/

namespace Vyrm.Kv
open Lib Lib.FaultFs

variable [Platform]

/-! ## Cutting a log -/

theorem le_offset_of_mem_placed {offset : Nat} {batches : List WalBatch} {r : RecoveredBatch}
    (h : r ∈ placed offset batches) : offset ≤ r.offset := by
  induction batches generalizing offset with
  | nil => cases h
  | cons batch rest ih =>
    rcases List.mem_cons.mp h with rfl | h
    · exact le_refl _
    · exact (Nat.le_add_right _ _).trans (ih h)

@[simp] theorem stop_recoveredAt (offset : Nat) (batch : WalBatch) :
    (recoveredAt offset batch).stop = offset + (frame batch).length := by
  simp only [RecoveredBatch.stop, recoveredAt, walRecordHeaderBytes, length_frame]
  omega

/-- A cut leaves whole frames and a proper prefix of the next one. -/
theorem take_frames {batches : List WalBatch} {start : Nat} (chain : Chain start batches)
    (length offset : Nat) :
    ∃ n tail, (frames batches).take length = frames (batches.take n) ++ tail ∧
      TornTail (nextAfter start (batches.take n)) tail ∧ Chain start (batches.take n) ∧
      placed offset (batches.take n) =
        (placed offset batches).filter (fun r => r.stop ≤ offset + length) := by
  induction batches generalizing start length offset with
  | nil => exact ⟨0, [], by simp [frames], .inl rfl, trivial, rfl⟩
  | cons batch rest ih =>
    obtain ⟨valid, first, chain⟩ := chain
    have split : frames (batch :: rest) = frame batch ++ frames rest := by simp [frames]
    by_cases whole : (frame batch).length ≤ length
    · obtain ⟨n, tail, cut, torn, kept, survivors⟩ :=
        ih chain (length - (frame batch).length) (offset + (frame batch).length)
      refine ⟨n + 1, tail, ?_, torn, ⟨valid, first, kept⟩, ?_⟩
      · rw [split, List.take_append, List.take_of_length_le whole, cut]
        simp [frames]
      · have bound : offset + (frame batch).length + (length - (frame batch).length) =
            offset + length := by omega
        rw [bound] at survivors
        rw [List.take_succ_cons, placed, placed, survivors, List.filter_cons_of_pos]
        rw [stop_recoveredAt]
        exact decide_eq_true (by omega)
    · refine ⟨0, (frame batch).take length, ?_, ?_, trivial, ?_⟩
      · rw [split, List.take_append_of_le_length (by omega)]
        simp [frames]
      · refine .inr ⟨batch, valid, first, ?_, List.take_prefix _ _⟩
        rw [List.length_take]
        omega
      · symm
        apply List.filter_eq_nil_iff.mpr
        intro r member
        rcases List.mem_cons.mp member with rfl | member
        · rw [stop_recoveredAt]
          simp only [decide_eq_true_eq]
          omega
        · have := le_offset_of_mem_placed member
          rw [decide_eq_true_eq, RecoveredBatch.stop]
          omega

/-- The end of the last recovered frame: the valid length of the log. -/
def validLength (recovered : List RecoveredBatch) : Nat :=
  (recovered.getLast?.map RecoveredBatch.stop).getD walFileHeaderBytes

/-- The last recovered sequence, or the one before the log's start. -/
def lastRecovered (start : Nat) (recovered : List RecoveredBatch) : Nat :=
  (recovered.getLast?.map RecoveredBatch.lastSequence).getD (start - 1)

theorem getLast?_placed_cons (offset : Nat) (batch : WalBatch) (rest : List WalBatch) :
    (placed offset (batch :: rest)).getLast? =
      some (((placed (offset + (frame batch).length) rest).getLast?).getD
        (recoveredAt offset batch)) := by
  rw [placed, List.getLast?_cons]

theorem placed_end {offset : Nat} {batches : List WalBatch} :
    ((placed offset batches).getLast?.map RecoveredBatch.stop).getD offset =
      offset + (frames batches).length := by
  induction batches generalizing offset with
  | nil => simp [placed, frames]
  | cons batch rest ih =>
    have tail := @ih (offset + (frame batch).length)
    have split : frames (batch :: rest) = frame batch ++ frames rest := by simp [frames]
    rw [getLast?_placed_cons, split, List.length_append, ← Nat.add_assoc, ← tail]
    cases (placed (offset + (frame batch).length) rest).getLast? with
    | none => simp
    | some r => simp

theorem placed_lastSequence {offset start : Nat} {batches : List WalBatch} :
    ((placed offset batches).getLast?.map RecoveredBatch.lastSequence).getD (start - 1) =
      nextAfter start batches - 1 := by
  induction batches generalizing offset start with
  | nil => simp [placed, nextAfter]
  | cons batch rest ih =>
    have tail := @ih (offset + (frame batch).length) (batch.lastSequence + 1)
    rw [getLast?_placed_cons, nextAfter, ← tail]
    cases (placed (offset + (frame batch).length) rest).getLast? with
    | none => simp [recoveredAt]
    | some r => simp

theorem validLength_placed (batches : List WalBatch) :
    validLength (placed walFileHeaderBytes batches) = (walBytes batches).length := by
  rw [validLength, placed_end, walBytes, List.length_append, length_fileHeader,
    walFileHeaderBytes]

theorem lastRecovered_placed (start : Nat) (batches : List WalBatch) :
    lastRecovered start (placed walFileHeaderBytes batches) = nextAfter start batches - 1 :=
  placed_lastSequence

/-- What recovery reports for a log of `batches` that was cut to `length` bytes. -/
def cutRecovery (start length : Nat) (batches : List WalBatch) : Recovery :=
  let whole := (placed walFileHeaderBytes batches).filter fun r => r.stop ≤ length
  { batches := whole
    recoveredThrough := lastRecovered start whole
    validBytes := validLength whole
    tornTail := if validLength whole < length then some (validLength whole) else none }

/-- The content of a cut log, as whole frames and a torn tail. -/
theorem take_walBytes {batches : List WalBatch} {start length : Nat} (chain : Chain start batches)
    (header : walFileHeaderBytes ≤ length) (inside : length ≤ (walBytes batches).length) :
    ∃ n tail, (walBytes batches).take length = walBytes (batches.take n) ++ tail ∧
      TornTail (nextAfter start (batches.take n)) tail ∧ Chain start (batches.take n) ∧
      cutRecovery start length batches =
        ⟨placed walFileHeaderBytes (batches.take n), nextAfter start (batches.take n) - 1,
          (walBytes (batches.take n)).length, tornAt (walBytes (batches.take n)).length tail⟩ := by
  obtain ⟨n, tail, cut, torn, kept, survivors⟩ :=
    take_frames chain (length - walFileHeaderBytes) walFileHeaderBytes
  have bound : walFileHeaderBytes + (length - walFileHeaderBytes) = length := by omega
  rw [bound] at survivors
  have content : (walBytes batches).take length = walBytes (batches.take n) ++ tail := by
    rw [walBytes, List.take_append, List.take_of_length_le (by simpa [walFileHeaderBytes] using header),
      length_fileHeader]
    rw [walFileHeaderBytes] at cut
    rw [cut, walBytes, List.append_assoc]
  refine ⟨n, tail, content, torn, kept, ?_⟩
  have total : length = (walBytes (batches.take n)).length + tail.length := by
    have := congrArg List.length content
    rw [List.length_take, List.length_append] at this
    omega
  simp only [cutRecovery, ← survivors, validLength_placed, lastRecovered_placed, tornAt]
  congr 1
  by_cases empty : tail = []
  · simp [empty, total]
  · have : 0 < tail.length := List.length_pos_iff.mpr empty
    rw [if_pos (by omega), if_neg empty]

theorem recoverBytes_take {batches : List WalBatch} {start length : Nat}
    (chain : Chain start batches) (header : walFileHeaderBytes ≤ length)
    (inside : length ≤ (walBytes batches).length)
    (small : (walBytes batches).length ≤ maxFileBytes) :
    recoverBytes ((walBytes batches).take length) start = .ok (cutRecovery start length batches) := by
  obtain ⟨n, tail, content, torn, kept, recovery⟩ := take_walBytes chain header inside
  rw [content, recovery]
  apply recoverBytes_walBytes kept torn
  rw [← content, List.length_take]
  omega

/-! ## Written logs -/

/-- A caller that appends batches one after another and stops at the first error. -/
def appendAll (writer : WalWriter) : List (WalBatch × Durability) → Io WalWriter
  | [] => pure writer
  | (batch, durability) :: rest => do
    let (result, writer) ← writer.append batch durability
    match result with
    | .error e => throw (.error e)
    | .ok _ => appendAll writer rest

/-- A log created at `start` and filled by a list of appends. -/
def writeLog (path : Path) (start : Nat) (log : List (WalBatch × Durability)) : Io WalWriter := do
  let writer ← WalWriter.createAt path start
  appendAll writer log

theorem walBytes_append (batches : List WalBatch) (batch : WalBatch) :
    walBytes (batches ++ [batch]) = walBytes batches ++ frame batch := by
  simp [walBytes, frames]

theorem placed_append (batches : List WalBatch) (batch : WalBatch) :
    placed walFileHeaderBytes (batches ++ [batch]) =
      placed walFileHeaderBytes batches ++ [recoveredAt (walBytes batches).length batch] := by
  have general : ∀ offset, placed offset (batches ++ [batch]) =
      placed offset batches ++ [recoveredAt (offset + (frames batches).length) batch] := by
    induction batches with
    | nil => simp [placed, frames]
    | cons head rest ih =>
      intro offset
      simp only [List.cons_append, placed, ih, frames, List.flatMap_cons, List.length_append,
        Nat.add_assoc]
  rw [general, walBytes, List.length_append, length_fileHeader, walFileHeaderBytes]

/-- The state of a log that holds `batches`. -/
structure LogHolds (start : Nat) (batches : List WalBatch) (writer : WalWriter)
    (files : Files Path) : Prop where
  content : files.lookup writer.path = some (walBytes batches)
  chain : Chain start batches
  small : (walBytes batches).length ≤ maxFileBytes
  next : writer.nextSequence = nextAfter start batches
  nonzero : start ≠ 0

theorem LogHolds.append {start : Nat} {batches : List WalBatch} {writer next : WalWriter}
    {files f : Files Path} {batch : WalBatch} {receipt : AppendReceipt}
    {oracle : Oracle Path Directory} (holds : LogHolds start batches writer files)
    (outcome : AppendOutcome oracle writer batch (walBytes batches) files f (.ok receipt, next)) :
    LogHolds start (batches ++ [batch]) next f := by
  obtain ⟨-, valid, follows, rfl, fits, rfl, -, -⟩ := outcome
  rw [← walBytes_append] at fits
  exact
    { content := by rw [← walBytes_append]; exact AList.lookup_insert _
      chain := chain_append holds.chain valid (follows.trans holds.next)
      small := fits
      next := (nextAfter_append _ _ _).symm
      nonzero := holds.nonzero }

theorem appendAll_wp {oracle : Oracle Path Directory} {process : Process} {start : Nat}
    {batches : List WalBatch} {writer : WalWriter} {files : Files Path}
    (holds : LogHolds start batches writer files) (log : List (WalBatch × Durability)) :
    wp oracle (appendAll writer log) (fun r f _ =>
      ∀ next, r = .ok next → next.path = writer.path ∧
        LogHolds start (batches ++ log.map Prod.fst) next f) files process := by
  induction log generalizing writer files batches process with
  | nil =>
    apply wp_pure
    intro next same
    cases same
    exact ⟨rfl, by simpa using holds⟩
  | cons entry rest ih =>
    obtain ⟨batch, durability⟩ := entry
    unfold appendAll
    apply wp_bind_of (append_wp holds.content)
    · rintro ⟨result, next⟩ f p ⟨-, outcome⟩
      cases result with
      | error e => exact wp_throw (by simp)
      | ok receipt =>
        have extended := holds.append outcome
        have path : next.path = writer.path := by
          obtain ⟨-, -, -, -, -, rfl, -, -⟩ := outcome
          rfl
        apply (ih extended).mono
        intro r f p h last same
        obtain ⟨samePath, holds⟩ := h last same
        exact ⟨samePath.trans path, by simpa using holds⟩
    · intro stop f p _ next impossible
      cases impossible

theorem writeLog_holds {path : Path} {start : Nat} {log : List (WalBatch × Durability)}
    {writer : WalWriter} {w w' : World Path Directory Process}
    (run : writeLog path start log w = .ok writer w') :
    writer.path = path ∧ LogHolds start (log.map Prod.fst) writer w'.files := by
  have total : wp w.oracle (writeLog path start log) (fun r f _ => ∀ writer, r = .ok writer →
      writer.path = path ∧ LogHolds start (log.map Prod.fst) writer f) w.files w.process := by
    unfold writeLog
    apply wp_bind_of createAt_wp
    · rintro created f p ⟨-, nonzero, -, rfl, rfl⟩
      have holds : LogHolds start [] ⟨path, start, false⟩ (w.files.insert path (walBytes [])) :=
        { content := AList.lookup_insert _
          chain := trivial
          small := by simp [walBytes, frames, maxFileBytes]
          next := rfl
          nonzero := nonzero }
      exact appendAll_wp holds log
    · intro stop f p _ writer impossible
      cases impossible
  exact (total.run_ok run).2 writer rfl

/-! ## The law -/

/-- Cutting at the valid length leaves the whole frames. -/
theorem take_validBytes {batches : List WalBatch} {start length : Nat}
    (chain : Chain start batches) (header : walFileHeaderBytes ≤ length)
    (inside : length ≤ (walBytes batches).length) :
    ∃ n, (walBytes batches).take (cutRecovery start length batches).validBytes =
        walBytes (batches.take n) ∧ Chain start (batches.take n) ∧
      (cutRecovery start length batches).validBytes ≤ length ∧
      { cutRecovery start length batches with tornTail := none } =
        (⟨placed walFileHeaderBytes (batches.take n), nextAfter start (batches.take n) - 1,
          (walBytes (batches.take n)).length, none⟩ : Recovery) := by
  obtain ⟨n, tail, content, -, kept, recovery⟩ := take_walBytes chain header inside
  have bound : (walBytes (batches.take n)).length ≤ length := by
    have := congrArg List.length content
    rw [List.length_take, List.length_append] at this
    omega
  refine ⟨n, ?_, kept, ?_, ?_⟩
  · rw [recovery]
    have := congrArg (List.take (walBytes (batches.take n)).length) content
    rw [List.take_take, Nat.min_eq_left bound, List.take_left] at this
    exact this
  · rw [recovery]
    exact bound
  · rw [recovery]

/-- A log of whole frames recovers completely. -/
theorem recoverBytes_whole (batches : List WalBatch) (start : Nat) (chain : Chain start batches)
    (small : (walBytes batches).length ≤ maxFileBytes) :
    recoverBytes (walBytes batches) start =
      .ok ⟨placed walFileHeaderBytes batches, nextAfter start batches - 1,
        (walBytes batches).length, none⟩ := by
  have small' : (walBytes batches ++ []).length ≤ maxFileBytes := by simpa using small
  have whole := recoverBytes_walBytes chain (.inl rfl) small'
  simpa [tornAt] using whole

section Law

variable {path : Path} {start : Nat} {bytes : Bytes} {recovery : Recovery}
  {w : World Path Directory Process}

/-- Recovery without faults, as a run. -/
theorem recoverFrom_run (clean : w.oracle = noFaults) (present : w.files.lookup path = some bytes)
    (nonzero : start ≠ 0) (recovered : recoverBytes bytes start = .ok recovery) :
    ∃ w', recoverFrom path start w = .ok recovery w' ∧ w'.oracle = noFaults ∧
      w'.files = w.files := by
  have total : wp w.oracle (recoverFrom path start)
      (fun r f _ => r = .ok recovery ∧ f = w.files) w.files w.process := by
    apply (recoverFrom_wp present).mono
    rintro (stop | found) f p ⟨rfl, -, ended⟩
    · rcases ended with zero | hindered | ⟨e, failed, -⟩
      · exact absurd zero nonzero
      · exact absurd (clean ▸ hindered) not_hindered_noFaults
      · rw [recovered] at failed
        cases failed
    · rw [recovered] at ended
      cases ended.2
      exact ⟨rfl, rfl⟩
  obtain ⟨found, w', run, same, h, files⟩ := total.exists_run (by simp)
  cases h
  exact ⟨w', run, same.trans clean, files⟩

/-- Repair without faults, as a run. -/
theorem repairTornTailFrom_run (clean : w.oracle = noFaults)
    (present : w.files.lookup path = some bytes) (nonzero : start ≠ 0)
    (recovered : recoverBytes bytes start = .ok recovery)
    (valid : recovery.validBytes ≤ bytes.length)
    (again : recoverBytes (bytes.take recovery.validBytes) start =
      .ok { recovery with tornTail := none }) :
    ∃ w', repairTornTailFrom path start w = .ok { recovery with tornTail := none } w' ∧
      w'.oracle = noFaults ∧ w'.files = if recovery.tornTail = none then w.files
        else w.files.insert path (bytes.take recovery.validBytes) := by
  have total : wp noFaults (repairTornTailFrom path start) _ w.files w.process :=
    repairTornTailFrom_wp present nonzero recovered valid again
  rw [← clean] at total
  obtain ⟨found, w', run, same, h, -, files⟩ := total.exists_run (by simp)
  cases h
  exact ⟨w', run, same.trans clean, files⟩

/-- A writer opened on a log of whole frames continues it. -/
theorem openAt_run {batches : List WalBatch} (clean : w.oracle = noFaults)
    (present : w.files.lookup path = some (walBytes batches)) (nonzero : start ≠ 0)
    (bound : start ≤ u64Max) (chain : Chain start batches)
    (small : (walBytes batches).length ≤ maxFileBytes) :
    ∃ w', WalWriter.openAt path start w = .ok ⟨path, nextAfter start batches, false⟩ w' ∧
      w'.oracle = noFaults ∧ w'.files = w.files := by
  have recovered := recoverBytes_whole _ _ chain small
  have positive := nextAfter_pos batches nonzero
  have room := chain_nextAfter_le chain bound
  have total : wp w.oracle (WalWriter.openAt path start) (fun r f _ =>
      r = .ok ⟨path, nextAfter start batches, false⟩ ∧ f = w.files) w.files w.process := by
    apply (openAt_wp present).mono
    rintro (stop | writer) f p ⟨rfl, -, ended⟩
    · rcases ended with zero | hindered | ⟨e, failed⟩ | ⟨found, computed, torn | large⟩
      · exact absurd zero nonzero
      · exact absurd (clean ▸ hindered) not_hindered_noFaults
      · rw [recovered] at failed
        cases failed
      · rw [recovered] at computed
        cases computed
        exact absurd rfl torn
      · rw [recovered] at computed
        cases computed
        dsimp only at large
        omega
    · obtain ⟨-, found, computed, -, rfl⟩ := ended
      rw [recovered] at computed
      cases computed
      refine ⟨?_, rfl⟩
      dsimp only
      rw [Nat.sub_add_cancel positive]
  obtain ⟨writer, w', run, same, h, files⟩ := total.exists_run (by simp)
  cases h
  exact ⟨w', run, same.trans clean, files⟩

/-- The prefix law. `cutRecovery` lists the frames that end at or before the cut, in append
order; repair keeps them and nothing else, and what is appended afterwards is recovered behind
them. -/
theorem wal_prefix_law {log : List (WalBatch × Durability)} {writer : WalWriter}
    {w w' : World Path Directory Process} {content : Bytes} {length : Nat}
    (isU64 : start ≤ u64Max) (written : writeLog path start log w = .ok writer w')
    (stored : w'.files.lookup path = some content) (header : walFileHeaderBytes ≤ length)
    (inside : length ≤ content.length) (process : Process) (tick : Nat) :
    let torn : World Path Directory Process :=
      ⟨w'.files.insert path (content.take length), process, noFaults, tick⟩
    let recovery := cutRecovery start length (log.map Prod.fst)
    let repaired := { recovery with tornTail := none }
    (∃ w₁, recoverFrom path start torn = .ok recovery w₁) ∧
    ∃ w₂, repairTornTailFrom path start torn = .ok repaired w₂ ∧
      w₂.files.lookup path = some (content.take recovery.validBytes) ∧
      (∃ w₃, repairTornTailFrom path start w₂ = .ok repaired w₃ ∧ w₃.files = w₂.files) ∧
      ∃ appender w₃, WalWriter.openAt path start w₂ = .ok appender w₃ ∧
        ∀ batch durability receipt appender' w₄,
          appender.append batch durability w₃ = .ok (.ok receipt, appender') w₄ →
          ∃ after w₅, recoverFrom path start w₄ = .ok after w₅ ∧ after.tornTail = none ∧
            after.batches = recovery.batches ++ [recoveredAt recovery.validBytes batch] := by
  intro torn recovery repaired
  obtain ⟨samePath, holds⟩ := writeLog_holds written
  have contentIs : content = walBytes (log.map Prod.fst) := by
    have found := holds.content
    rw [samePath, stored] at found
    exact Option.some.inj found
  subst contentIs
  obtain ⟨n, whole, kept, short, repairedIs⟩ := take_validBytes holds.chain header inside
  have small : (walBytes ((log.map Prod.fst).take n)).length ≤ maxFileBytes := by
    rw [← whole, List.length_take]
    have := holds.small
    omega
  have recovered : recoverBytes ((walBytes (log.map Prod.fst)).take length) start = .ok recovery :=
    recoverBytes_take holds.chain header inside holds.small
  have cutAgain : ((walBytes (log.map Prod.fst)).take length).take recovery.validBytes =
      walBytes ((log.map Prod.fst).take n) := by
    rw [List.take_take, Nat.min_eq_left short, whole]
  have validInside : recovery.validBytes ≤ ((walBytes (log.map Prod.fst)).take length).length := by
    rw [List.length_take]
    exact le_min short (short.trans inside)
  have again : recoverBytes (((walBytes (log.map Prod.fst)).take length).take recovery.validBytes)
      start = .ok repaired := by
    rw [cutAgain]
    exact (recoverBytes_whole _ _ kept small).trans (congrArg Except.ok repairedIs.symm)
  have present : torn.files.lookup path = some ((walBytes (log.map Prod.fst)).take length) :=
    AList.lookup_insert _
  obtain ⟨w₁, run₁, -, -⟩ := recoverFrom_run (w := torn) rfl present holds.nonzero recovered
  refine ⟨⟨w₁, run₁⟩, ?_⟩
  obtain ⟨w₂, run₂, clean₂, files₂⟩ :=
    repairTornTailFrom_run (w := torn) rfl present holds.nonzero recovered validInside again
  have stored₂ : w₂.files.lookup path = some (walBytes ((log.map Prod.fst).take n)) := by
    rw [files₂]
    split
    · -- without a torn tail the cut is already at the valid length
      rename_i notTorn
      rw [present, ← cutAgain]
      congr 1
      symm
      apply List.take_of_length_le
      rw [List.length_take]
      have exact_ : ¬ recovery.validBytes < length := by
        intro less
        have : recovery.tornTail = some recovery.validBytes := if_pos less
        rw [notTorn] at this
        cases this
      omega
    · rw [AList.lookup_insert, cutAgain]
  refine ⟨w₂, run₂, by rw [stored₂, whole], ?_, ?_⟩
  · have recovered₂ : recoverBytes (walBytes ((log.map Prod.fst).take n)) start = .ok repaired := by
      rw [← cutAgain]
      exact again
    have lengthIs : repaired.validBytes = (walBytes ((log.map Prod.fst).take n)).length := by
      rw [show repaired = _ from repairedIs]
    have allValid : (walBytes ((log.map Prod.fst).take n)).take repaired.validBytes =
        walBytes ((log.map Prod.fst).take n) := by
      rw [lengthIs, List.take_length]
    obtain ⟨w₃, run₃, -, files₃⟩ := repairTornTailFrom_run clean₂ stored₂ holds.nonzero recovered₂
      lengthIs.le (by rw [allValid]; exact recovered₂)
    exact ⟨w₃, run₃, files₃⟩
  · obtain ⟨w₃, run₃, clean₃, files₃⟩ := openAt_run clean₂ stored₂ holds.nonzero isU64 kept small
    refine ⟨_, w₃, run₃, ?_⟩
    intro batch durability receipt appender' w₄ appended
    have start₃ : LogHolds start ((log.map Prod.fst).take n)
        ⟨path, nextAfter start ((log.map Prod.fst).take n), false⟩ w₃.files :=
      { content := by rw [files₃]; exact stored₂
        chain := kept
        small := small
        next := rfl
        nonzero := holds.nonzero }
    obtain ⟨clean₄, -, outcome⟩ := (append_wp start₃.content).run_ok appended
    have holds₄ := start₃.append outcome
    have path₄ : appender'.path = path := by
      obtain ⟨-, -, -, -, -, rfl, -, -⟩ := outcome
      rfl
    have content₄ := holds₄.content
    rw [path₄] at content₄
    obtain ⟨w₅, run₅, -, -⟩ := recoverFrom_run (clean₄.trans clean₃) content₄ holds.nonzero
      (recoverBytes_whole _ _ holds₄.chain holds₄.small)
    refine ⟨_, w₅, run₅, rfl, ?_⟩
    have batchesIs : recovery.batches = placed walFileHeaderBytes ((log.map Prod.fst).take n) :=
      congrArg Recovery.batches repairedIs
    have validIs : recovery.validBytes = (walBytes ((log.map Prod.fst).take n)).length :=
      congrArg Recovery.validBytes repairedIs
    rw [batchesIs, validIs]
    exact placed_append _ _

end Law
end Vyrm.Kv

namespace Vyrm.Kv
open Lib Lib.FaultFs

/-- A log of two records from sequence 4. -/
def twoRecords : List (WalBatch × Durability) :=
  [(⟨4, 4, [1, 2, 3]⟩, .buffered), (⟨5, 6, [7]⟩, .authoritative)]

/-- The torn log after the cut at `length`. -/
def worldCutAt (w : World Path Directory Process) (content : Bytes) (length : Nat) :
    World Path Directory Process :=
  ⟨w.files.insert (.wal 4) (content.take length), Process.start 7, noFaults, 0⟩

set_option maxRecDepth 100000 in
theorem wal_prefix_law_two_records : ∃ writer w content,
    writeLog (.wal 4) 4 twoRecords ⟨∅, Process.start 7, noFaults, 0⟩ = .ok writer w ∧
    w.files.lookup (.wal 4) = some content ∧
    ∃ w₁, recoverFrom (.wal 4) 4 (worldCutAt w content 60) =
      .ok ⟨[recoveredAt 16 ⟨4, 4, [1, 2, 3]⟩], 4, 51, some 51⟩ w₁ := by
  have wrote : (match writeLog (.wal 4) 4 twoRecords ⟨∅, Process.start 7, noFaults, 0⟩ with
      | .ok _ w => (w.files.lookup (.wal 4)).any fun content => decide (60 ≤ content.length)
      | .error _ _ => false) = true := by decide +kernel
  split at wrote
  · rename_i writer w written
    cases found : w.files.lookup (.wal 4) with
    | none =>
      rw [found] at wrote
      cases wrote
    | some content =>
      rw [found] at wrote
      have inside : 60 ≤ content.length := of_decide_eq_true wrote
      have law := wal_prefix_law (by decide) written found (by decide) inside (Process.start 7) 0
      obtain ⟨w₁, recovered⟩ := law.1
      have cut : cutRecovery 4 60 (twoRecords.map Prod.fst) =
          ⟨[recoveredAt 16 ⟨4, 4, [1, 2, 3]⟩], 4, 51, some 51⟩ := by decide +kernel
      rw [cut] at recovered
      exact ⟨writer, w, content, written, found, w₁, recovered⟩
  · cases wrote

end Vyrm.Kv
