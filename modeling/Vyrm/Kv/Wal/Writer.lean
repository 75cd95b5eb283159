import Vyrm.Kv.Rules
import Vyrm.Kv.Wal.Frames

/-!
# What the log writer leaves behind

One lemma for each operation of `WalWriter` and for recovery and repair, each of
them under any oracle: what the file holds when the operation succeeds, and what
it can hold when the operation stops at any of its steps.
-/

namespace Vyrm.Kv
open Lib Lib.FaultFs

variable [Platform] {oracle : Oracle Path Directory} {files : Files Path} {process : Process}
  {path : Path} {start : Nat} {bytes : Bytes}

/-- Recovery only reads; without faults it reports what `recoverBytes` computes. -/
theorem recoverFrom_wp (present : files.lookup path = some bytes) :
    wp oracle (recoverFrom path start) (fun r f p => f = files ∧ p = process ∧
      match r with
      | .ok recovery => start ≠ 0 ∧ recoverBytes bytes start = .ok recovery
      | .error stop => start = 0 ∨ Hindered oracle ∨
        ∃ e, recoverBytes bytes start = .error e ∧ stop = .error e) files process := by
  unfold recoverFrom
  apply wp_lift
  · intro _ nonzero
    rw [rejectIf_ok] at nonzero
    apply wp_bind
    apply wp_readFile
    · intro content found
      rw [present] at found
      cases found
      apply wp_lift_last
      · exact fun recovery computed => ⟨rfl, rfl, nonzero, computed⟩
      · exact fun e computed => ⟨rfl, rfl, .inr (.inr ⟨e, computed, rfl⟩)⟩
    · intro absent
      rw [present] at absent
      cases absent
    · exact fun _ _ faulty => ⟨rfl, rfl, .inr (.inl faulty.hindered)⟩
  · intro e zero
    refine ⟨rfl, rfl, .inl ?_⟩
    by_contra nonzero
    rw [rejectIf_of_not nonzero] at zero
    cases zero

/-- Creating a log: the file is the bare header, or a prefix of it when a step fails. -/
theorem createAt_wp :
    wp oracle (WalWriter.createAt path start) (fun r f p => p = process ∧
      match r with
      | .ok writer => start ≠ 0 ∧ path ∉ files ∧ writer = ⟨path, start, false⟩ ∧
        f = files.insert path (walBytes [])
      | .error _ => (start = 0 ∨ path ∈ files ∨ Hindered oracle) ∧
        (f = files ∨ path ∉ files ∧ ∃ n, f = files.insert path (fileHeader.take n))) files process := by
  unfold WalWriter.createAt
  apply wp_lift
  · intro _ nonzero
    rw [rejectIf_ok] at nonzero
    apply wp_bind
    apply wp_createNew
    · intro fresh
      apply wp_bind
      apply wp_writeAll (AList.lookup_insert _)
      · intro _
        rw [List.nil_append, AList.insert_insert]
        apply wp_bind
        apply wp_syncFile
        · exact wp_pure ⟨rfl, nonzero, fresh, rfl, by simp [walBytes, frames]⟩
        · exact fun stop _ faulty =>
            ⟨rfl, .inr (.inr faulty.hindered), .inr ⟨fresh, 16, by simp [List.take_of_length_le]⟩⟩
      · intro large
        exact absurd (by simp [maxFileBytes]) large
      · intro stop n _ faulty
        rw [List.nil_append, AList.insert_insert]
        exact ⟨rfl, .inr (.inr faulty.hindered), .inr ⟨fresh, n, rfl⟩⟩
    · exact fun present => ⟨rfl, .inr (.inl present), .inl rfl⟩
    · exact fun _ _ faulty => ⟨rfl, .inr (.inr faulty.hindered), .inl rfl⟩
  · intro e zero
    refine ⟨rfl, .inl ?_, .inl rfl⟩
    by_contra nonzero
    rw [rejectIf_of_not nonzero] at zero
    cases zero

/-- Opening a log that recovers without a torn tail. -/
theorem openAt_wp (present : files.lookup path = some bytes) :
    wp oracle (WalWriter.openAt path start) (fun r f p => f = files ∧ p = process ∧
      match r with
      | .ok writer => start ≠ 0 ∧ ∃ recovery, recoverBytes bytes start = .ok recovery ∧
        recovery.tornTail = none ∧ writer = ⟨path, recovery.recoveredThrough + 1, false⟩
      | .error _ => start = 0 ∨ Hindered oracle ∨ (∃ e, recoverBytes bytes start = .error e) ∨
        ∃ recovery, recoverBytes bytes start = .ok recovery ∧
          (recovery.tornTail ≠ none ∨ u64Max < recovery.recoveredThrough + 1)) files process := by
  unfold WalWriter.openAt
  apply wp_bind_of (recoverFrom_wp present)
  · rintro recovery f p ⟨rfl, rfl, nonzero, computed⟩
    cases torn : recovery.tornTail with
    | some offset =>
      exact wp_throw ⟨rfl, rfl, .inr (.inr (.inr ⟨recovery, computed, .inl (by simp [torn])⟩))⟩
    | none =>
      apply wp_bind
      apply wp_readFile
      · intro _ _
        apply wp_lift
        · intro next added
          obtain ⟨_, rfl⟩ := checkedAdd_ok.mp added
          exact wp_pure ⟨rfl, rfl, nonzero, recovery, computed, torn, rfl⟩
        · intro e overflow
          refine ⟨rfl, rfl, .inr (.inr (.inr ⟨recovery, computed, .inr ?_⟩))⟩
          by_contra small
          rw [checkedAdd_ok.mpr ⟨by omega, rfl⟩] at overflow
          cases overflow
      · intro absent
        rw [present] at absent
        cases absent
      · exact fun _ _ faulty => ⟨rfl, rfl, .inr (.inl faulty.hindered)⟩
  · rintro stop f p ⟨rfl, rfl, zero | hindered | ⟨e, failed, -⟩⟩
    · exact ⟨rfl, rfl, .inl zero⟩
    · exact ⟨rfl, rfl, .inr (.inl hindered)⟩
    · exact ⟨rfl, rfl, .inr (.inr (.inl ⟨e, failed⟩))⟩

/-! ## Appending -/

theorem admit_ok {writer : WalWriter} {batch : WalBatch} {header : Bytes}
    (h : writer.admission batch = .ok header) :
    writer.poisoned = false ∧ batch.validate = .ok () ∧
      batch.firstSequence = writer.nextSequence ∧ header = frameHeader batch := by
  simp only [WalWriter.admission, except_bind_ok, rejectIf_ok] at h
  obtain ⟨_, sound, _, valid, _, follows, made⟩ := h
  exact ⟨by simpa using sound, valid, by simpa using follows, recordHeader_eq made⟩

theorem admit_of_valid {writer : WalWriter} {batch : WalBatch} (sound : writer.poisoned = false)
    (valid : batch.validate = .ok ()) (follows : batch.firstSequence = writer.nextSequence) :
    writer.admission batch = .ok (frameHeader batch) := by
  simp [WalWriter.admission, sound, valid, follows, recordHeader_of_valid valid, rejectIf_of_not]

/-- A frame is written in two pieces; an interruption leaves a prefix of it. -/
theorem writeFrame_wp {batch : WalBatch} {durability : Durability}
    (present : files.lookup path = some bytes) :
    wp oracle (WalWriter.writeFrame path (frameHeader batch) batch.payload durability)
      (fun r f p => p = process ∧
        match r with
        | .ok _ => f = files.insert path (bytes ++ frame batch) ∧
          (bytes ++ frame batch).length ≤ maxFileBytes
        | .error stop => (∀ e, stop = .error e → e.isIo = true) ∧
          (Hindered oracle ∨ maxFileBytes < (bytes ++ frame batch).length) ∧
          ∃ torn, torn <+: frame batch ∧ (f = files ∨ f = files.insert path (bytes ++ torn)))
      files process := by
  unfold WalWriter.writeFrame
  apply wp_bind
  apply wp_writeAll present
  · intro _
    apply wp_bind
    apply wp_writeAll (AList.lookup_insert _)
    · intro fits
      have whole : bytes ++ frameHeader batch ++ batch.payload = bytes ++ frame batch := by
        simp [frame]
      have bound : (bytes ++ frame batch).length ≤ maxFileBytes := by
        rw [← whole, List.length_append]
        exact fits
      rw [AList.insert_insert, whole]
      apply wp_ite
      · intro _
        apply wp_syncFile
        · exact ⟨rfl, rfl, bound⟩
        · rintro stop (rfl | rfl) faulty
          · exact ⟨rfl, by simp, .inl faulty.hindered, frame batch, List.prefix_refl _, .inr rfl⟩
          · exact ⟨rfl, by simp [HasIo.io, Error.isIo], .inl faulty.hindered, frame batch,
              List.prefix_refl _, .inr rfl⟩
      · exact fun _ => wp_pure ⟨rfl, rfl, bound⟩
    · intro large
      refine ⟨rfl, by simp [HasIo.io, Error.isIo], .inr ?_, frameHeader batch,
        List.prefix_append _ _, .inr rfl⟩
      simp only [frame, List.length_append] at large ⊢
      omega
    · intro stop n interrupted faulty
      rw [AList.insert_insert, List.append_assoc]
      refine ⟨rfl, ?_, .inl faulty.hindered, frameHeader batch ++ batch.payload.take n, ?_,
        .inr rfl⟩
      · rcases interrupted with rfl | rfl <;> simp [HasIo.io, Error.isIo]
      · exact List.prefix_append_right_inj _ |>.mpr (List.take_prefix _ _)
  · intro large
    refine ⟨rfl, by simp [HasIo.io, Error.isIo], .inr ?_, [], List.nil_prefix, .inl rfl⟩
    simp only [frame, List.length_append] at large ⊢
    omega
  · intro stop n interrupted faulty
    refine ⟨rfl, ?_, .inl faulty.hindered, (frameHeader batch).take n, ?_, .inr rfl⟩
    · rcases interrupted with rfl | rfl <;> simp [HasIo.io, Error.isIo]
    · exact (List.take_prefix _ _).trans (List.prefix_append _ _)

/-- What an append did when it returned: a whole frame on success; on an error either nothing,
or a poisoned writer and a prefix of the frame. -/
def AppendOutcome (oracle : Oracle Path Directory) (writer : WalWriter) (batch : WalBatch)
    (bytes : Bytes) (files f : Files Path) :
    Except Error AppendReceipt × WalWriter → Prop
  | (.ok receipt, next) =>
    writer.poisoned = false ∧ batch.validate = .ok () ∧
      batch.firstSequence = writer.nextSequence ∧
      f = files.insert writer.path (bytes ++ frame batch) ∧
      (bytes ++ frame batch).length ≤ maxFileBytes ∧
      next = { writer with nextSequence := batch.lastSequence + 1 } ∧
      receipt.firstSequence = batch.firstSequence ∧ receipt.lastSequence = batch.lastSequence
  | (.error e, next) =>
    f = files ∧ next = writer ∧ (writer.admission batch = .error e ∨ Hindered oracle) ∨
      e.isIo = true ∧ next = { writer with poisoned := true } ∧
        (Hindered oracle ∨ maxFileBytes < (bytes ++ frame batch).length) ∧
        ∃ torn, torn <+: frame batch ∧ (f = files ∨ f = files.insert writer.path (bytes ++ torn))

theorem append_wp {writer : WalWriter} {batch : WalBatch} {durability : Durability}
    (present : files.lookup writer.path = some bytes) :
    wp oracle (writer.append batch durability) (fun r f p => p = process ∧
      match r with
      | .ok result => AppendOutcome oracle writer batch bytes files f result
      | .error stop => stop = .crash ∧ ∃ torn, torn <+: frame batch ∧
        (f = files ∨ f = files.insert writer.path (bytes ++ torn))) files process := by
  unfold WalWriter.append
  cases admitted : writer.admission batch with
  | error e => exact wp_pure ⟨rfl, .inl ⟨rfl, rfl, .inl admitted⟩⟩
  | ok header =>
    obtain ⟨sound, valid, follows, rfl⟩ := admit_ok admitted
    apply wp_bind
    apply wp_attempt
    apply wp_fileLength present
    · apply wp_bind
      apply wp_attempt
      apply (writeFrame_wp present).mono
      rintro (stop | _) f p ⟨rfl, ended⟩
      · obtain ⟨io, cause, torn⟩ := ended
        cases stop with
        | crash => exact ⟨rfl, rfl, torn⟩
        | error e => exact wp_pure ⟨rfl, .inr ⟨io e rfl, rfl, cause, torn⟩⟩
      · obtain ⟨rfl, fits⟩ := ended
        have room := (walBatch_validate_ok.mp valid).2.2.1
        have added : ∀ e, checkedAdd batch.lastSequence 1 e = .ok (batch.lastSequence + 1) :=
          fun e => checkedAdd_ok.mpr ⟨by omega, rfl⟩
        simp only [added]
        exact wp_pure ⟨rfl, sound, valid, follows, rfl, fits, rfl, rfl, rfl⟩
    · rintro stop (rfl | rfl) faulty
      · exact ⟨rfl, rfl, [], List.nil_prefix, .inl rfl⟩
      · exact wp_pure ⟨rfl, .inl ⟨rfl, rfl, .inr faulty.hindered⟩⟩

/-! ## Repair -/

/-- Repair of a log that recovers: a torn tail is cut off, and the rest recovers as before. -/
theorem repairTornTailFrom_wp {recovery : Recovery} (present : files.lookup path = some bytes)
    (nonzero : start ≠ 0) (recovered : recoverBytes bytes start = .ok recovery)
    (valid : recovery.validBytes ≤ bytes.length)
    (again : recoverBytes (bytes.take recovery.validBytes) start =
      .ok { recovery with tornTail := none }) :
    wp noFaults (repairTornTailFrom path start) (fun r f p =>
      r = .ok { recovery with tornTail := none } ∧ p = process ∧
      f = if recovery.tornTail = none then files
        else files.insert path (bytes.take recovery.validBytes)) files process := by
  unfold repairTornTailFrom
  apply wp_bind_of (recoverFrom_wp present)
  · rintro found f p ⟨rfl, rfl, -, computed⟩
    rw [recovered] at computed
    cases computed
    cases torn : recovery.tornTail with
    | none =>
      refine wp_pure ⟨?_, rfl, by simp⟩
      rw [← torn]
    | some offset =>
      apply wp_bind
      apply wp_setLen present
      · have exact_ : bytes.take recovery.validBytes ++
            List.replicate (recovery.validBytes - bytes.length) 0 =
            bytes.take recovery.validBytes := by
          rw [Nat.sub_eq_zero_of_le valid]
          simp
        rw [exact_]
        apply wp_bind
        apply wp_syncFile
        · apply (recoverFrom_wp (AList.lookup_insert _)).mono
          rintro (stop | result) f p ⟨rfl, rfl, ended⟩
          · rcases ended with zero | hindered | ⟨e, failed, -⟩
            · exact absurd zero nonzero
            · exact absurd hindered not_hindered_noFaults
            · rw [again] at failed
              cases failed
          · rw [again] at ended
            obtain ⟨-, ended⟩ := ended
            cases ended
            exact ⟨rfl, rfl, by simp⟩
        · exact fun _ _ faulty => absurd faulty.hindered not_hindered_noFaults
      · exact fun _ _ faulty => absurd faulty.hindered not_hindered_noFaults
  · rintro stop f p ⟨rfl, rfl, zero | hindered | ⟨e, failed, -⟩⟩
    · exact absurd zero nonzero
    · exact absurd hindered not_hindered_noFaults
    · rw [recovered] at failed
      cases failed

end Vyrm.Kv
