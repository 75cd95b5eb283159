import Vyrm.Kv.Database.Disk

/-!
# Writing

A batch that the log has accepted is always accepted by the memtable, and the
two stay in step. A batch that is rejected without an I/O error leaves the log
and the database as they were.
-/

namespace Vyrm.Kv
open Lib Lib.FaultFs

variable [Platform] {oracle : Oracle Path Directory} {files : Files Path} {process : Process}
  {db : Database} {stored : List Segment} {pending : List WriteBatch} {batch : WriteBatch}
  {durability : Durability}

/-- The database after a batch was accepted. -/
def Database.afterWriting (db : Database) (pending : List WriteBatch) (batch : WriteBatch) :
    Database :=
  { Database.opened db.manifest db.segments (pending ++ [batch]) with segments := db.segments }

/-- The record of the next batch of a live database. -/
def nextRecord (db : Database) (batch : WriteBatch) : WalBatch :=
  ⟨db.memtable.maximumSequence + 1,
    db.memtable.maximumSequence + 1 + (batch.operations.length - 1), batch.payload⟩

/-- The directory after a whole frame was appended is that of the longer log. -/
theorem Live.wrote {f : Files Path} (live : Live files db stored pending)
    (encodes : batch.encode = .ok batch.payload)
    (valid : (nextRecord db batch).validate = .ok ())
    (small : (walBytes (logOf (db.manifest.durableSequence + 1) pending) ++
      frame (nextRecord db batch)).length ≤ maxFileBytes)
    (appended : f = files.insert db.wal.path
      (walBytes (logOf (db.manifest.durableSequence + 1) pending) ++ frame (nextRecord db batch))) :
    Live f (db.afterWriting pending batch) stored (pending ++ [batch]) := by
  have maximum := live.maximumSequence
  have path : db.wal.path = .wal (db.manifest.durableSequence + 1) := by rw [live.wal]
  have some_ := encode_nonempty encodes
  have room : db.manifest.durableSequence + (operationsOf (pending ++ [batch])).length < u64Max := by
    have last := (walBatch_validate_ok.mp valid).2.2.1
    unfold nextRecord at last
    dsimp only at last
    rw [maximum] at last
    rw [operationsOf_append, operationsOf_singleton, List.length_append]
    omega
  have record : walBytes (logOf (db.manifest.durableSequence + 1) (pending ++ [batch])) =
      walBytes (logOf (db.manifest.durableSequence + 1) pending) ++ frame (nextRecord db batch) := by
    rw [logOf_append, logOf, logOf, walBytes_append, nextRecord, maximum]
    have shift : db.manifest.durableSequence + 1 + (operationsOf pending).length =
        db.manifest.durableSequence + (operationsOf pending).length + 1 := by omega
    rw [shift]
  have others : ∀ other, other ≠ .wal (db.manifest.durableSequence + 1) →
      f.lookup other = files.lookup other := by
    intro other different
    rw [appended, path, AList.lookup_insert_ne different]
  refine ⟨⟨?_, live.disk.sorted, live.disk.start, ?_, ?_, room, ?_, ?_⟩, rfl, live.perm⟩
  · have published := live.disk.published
    exact ⟨published.valid, by rw [others _ (by simp)]; exact published.current,
      by rw [others _ (by simp)]; exact published.stored⟩
  · exact stored_of_kept live.disk.stored fun s _ bytes found => by
      rw [others _ (by simp)]
      exact found
  · intro b member
    rcases List.mem_append.mp member with old | new
    · exact live.disk.log.encodes b old
    · rw [List.mem_singleton] at new
      rw [new]
      exact encodes
  · change f.lookup (.wal (db.manifest.durableSequence + 1)) = _
    rw [appended, path, AList.lookup_insert]
    exact congrArg some record.symm
  · change (walBytes (logOf (db.manifest.durableSequence + 1) (pending ++ [batch]))).length ≤ _
    rw [record]
    exact small

/-- The fields that a write assigns. -/
theorem Live.afterWriting_eq (live : Live files db stored pending)
    (some_ : 0 < batch.operations.length) :
    { db with
      wal := { db.wal with nextSequence := (nextRecord db batch).lastSequence + 1 },
      memtable := (db.afterWriting pending batch).memtable } = db.afterWriting pending batch := by
  have last : (nextRecord db batch).lastSequence =
      db.manifest.durableSequence + (operationsOf (pending ++ [batch])).length := by
    unfold nextRecord
    dsimp only
    rw [live.maximumSequence, operationsOf_append, operationsOf_singleton, List.length_append]
    omega
  rw [last, live.wal]
  rfl

/-- What a write returns and the directory it leaves. An error that is not an I/O error leaves
everything as it was; an I/O error poisons the writer, and the log may have gained a part of the
frame. -/
def WriteOutcome (oracle : Oracle Path Directory) (files : Files Path) (db : Database)
    (stored : List Segment) (pending : List WriteBatch) (batch : WriteBatch) :
    Except (Stop Error) (Except Error AppendReceipt × Database) → Files Path → Prop
  | .ok (.ok receipt, db'), f => batch.encode = .ok batch.payload ∧
    db' = db.afterWriting pending batch ∧ Live f db' stored (pending ++ [batch]) ∧
    receipt.firstSequence = db.memtable.maximumSequence + 1 ∧
    receipt.lastSequence = db.memtable.maximumSequence + batch.operations.length ∧
    ∀ path, path ≠ db.wal.path → f.lookup path = files.lookup path
  | .ok (.error e, db'), f => db' = db ∧ f = files ∧ (e.isIo = true → Hindered oracle) ∨
    e.isIo = true ∧ db' = { db with wal := { db.wal with poisoned := true } } ∧
      (Hindered oracle ∨ maxFileBytes < (walBytes (logOf (db.manifest.durableSequence + 1) pending) ++
        frame (nextRecord db batch)).length)
  | .error stop, f => stop = .crash ∧ ∃ torn, torn <+: frame (nextRecord db batch) ∧
    (f = files ∨ f = files.insert db.wal.path
      (walBytes (logOf (db.manifest.durableSequence + 1) pending) ++ torn))

omit [Platform] in
/-- The checks before the log is touched never report an I/O error. -/
theorem mutation_validate_not_io {m : Mutation} {e : Error} (failed : m.validate = .error e) :
    e.isIo = false := by
  cases m with
  | put key value =>
    unfold Mutation.validate at failed
    dsimp only at failed
    unfold rejectIf at failed
    split at failed
    · cases failed
      rfl
    · rw [except_ok_bind] at failed
      split at failed
      · cases failed
        rfl
      · cases failed
  | delete key =>
    unfold Mutation.validate rejectIf at failed
    dsimp only at failed
    split at failed
    · cases failed
      rfl
    · cases failed

omit [Platform] in
/-- Peeling one fallible computation off a failed one. -/
theorem except_bind_error {α β : Type} {x : Except Error α} {next : α → Except Error β} {e : Error}
    (failed : (x >>= next) = .error e) :
    x = .error e ∨ ∃ a, x = .ok a ∧ next a = .error e := by
  cases x with
  | error e' =>
    rw [except_error_bind] at failed
    cases failed
    exact .inl rfl
  | ok a => exact .inr ⟨a, rfl, failed⟩

omit [Platform] in
theorem batch_validate_not_io {e : Error} (failed : batch.validate = .error e) : e.isIo = false := by
  rcases except_bind_error failed with rejected | ⟨_, -, failed⟩
  · rw [(rejectIf_error.mp rejected).2]
    rfl
  · have each : ∀ operations, WriteBatch.validateOperations operations = .error e →
        e.isIo = false := by
      intro operations
      induction operations with
      | nil => intro h; cases h
      | cons m rest ih =>
        intro h
        rcases except_bind_error h with first | ⟨_, -, later⟩
        · exact mutation_validate_not_io first
        · exact ih later
    exact each _ failed

omit [Platform] in
theorem u32TryFrom_not_io {n : Nat} {reason e : Error} (notIo : reason.isIo = false)
    (failed : u32TryFrom n reason = .error e) : e.isIo = false := by
  unfold u32TryFrom at failed
  split at failed
  · cases failed
  · cases failed
    exact notIo

omit [Platform] in
theorem encode_not_io {e : Error} (failed : batch.encode = .error e) : e.isIo = false := by
  rcases except_bind_error failed with invalid | ⟨_, -, failed⟩
  · exact batch_validate_not_io invalid
  · rcases except_bind_error failed with large | ⟨_, -, failed⟩
    · exact u32TryFrom_not_io rfl large
    · have each : ∀ operations output, WriteBatch.encodeOperations operations output = .error e →
          e.isIo = false := by
        intro operations
        induction operations with
        | nil => intro output h; cases h
        | cons m rest ih =>
          intro output h
          rw [WriteBatch.encodeOperations] at h
          rcases except_bind_error h with large | ⟨_, -, h⟩
          · exact u32TryFrom_not_io rfl large
          rcases except_bind_error h with large | ⟨_, -, h⟩
          · exact u32TryFrom_not_io rfl large
          rcases except_bind_error h with large | ⟨_, -, h⟩
          · rw [(rejectIf_error.mp large).2]
            rfl
          · exact ih _ h
      exact each _ _ failed

omit [Platform] in
theorem walBatch_validate_not_io {record : WalBatch} {e : Error}
    (failed : record.validate = .error e) : e.isIo = false := by
  rcases except_bind_error failed with rejected | ⟨_, -, failed⟩
  · rw [(rejectIf_error.mp rejected).2]
    rfl
  · rcases except_bind_error failed with rejected | ⟨_, -, failed⟩
    · rw [(rejectIf_error.mp rejected).2]
      rfl
    · rw [(rejectIf_error.mp failed).2]
      rfl

theorem admit_not_io {writer : WalWriter} {record : WalBatch} {e : Error}
    (failed : writer.admission record = .error e) : e.isIo = false := by
  rcases except_bind_error failed with rejected | ⟨_, -, failed⟩
  · rw [(rejectIf_error.mp rejected).2]
    rfl
  rcases except_bind_error failed with invalid | ⟨_, -, failed⟩
  · exact walBatch_validate_not_io invalid
  rcases except_bind_error failed with rejected | ⟨_, -, failed⟩
  · rw [(rejectIf_error.mp rejected).2]
    rfl
  rcases except_bind_error failed with large | ⟨_, -, failed⟩
  · exact u32TryFrom_not_io rfl large
  · cases failed

/-- What the append of an encoded batch returns and the directory it leaves. A batch that the
log has taken is one that the memtable takes. -/
def AppendedOutcome (oracle : Oracle Path Directory) (files : Files Path) (db : Database)
    (stored : List Segment) (pending : List WriteBatch) (batch : WriteBatch) :
    Except (Stop Error) (Except Error AppendReceipt × WalWriter) → Files Path → Prop
  | .ok (.ok receipt, wal), f =>
    wal = { db.wal with nextSequence := (nextRecord db batch).lastSequence + 1 } ∧
    Live f (db.afterWriting pending batch) stored (pending ++ [batch]) ∧
    receipt.firstSequence = db.memtable.maximumSequence + 1 ∧
    receipt.lastSequence = db.memtable.maximumSequence + batch.operations.length ∧
    db.memtable.applyWriteBatch batch receipt.firstSequence receipt.lastSequence =
      .ok (db.afterWriting pending batch).memtable ∧
    ∀ path, path ≠ db.wal.path → f.lookup path = files.lookup path
  | .ok (.error e, wal), f => wal = db.wal ∧ f = files ∧ (e.isIo = true → Hindered oracle) ∨
    e.isIo = true ∧ wal = { db.wal with poisoned := true } ∧
      (Hindered oracle ∨ maxFileBytes < (walBytes (logOf (db.manifest.durableSequence + 1) pending) ++
        frame (nextRecord db batch)).length)
  | .error stop, f => stop = .crash ∧ ∃ torn, torn <+: frame (nextRecord db batch) ∧
    (f = files ∨ f = files.insert db.wal.path
      (walBytes (logOf (db.manifest.durableSequence + 1) pending) ++ torn))

/-- The memtable of a live database takes the batch that the log has just taken. -/
theorem Live.applies {f : Files Path} (live : Live files db stored pending)
    (some_ : 0 < batch.operations.length)
    (after : Live f (db.afterWriting pending batch) stored (pending ++ [batch])) :
    db.memtable.applyWriteBatch batch (db.memtable.maximumSequence + 1)
      (db.memtable.maximumSequence + batch.operations.length) =
      .ok (db.afterWriting pending batch).memtable := by
  have room := after.disk.log.room
  rw [operationsOf_append, operationsOf_singleton, List.length_append] at room
  rw [live.maximumSequence, live.memtable]
  change _ = Except.ok (Memtable.holding db.manifest.durableSequence
    (operationsOf (pending ++ [batch])))
  rw [operationsOf_append, operationsOf_singleton]
  apply Memtable.applyWriteBatch_holding (List.length_pos_iff.mp some_)
  have same : (db.afterWriting pending batch).manifest = db.manifest := rfl
  rw [same] at room
  omega

/-- Every way in which the append of an encoded batch ends. -/
theorem appendEncoded_wp (live : Live files db stored pending)
    (encoded : batch.encode = .ok batch.payload) :
    wp oracle (db.wal.appendEncodedWriteBatch batch batch.payload durability)
      (fun r f _ => AppendedOutcome oracle files db stored pending batch r f) files process := by
  have some_ := encode_nonempty encoded
  have next : db.wal.nextSequence = db.memtable.maximumSequence + 1 := by
    rw [live.wal, live.maximumSequence]
  unfold WalWriter.appendEncodedWriteBatch
  dsimp only
  rw [next]
  cases ranged : checkedAdd (db.memtable.maximumSequence + 1) (batch.operations.length - 1)
      (.invalidBatch "sequence range overflow") with
  | error e =>
    have notIo : e.isIo = false := by
      unfold checkedAdd at ranged
      split at ranged
      · cases ranged
      · cases ranged
        rfl
    exact wp_pure (.inl ⟨rfl, rfl, fun io => by rw [notIo] at io; cases io⟩)
  | ok lastSequence =>
    obtain ⟨-, rfl⟩ := checkedAdd_ok.mp ranged
    have present : files.lookup db.wal.path =
        some (walBytes (logOf (db.manifest.durableSequence + 1) pending)) := by
      rw [live.wal]
      exact live.disk.log.content
    change wp oracle (db.wal.append (nextRecord db batch) durability) _ files process
    apply (append_wp present).mono
    rintro (stop | ⟨e | receipt, wal⟩) f p ⟨-, outcome⟩
    · exact outcome
    · rcases outcome with ⟨rfl, rfl, cause⟩ | ⟨io, rfl, cause, -⟩
      · refine .inl ⟨rfl, rfl, fun io => ?_⟩
        rcases cause with rejected | hindered
        · rw [admit_not_io rejected] at io
          cases io
        · exact hindered
      · exact .inr ⟨io, rfl, cause⟩
    · obtain ⟨-, valid, -, left, small, rfl, first, last⟩ := outcome
      have total : (nextRecord db batch).lastSequence =
          db.memtable.maximumSequence + batch.operations.length := by
        change db.memtable.maximumSequence + 1 + (batch.operations.length - 1) = _
        omega
      have after := live.wrote encoded valid small left
      have firstEq : receipt.firstSequence = db.memtable.maximumSequence + 1 := first
      have lastEq := last.trans total
      refine ⟨rfl, after, firstEq, lastEq, ?_, ?_⟩
      · rw [firstEq, lastEq]
        exact live.applies some_ after
      · intro path other
        rw [left, AList.lookup_insert_ne other]

/-- Every way in which a write ends. -/
theorem writeWith_wp (live : Live files db stored pending) :
    wp oracle (Database.writeWith Memtable.applyWriteBatch db batch durability)
      (fun r f _ => WriteOutcome oracle files db stored pending batch r f) files process := by
  unfold Database.writeWith
  cases encoded : batch.encode with
  | error e =>
    exact wp_pure (.inl ⟨rfl, rfl, fun io => by rw [encode_not_io encoded] at io; cases io⟩)
  | ok payload =>
    obtain ⟨-, rfl, -⟩ := WriteBatch.encode_ok encoded
    dsimp only
    apply wp_bind
    apply (appendEncoded_wp live encoded).mono
    rintro (stop | ⟨e | receipt, wal⟩) f p outcome
    · exact outcome
    · apply wp_pure
      rcases outcome with ⟨rfl, rfl, cause⟩ | ⟨io, rfl, cause⟩
      · exact .inl ⟨rfl, rfl, cause⟩
      · exact .inr ⟨io, rfl, cause⟩
    · obtain ⟨rfl, after, first, last, applied, others⟩ := outcome
      simp only [Post.seq, applied]
      apply wp_pure
      rw [live.afterWriting_eq (encode_nonempty encoded)]
      exact ⟨encoded, rfl, after, first, last, others⟩

/-- A write, in either form. -/
theorem write_wp (live : Live files db stored pending) :
    wp oracle (db.write batch durability)
      (fun r f _ => WriteOutcome oracle files db stored pending batch r f) files process :=
  writeWith_wp live

theorem writeOwned_eq : Database.writeOwned = Database.write := rfl

end Vyrm.Kv
