import Vyrm.Store.Migration.Stages

/-!
# The import into the staging directory

Batches of the archived rows go to a new database. No batch is too large for `vyrm-kv`,
so the import fails only at a row whose key is too long behind the name of its keyspace.
-/

namespace Vyrm.Store.Migration
open Lib Lib.Crash Vyrm.Core Serde

/-! ## Batches -/

/-- A batch as the import keeps it: of no more operations and, but for a single one, of no more bytes
than its limits say. -/
structure Pending.Sized (pending : Pending) : Prop where
  estimated : pending.estimated = (pending.operations.map cost).sum
  count : pending.operations.length ≤ importBatchOperations
  bytes : pending.estimated ≤ importBatchBytes ∨ pending.operations.length ≤ 1

theorem length_operationBytes_le (operation : Kv.Mutation) :
    (Kv.WriteBatch.operationBytes operation).length ≤ cost operation := by
  cases operation with
  | put key value =>
    simp [Kv.WriteBatch.operationBytes, Kv.WriteBatch.operationParts, cost, Kv.Mutation.key, Kv.Mutation.value]
    omega
  | delete key =>
    simp [Kv.WriteBatch.operationBytes, Kv.WriteBatch.operationParts, cost, Kv.Mutation.key, Kv.Mutation.value]
    omega

theorem length_flatMap_operationBytes_le (operations : List Kv.Mutation) :
    (operations.flatMap Kv.WriteBatch.operationBytes).length ≤ (operations.map cost).sum := by
  induction operations with
  | nil => simp
  | cons operation rest ih =>
    have := length_operationBytes_le operation
    simp only [List.flatMap_cons, List.length_append, List.map_cons, List.sum_cons]
    omega

/-- A sized batch of operations that are valid one by one is accepted as a whole. -/
theorem Pending.Sized.encode {pending : Pending} (sized : pending.Sized) (some : pending.operations ≠ [])
    (valid : ∀ operation ∈ pending.operations, operation.validate = .ok ()) :
    Kv.WriteBatch.new pending.operations = .ok ⟨pending.operations⟩ ∧
      ∃ bytes, Kv.WriteBatch.encode ⟨pending.operations⟩ = .ok bytes := by
  have batch : Kv.WriteBatch.validate ⟨pending.operations⟩ = .ok () := by
    rw [Kv.WriteBatch.validate_ok]
    refine ⟨⟨some, ?_⟩, valid⟩
    have := sized.count
    rw [importBatchOperations] at this
    rw [Kv.maxOperations]
    dsimp only
    omega
  refine ⟨by rw [Kv.WriteBatch.new, batch]; rfl, _, Kv.WriteBatch.encode_of_small batch ?_⟩
  rw [Kv.WriteBatch.length_payload, Kv.batchHeaderBytes, Kv.walMaxPayloadBytes]
  have total := length_flatMap_operationBytes_le pending.operations
  rcases sized.bytes with small | single
  · rw [sized.estimated, importBatchBytes] at small
    dsimp only
    omega
  · -- one operation with the longest key and the largest value
    have positive := List.length_pos_iff.mpr some
    obtain ⟨operation, same⟩ := List.length_eq_one_iff.mp (Nat.le_antisymm single positive)
    rw [same] at valid total ⊢
    obtain ⟨-, keyBound, valueBound⟩ := Kv.WriteBatch.mutation_validate_ok.mp (valid operation List.mem_cons_self)
    have value : (operation.value.getD []).length = (Kv.WriteBatch.operationParts operation).2.2.length := by
      cases operation <;> rfl
    rw [Kv.maxKeyBytes] at keyBound
    rw [Kv.maxValueBytes] at valueBound
    simp only [List.map_cons, List.map_nil, List.sum_cons, List.sum_nil, cost, value] at total
    dsimp only
    omega

theorem Pending.sized_empty : Pending.Sized ⟨[], 0⟩ := ⟨rfl, Nat.zero_le _, .inl (Nat.zero_le _)⟩

theorem Pending.sized_single (operation : Kv.Mutation) : Pending.Sized ⟨[operation], cost operation⟩ :=
  ⟨by simp, by simp [importBatchOperations], .inr (by simp)⟩

theorem Pending.Sized.append {pending : Pending} {operation : Kv.Mutation} (sized : pending.Sized)
    (room : pending.operations = [] ∨ (pending.operations.length < importBatchOperations ∧
      pending.estimated + cost operation ≤ importBatchBytes)) :
    Pending.Sized ⟨pending.operations ++ [operation], pending.estimated + cost operation⟩ := by
  constructor
  · simp [sized.estimated]
  · rcases room with empty | ⟨count, -⟩
    · simp [empty, importBatchOperations]
    · rw [List.length_append, List.length_singleton]
      exact count
  · rcases room with empty | ⟨-, bytes⟩
    · right
      simp [empty]
    · exact .inl bytes

/-! ## Rows of an exportable store -/

/-- An archived row fails `vyrm-kv` only by its key. -/
theorem validate_operation {row : Row} (fits : row.Fits) :
    row.operation.validate = .ok () ↔ row.operation.key.length ≤ Kv.maxKeyBytes := by
  have some : row.operation.key ≠ [] := by simp [Row.operation, Kv.Mutation.key, storageKey]
  have value : (Kv.WriteBatch.operationParts row.operation).2.2.length ≤ Kv.maxValueBytes := fits.2.2
  rw [Kv.WriteBatch.mutation_validate_ok]
  exact ⟨fun valid => valid.2.1, fun bound => ⟨some, bound, value⟩⟩

/-! ## Work on the staging directory -/

section Import

variable [Manifests] [Serde SnapshotHandle] {original : FjallDirectory} {archive : Bytes}
  {inventory : MigrationInventory} {token : Option NativeStateToken} {temporaries : List Temporary}
  {process : Process} {database : NativeDirectory}

/-- The disk while the staging directory is rebuilt. -/
abbrev rebuilt (original : FjallDirectory) (archive : Bytes) (report : MigrationReport)
    (temporaries : List Temporary) (staging : Option Directory) : Disk :=
  ⟨some (.fjall original), staging, none, none, some archive, some report, temporaries⟩

/-- Only the staging directory has changed, `holds` says how, and no temporary name of the migration
itself has been given away. -/
def Rebuilt (original : FjallDirectory) (archive : Bytes) (report : MigrationReport)
    (temporaries : List Temporary) (process : Process) (holds : Option Directory → Prop) (disk : Disk)
    (after : Process) : Prop :=
  ∃ staging, disk = rebuilt original archive report temporaries staging ∧ after.pid = process.pid ∧
    after.temporaryId = process.temporaryId ∧ holds staging

omit [Manifests] in
/-- A batch is written as a whole or not at all. -/
theorem ensures_writeBatch {operations : List Kv.Mutation} (archived : Archived original archive inventory) :
    (writeBatch .staging operations).Ensures (Forward original)
      (fun result => Rebuilt original archive ⟨archiveVersion, .exported, inventory, token⟩ temporaries
        process fun staging =>
          (result = .ok () → (∀ operation ∈ operations, operation.validate = .ok ()) ∧ staging =
            some (.native { database with operations := database.operations ++ operations })) ∧
          ((Kv.WriteBatch.new operations = .ok ⟨operations⟩ ∧
            ∃ bytes, Kv.WriteBatch.encode ⟨operations⟩ = .ok bytes) → result = .ok ()))
      (rebuilt original archive ⟨archiveVersion, .exported, inventory, token⟩ temporaries
        (some (.native database))) process := by
  rw [writeBatch, Program.ensures_bind, Program.ensures_lift]
  cases made : Kv.WriteBatch.new operations with
  | error e => exact ⟨_, rfl, rfl, rfl, by simp, by simp⟩
  | ok batch =>
    rw [Kv.WriteBatch.new, except_bind_ok] at made
    obtain ⟨⟨⟩, valid, made⟩ := made
    rw [except_pure, Except.ok.injEq] at made
    subst made
    dsimp only [storage]
    rw [rework, Program.ensures_bind, ensures_openDatabase rfl]
    dsimp only
    rw [Program.ensures_bind, Program.ensures_lift, NativeDirectory.writeOwned]
    cases encoded : Kv.WriteBatch.encode ⟨operations⟩ with
    | error e => exact ⟨_, rfl, rfl, rfl, by simp, by simp⟩
    | ok bytes =>
      dsimp only [storage]
      rw [except_ok_bind, except_pure]
      dsimp only
      rw [Program.ensures_bind, ensures_change]
      refine ⟨.exported token _ temporaries archived, ?_⟩
      rw [ensures_change]
      refine ⟨.exported token _ temporaries archived, ?_⟩
      exact ⟨_, rfl, rfl, rfl, fun _ => ⟨(Kv.WriteBatch.validate_ok.mp valid).2, rfl⟩, fun _ => rfl⟩

/-- The database has taken operations that are valid one by one, and its other files are as before. -/
structure Grown (before after : NativeDirectory) : Prop where
  rest : after = { before with operations := after.operations }
  valid : ∀ operation ∈ after.operations, operation ∈ before.operations ∨ operation.validate = .ok ()

omit [Manifests] in
/-- The import takes the rows one by one: those before the end of what it returns are in the database,
the others are pending. -/
theorem ensures_importRows {rows : List Row} {pending : Pending}
    (archived : Archived original archive inventory) (sized : pending.Sized) :
    (importRows pending rows).Ensures (Forward original)
      (fun result => Rebuilt original archive ⟨archiveVersion, .exported, inventory, token⟩ temporaries
        process fun staging =>
          (∀ last, result = .ok last → ∃ database', staging = some (.native database') ∧ last.Sized ∧
            database'.operations ++ last.operations =
              database.operations ++ pending.operations ++ rows.map Row.operation ∧
            Grown database database') ∧
          ((∀ operation ∈ pending.operations ++ rows.map Row.operation, operation.validate = .ok ()) →
            ∃ last, result = .ok last))
      (rebuilt original archive ⟨archiveVersion, .exported, inventory, token⟩ temporaries
        (some (.native database))) process := by
  induction rows generalizing pending database process with
  | nil =>
    rw [importRows, Program.ensures_pure]
    refine ⟨_, rfl, rfl, rfl, ?_, fun _ => ⟨_, rfl⟩⟩
    intro last same
    cases same
    exact ⟨database, rfl, sized, by simp, rfl, fun _ member => .inl member⟩
  | cons row rest ih =>
    rw [importRows, importRow]
    by_cases full : pending.operations ≠ [] ∧ (importBatchOperations ≤ pending.operations.length ∨
        importBatchBytes < pending.estimated + cost row.operation)
    · rw [if_pos full, Program.ensures_bind, Program.ensures_bind]
      apply (ensures_writeBatch archived).mono (fun _ crashed => crashed)
      intro result disk process' ⟨staging, here, pid, temporaryId, written, accepted⟩
      subst here
      cases result with
      | error e =>
        refine ⟨staging, rfl, pid, temporaryId, by simp, fun valid => ?_⟩
        have := accepted (sized.encode full.1 fun operation member =>
          valid operation (List.mem_append_left _ member))
        cases this
      | ok _ =>
        obtain ⟨valid, rfl⟩ := written rfl
        dsimp only
        rw [Program.ensures_pure]
        dsimp only
        apply (ih (Pending.sized_single row.operation)).mono (fun _ crashed => crashed)
        intro result disk process'' ⟨staging, here, pid', temporaryId', done, ended⟩
        refine ⟨staging, here, pid'.trans pid, temporaryId'.trans temporaryId, ?_, ?_⟩
        · intro last same
          obtain ⟨database', isNative, sized', all, grown⟩ := done last same
          refine ⟨database', isNative, sized', ?_, grown.rest, ?_⟩
          · rw [all]
            simp
          · intro operation member
            rcases grown.valid operation member with earlier | ok
            · rcases List.mem_append.mp earlier with old | new
              · exact .inl old
              · exact .inr (valid operation new)
            · exact .inr ok
        · intro all
          apply ended
          intro operation member
          apply all
          exact List.mem_append_right _ member
    · rw [if_neg full, Program.ensures_bind, Program.ensures_pure]
      dsimp only
      have room : pending.operations = [] ∨ (pending.operations.length < importBatchOperations ∧
          pending.estimated + cost row.operation ≤ importBatchBytes) := by
        rw [not_and_or, not_not, not_or, not_le, not_lt] at full
        exact full
      apply (ih (sized.append room)).mono (fun _ crashed => crashed)
      intro result disk process' ⟨staging, here, pid, temporaryId, done, ended⟩
      refine ⟨staging, here, pid, temporaryId, ?_, ?_⟩
      · intro last same
        obtain ⟨database', isNative, sized', all, grown⟩ := done last same
        refine ⟨database', isNative, sized', ?_, grown⟩
        rw [all]
        simp
      · intro all
        apply ended
        intro operation member
        apply all
        simpa using member

omit [Serde SnapshotHandle] in
theorem ensures_flushDatabase [Serde SnapshotHandle] {at_ : Nat}
    (archived : Archived original archive inventory) :
    (flushDatabase .staging at_).Ensures (Forward original)
      (fun result => Rebuilt original archive ⟨archiveVersion, .exported, inventory, token⟩ temporaries
        process fun staging => result = .ok () ∧ staging = some (.native (database.flushMemtable at_)))
      (rebuilt original archive ⟨archiveVersion, .exported, inventory, token⟩ temporaries
        (some (.native database))) process := by
  rw [flushDatabase, Program.ensures_bind, ensures_openDatabase rfl]
  dsimp only
  by_cases durable : database.durable = database.operations.length
  · rw [if_pos durable, Program.ensures_pure]
    exact ⟨_, rfl, rfl, rfl, rfl, by rw [NativeDirectory.flushMemtable, if_pos durable]⟩
  · rw [if_neg durable, Program.ensures_bind, Program.ensures_update]
    dsimp only
    rw [rework, Program.ensures_bind, ensures_openDatabase rfl]
    dsimp only
    rw [Program.ensures_bind, Program.ensures_lift]
    dsimp only
    rw [Program.ensures_bind, ensures_change]
    refine ⟨.exported token _ temporaries archived, ?_⟩
    rw [ensures_change]
    exact ⟨.exported token _ temporaries archived, _, rfl, rfl, rfl, rfl, rfl⟩

/-- A new database with the operations of all rows, flushed, is imported. -/
theorem imported_flushMemtable {at_ : Nat} (exportable : Exportable original)
    (all : database.operations = (archiveRows original.store).map Row.operation)
    (grown : Grown .create database) : Imported original (database.flushMemtable at_) := by
  have checkpoints : database.checkpoints = [] := by
    rw [grown.rest]
    rfl
  have operations : (database.flushMemtable at_).operations = database.operations := by
    rw [NativeDirectory.flushMemtable]
    split <;> rfl
  refine ⟨operations.trans all, ?_, ?_, ?_⟩
  · rw [NativeDirectory.flushMemtable]
    split
    · next durable => exact durable
    · rfl
  · intro name member
    have none_ : (database.flushMemtable at_).checkpoints = [] := by
      rw [NativeDirectory.flushMemtable]
      split
      · exact checkpoints
      · exact checkpoints
    rw [none_] at member
    cases member
  · intro row member
    have among : row.operation ∈ database.operations := by
      rw [all]
      exact List.mem_map_of_mem member
    rcases grown.valid _ among with old | valid
    · cases old
    · exact (validate_operation (exportable.fits row member)).mp valid

/-- With the operations of all rows in the database, the import ends in a flush. -/
theorem ensures_flush_grown {before : Process} {at_ : Nat} (archived : Archived original archive inventory)
    (all : database.operations = (archiveRows original.store).map Row.operation)
    (grown : Grown .create database) (pid : process.pid = before.pid)
    (temporaryId : process.temporaryId = before.temporaryId) :
    (flushDatabase .staging at_).Ensures (Forward original)
      (fun result => Rebuilt original archive ⟨archiveVersion, .exported, inventory, token⟩ temporaries
        before fun staging =>
          (result = .ok () → ∃ database, staging = some (.native database) ∧ Imported original database ∧
            database.temporaries = []) ∧
          ((∀ row ∈ archiveRows original.store, row.operation.key.length ≤ Kv.maxKeyBytes) → result = .ok ()))
      (rebuilt original archive ⟨archiveVersion, .exported, inventory, token⟩ temporaries
        (some (.native database))) process := by
  apply (ensures_flushDatabase archived).mono (fun _ crashed => crashed)
  intro result disk after ⟨staging, here, pid', temporaryId', ok, isNative⟩
  refine ⟨staging, here, pid'.trans pid, temporaryId'.trans temporaryId, fun _ => ?_, fun _ => ok⟩
  refine ⟨_, isNative, imported_flushMemtable archived.exportable all grown, ?_⟩
  have none_ : database.temporaries = [] := by
    rw [grown.rest]
    rfl
  rw [NativeDirectory.flushMemtable]
  split
  · exact none_
  · exact none_

/-- The import of the archive succeeds unless a key is too long. -/
theorem ensures_importArchive {at_ : Nat} (archived : Archived original archive inventory) :
    (importArchive inventory at_).Ensures (Forward original)
      (fun result => Rebuilt original archive ⟨archiveVersion, .exported, inventory, token⟩ temporaries
        process fun staging =>
          (result = .ok () → ∃ database, staging = some (.native database) ∧ Imported original database ∧
            database.temporaries = []) ∧
          ((∀ row ∈ archiveRows original.store, row.operation.key.length ≤ Kv.maxKeyBytes) → result = .ok ()))
      (rebuilt original archive ⟨archiveVersion, .exported, inventory, token⟩ temporaries none) process := by
  have still : ∀ staging, Forward original
      (rebuilt original archive ⟨archiveVersion, .exported, inventory, token⟩ temporaries staging) :=
    fun staging => .exported token staging temporaries archived
  have valid : (∀ row ∈ archiveRows original.store, row.operation.key.length ≤ Kv.maxKeyBytes) →
      ∀ operation ∈ (archiveRows original.store).map Row.operation, operation.validate = .ok () := by
    intro importable operation member
    obtain ⟨row, among, rfl⟩ := List.mem_map.mp member
    exact (validate_operation (archived.exportable.fits row among)).mpr (importable row among)
  rw [importArchive, Program.ensures_bind, createDatabase, Program.ensures_look_bind,
    Program.ensures_refuse_bind]
  refine ⟨fun present => by simp [Disk.get] at present, fun _ => ?_⟩
  rw [Program.ensures_bind, ensures_change]
  refine ⟨still _, ?_⟩
  dsimp only
  rw [Program.ensures_bind, Program.ensures_update]
  dsimp only
  rw [ensures_change]
  refine ⟨still _, ?_⟩
  dsimp only [Disk.set]
  rw [Program.ensures_bind, openArchive, Program.ensures_look_bind, Program.ensures_pure]
  dsimp only
  rw [archived.read]
  dsimp only
  apply (@ensures_importRows _ _ _ _ token temporaries _ _ _ _ archived Pending.sized_empty).bind
  · rintro e disk process' ⟨staging, here, pid, temporaryId, _, ended⟩
    refine ⟨staging, here, pid, temporaryId, by simp, fun importable => ?_⟩
    obtain ⟨last, absent⟩ := ended (by simpa using valid importable)
    cases absent
  · rintro last disk process' ⟨staging, here, pid, temporaryId, done, _⟩
    obtain ⟨database, rfl, sized, all, grown⟩ := done last rfl
    subst here
    have all : database.operations ++ last.operations = (archiveRows original.store).map Row.operation := by
      rw [all]
      rfl
    rw [Program.ensures_bind, Program.ensures_lift]
    dsimp only
    rw [Program.ensures_refuse_bind]
    refine ⟨fun different => absurd rfl different, fun _ => ?_⟩
    by_cases empty : last.operations = []
    · rw [if_neg (not_not.mpr empty)]
      rw [empty, List.append_nil] at all
      exact ensures_flush_grown archived all grown pid temporaryId
    · -- what is written at the end is what is still pending
      rw [if_pos empty, Program.ensures_bind]
      apply (ensures_writeBatch archived).mono (fun _ crashed => crashed)
      rintro result disk after ⟨staging, here, pid', temporaryId', written, accepted⟩
      subst here
      cases result with
      | error e =>
        refine ⟨staging, rfl, pid'.trans pid, temporaryId'.trans temporaryId, by simp, fun importable => ?_⟩
        have absent := accepted (sized.encode empty fun operation member => valid importable operation (by
          rw [← all]
          exact List.mem_append_right _ member))
        cases absent
      | ok _ =>
        obtain ⟨pendingValid, rfl⟩ := written rfl
        have grown' : Grown .create { database with operations := database.operations ++ last.operations } := by
          refine ⟨by rw [grown.rest], ?_⟩
          intro operation member
          rcases List.mem_append.mp member with old | new
          · exact grown.valid operation old
          · exact .inr (pendingValid operation new)
        exact ensures_flush_grown archived all grown' (pid'.trans pid) (temporaryId'.trans temporaryId)

/-- `rebuild_staging` does not depend on what it finds in the directory. -/
theorem ensures_rebuildStaging {staging : Option Directory} {at_ : Nat}
    (archived : Archived original archive inventory) :
    (rebuildStaging inventory at_).Ensures (Forward original)
      (fun result => Rebuilt original archive ⟨archiveVersion, .exported, inventory, token⟩ temporaries
        process fun staging =>
          (result = .ok () → ∃ database, staging = some (.native database) ∧ Imported original database ∧
            database.temporaries = []) ∧
          ((∀ row ∈ archiveRows original.store, row.operation.key.length ≤ Kv.maxKeyBytes) → result = .ok ()))
      (rebuilt original archive ⟨archiveVersion, .exported, inventory, token⟩ temporaries staging)
      process := by
  have still : ∀ staging, Forward original
      (rebuilt original archive ⟨archiveVersion, .exported, inventory, token⟩ temporaries staging) :=
    fun staging => .exported token staging temporaries archived
  rw [rebuildStaging, Program.ensures_look_bind]
  cases staging with
  | none => exact ensures_importArchive archived
  | some directory =>
    dsimp only [Option.isSome_some]
    rw [if_pos rfl, Program.ensures_bind, ensures_change]
    refine ⟨still _, ?_⟩
    dsimp only
    rw [Program.ensures_bind, ensures_change]
    exact ⟨still _, ensures_importArchive archived⟩

end Import

end Vyrm.Store.Migration
