import Mathlib.Data.List.Dedup
import Vyrm.Store.Migration.Contents

/-!
# The stages of a migration

`Forward` lists the disks that runs of the migration can leave, by the directories that
stand on them and by what the marker says. Each arm of the procedure is specified on the
disks that it starts from: it passes through listed disks only, a report that it returns
is of a completed migration, and with free names for its temporary files it returns one.
-/

namespace Vyrm.Store.Migration
open Lib Lib.Crash Vyrm.Core Serde

/-! ## Temporary names -/

def Process.next (process : Process) : Process := { process with temporaryId := process.temporaryId + 1 }

/-- No temporary file that is left has a name that the process would give. -/
def Process.Free (process : Process) (temporaries : List Temporary) : Prop :=
  ∀ name ∈ temporaries, name.pid = process.pid → name.id < process.temporaryId

theorem Process.Free.next {process : Process} {temporaries : List Temporary}
    (free : process.Free temporaries) : process.next.Free temporaries :=
  fun name member same => Nat.lt_succ_of_lt (free name member same)

theorem Process.Free.notMem {process : Process} {temporaries : List Temporary} {name : Temporary}
    (free : process.Free temporaries) (pid : name.pid = process.pid) (id : process.temporaryId ≤ name.id) :
    name ∉ temporaries := by
  intro member
  have := free name member pid
  omega

section Operations

variable {crash : Disk → Prop} {disk : Disk} {process : Process}

@[simp] theorem ensures_change {f : Disk → Disk} {post : Except Error Unit → Disk → Process → Prop} :
    (change f).Ensures crash post disk process ↔ crash (f disk) ∧ post (.ok ()) (f disk) process :=
  Program.ensures_perform_of_ok rfl

@[simp] theorem ensures_nextTemporary {post : Except Error (Nat × Nat) → Disk → Process → Prop} :
    nextTemporary.Ensures crash post disk process ↔
      post (.ok (process.pid, process.temporaryId)) disk process.next := Program.ensures_update

theorem ensures_createNew {name : Temporary} {post : Except Error Unit → Disk → Process → Prop} :
    (createNew name).Ensures crash post disk process ↔
      (name ∈ disk.temporaries → post (.error (.migration "File exists (os error 17)")) disk process) ∧
      (name ∉ disk.temporaries → crash { disk with temporaries := name :: disk.temporaries } ∧
        post (.ok ()) { disk with temporaries := name :: disk.temporaries } process) := by
  by_cases taken : name ∈ disk.temporaries
  · simp [createNew, Program.Ensures, Program.perform, taken]
  · simp [createNew, Program.Ensures, Program.perform, taken]

/-- A directory is renamed where nothing stands. -/
theorem ensures_rename {before after : Place} {directory : Directory}
    {post : Except Error Unit → Disk → Process → Prop} (here : disk.get before = some directory)
    (there : disk.get after = none) :
    (rename before after).Ensures crash post disk process ↔
      crash ((disk.set before none).set after (some directory)) ∧
        post (.ok ()) ((disk.set before none).set after (some directory)) process := by
  rw [rename, Program.ensures_perform_of_ok]
  simp only [here, there]

/-- A marker is written under a temporary name and renamed. -/
theorem ensures_writeReport {report : MigrationReport} {post : Except Error Unit → Disk → Process → Prop} :
    (writeReport report).Ensures crash post disk process ↔
      (.marker process.pid process.temporaryId ∈ disk.temporaries →
        post (.error (.migration "File exists (os error 17)")) disk process.next) ∧
      (.marker process.pid process.temporaryId ∉ disk.temporaries →
        crash { disk with temporaries := .marker process.pid process.temporaryId :: disk.temporaries } ∧
        crash { disk with marker := some report } ∧
        post (.ok ()) { disk with marker := some report } process.next) := by
  rw [writeReport, Program.ensures_bind, ensures_nextTemporary]
  dsimp only
  rw [Program.ensures_bind, ensures_createNew]
  simp

end Operations

/-! ## Stages -/

section Stages

variable [Manifests] [Serde SnapshotHandle] (original : FjallDirectory)

/-- The leases that a store holds, by the names of their checkpoints. -/
def leases (store : Fjall) : List Bytes :=
  match desiredCheckpoints (nativeRows store) with
  | .ok desired => desired
  | .error _ => []

omit [Manifests] in
/-- A native database with the operations that import the store, flushed, and with no checkpoint that
no lease asks for. -/
structure Imported (database : NativeDirectory) : Prop where
  operations : database.operations = (archiveRows original.store).map Row.operation
  durable : database.durable = database.operations.length
  checkpoints : ∀ name ∈ database.checkpoints, name ∈ leases original.store
  importable : ∀ row ∈ archiveRows original.store, row.operation.key.length ≤ Kv.maxKeyBytes

omit [Manifests] in
/-- The engine has opened the database: its leases are valid and pinned, its sequence is readable. -/
structure Pinned (database : NativeDirectory) : Prop where
  desired : ∃ desired, desiredCheckpoints (nativeRows original.store) = .ok desired ∧
    ∀ name ∈ desired, name ∈ database.checkpoints
  sequence : ∃ sequence, (nativeRows original.store).view.readSequence .sequenceWatermark = .ok sequence

/-- The disks that a migration of the store can leave. -/
inductive Forward : Disk → Prop
  | fresh (temporaries : List Temporary) :
    Forward ⟨some (.fjall original), none, none, none, none, none, temporaries⟩
  | unmarked {archive : Bytes} {inventory : MigrationInventory} (temporaries : List Temporary)
    (archived : Archived original archive inventory) :
    Forward ⟨some (.fjall original), none, none, none, some archive, none, temporaries⟩
  | exported {archive : Bytes} {inventory : MigrationInventory} (token : Option NativeStateToken)
    (staging : Option Directory) (temporaries : List Temporary)
    (archived : Archived original archive inventory) :
    Forward ⟨some (.fjall original), staging, none, none, some archive,
      some ⟨archiveVersion, .exported, inventory, token⟩, temporaries⟩
  | imported {archive : Bytes} {inventory : MigrationInventory} {database : NativeDirectory}
    (token : Option NativeStateToken) (temporaries : List Temporary)
    (archived : Archived original archive inventory) (imported : Imported original database) :
    Forward ⟨some (.fjall original), some (.native database), none, none, some archive,
      some ⟨archiveVersion, .imported, inventory, token⟩, temporaries⟩
  | verified {archive : Bytes} {inventory : MigrationInventory} {database : NativeDirectory}
    (token : Option NativeStateToken) (temporaries : List Temporary)
    (archived : Archived original archive inventory) (imported : Imported original database)
    (pinned : Pinned original database) :
    Forward ⟨some (.fjall original), some (.native database), none, none, some archive,
      some ⟨archiveVersion, .verified, inventory, token⟩, temporaries⟩
  | moved {archive : Bytes} {inventory : MigrationInventory} {database : NativeDirectory}
    {phase : MigrationPhase} (token : Option NativeStateToken) (temporaries : List Temporary)
    (archived : Archived original archive inventory) (imported : Imported original database)
    (pinned : Pinned original database) (known : phase = .verified ∨ phase = .sourceMoved) :
    Forward ⟨none, some (.native database), some (.fjall original), none, some archive,
      some ⟨archiveVersion, phase, inventory, token⟩, temporaries⟩
  | visible {archive : Bytes} {inventory : MigrationInventory} {database : NativeDirectory}
    (token : Option NativeStateToken) (temporaries : List Temporary)
    (archived : Archived original archive inventory) (imported : Imported original database)
    (pinned : Pinned original database) :
    Forward ⟨some (.native database), none, some (.fjall original), none, some archive,
      some ⟨archiveVersion, .sourceMoved, inventory, token⟩, temporaries⟩
  | cutover {archive : Bytes} {inventory : MigrationInventory} {database : NativeDirectory}
    {phase : MigrationPhase} (temporaries : List Temporary)
    (archived : Archived original archive inventory) (imported : Imported original database)
    (pinned : Pinned original database) (known : phase = .cutover ∨ phase = .complete) :
    Forward ⟨some (.native database), none, some (.fjall original), none, some archive,
      some ⟨archiveVersion, phase, inventory, some database.token⟩, temporaries⟩

/-- The migration is done. -/
structure Completed (disk : Disk) : Prop where
  native : ∃ database, disk.source = some (.native database) ∧ Imported original database ∧
    Pinned original database
  archived : ∃ archive inventory, Archived original archive inventory

/-- What an arm of the procedure comes to: with `clear` it has no reason to fail. -/
structure Advances (clear : Prop) (result : Except Error MigrationReport) (disk : Disk) : Prop where
  forward : Forward original disk
  completed : ∀ report, result = .ok report → report.phase = .complete ∧ disk.marker = some report ∧
    Completed original disk
  clears : clear → ∃ report, result = .ok report

variable {original}

omit [Manifests] in
theorem Forward.temporaries {disk : Disk} (forward : Forward original disk) (temporaries : List Temporary) :
    Forward original { disk with temporaries } := by
  cases forward with
  | fresh => exact .fresh temporaries
  | unmarked _ archived => exact .unmarked temporaries archived
  | exported token staging _ archived => exact .exported token staging temporaries archived
  | imported token _ archived imported => exact .imported token temporaries archived imported
  | verified token _ archived imported pinned => exact .verified token temporaries archived imported pinned
  | moved token _ archived imported pinned known =>
    exact .moved token temporaries archived imported pinned known
  | visible token _ archived imported pinned => exact .visible token temporaries archived imported pinned
  | cutover _ archived imported pinned known => exact .cutover temporaries archived imported pinned known

omit [Manifests] in
theorem Advances.failed {clear : Prop} {e : Error} {disk : Disk} (forward : Forward original disk)
    (blocked : ¬ clear) : Advances original clear (.error e) disk :=
  ⟨forward, by simp, fun h => absurd h blocked⟩

/-! ## The engine on a migrated database -/

omit [Manifests] [Serde SnapshotHandle] in
theorem checkpointNameByte_of_isHexDigit {byte : UInt8} (digit : isHexDigit byte = true) :
    Kv.checkpointNameByte byte = true := by
  simp only [isHexDigit, isDigit, Bool.or_eq_true, Bool.and_eq_true, decide_eq_true_eq] at digit
  simp only [Kv.checkpointNameByte, Bool.or_eq_true, Bool.and_eq_true, decide_eq_true_eq, UInt8.le_iff_toNat_le]
  have bounds : (48 : UInt8).toNat = 48 ∧ (57 : UInt8).toNat = 57 ∧ (65 : UInt8).toNat = 65 ∧
    (90 : UInt8).toNat = 90 ∧ (97 : UInt8).toNat = 97 ∧ (122 : UInt8).toNat = 122 := by decide
  omega

omit [Manifests] [Serde SnapshotHandle] in
/-- The checkpoint of a valid lease has a name that a manifest store takes. -/
theorem validateCheckpointName_of_validate {handle : SnapshotHandle} (valid : handle.validate = .ok ()) :
    Kv.validateCheckpointName (runtimeCheckpointName handle.id) = .ok () := by
  have digest : validateDigest "" handle.id.asStr = .ok () := by
    rw [SnapshotHandle.id_of_validate valid, SnapshotHandle.identity]
    exact validateDigest_sha256Hex _ _
  unfold validateDigest at digest
  split at digest
  · cases digest
  rename_i accepted
  rw [not_or, not_not, not_not, List.all_eq_true] at accepted
  obtain ⟨length, digits⟩ := accepted
  have size : (runtimeCheckpointName handle.id).length = 72 := by
    rw [runtimeCheckpointName, List.length_append, Ident.bytes, length]
    rfl
  have named : (runtimeCheckpointName handle.id).all Kv.checkpointNameByte = true := by
    rw [List.all_eq_true, runtimeCheckpointName]
    intro byte member
    rcases List.mem_append.mp member with front | back
    · exact List.all_eq_true.mp (by decide : checkpointLabel.all Kv.checkpointNameByte = true) byte front
    · exact checkpointNameByte_of_isHexDigit (digits byte back)
  rw [Kv.validateCheckpointName, Kv.rejectIf_ok, named, size]
  simp [← List.length_eq_zero_iff, size]

omit [Manifests] in
theorem mem_desiredCheckpoints {rows : Rows} {desired : List Bytes}
    (listed : desiredCheckpoints rows = .ok desired) {name : Bytes} (member : name ∈ desired) :
    ∃ handle : SnapshotHandle, handle.validate = .ok () ∧ name = runtimeCheckpointName handle.id := by
  rw [desiredCheckpoints] at listed
  obtain ⟨rows, -, listed⟩ := except_bind_ok.mp listed
  obtain ⟨handles, -, listed⟩ := except_bind_ok.mp listed
  obtain ⟨⟨⟩, valid, listed⟩ := except_bind_ok.mp listed
  rw [except_pure, Except.ok.injEq] at listed
  subst listed
  rw [List.mem_dedup, List.mem_mergeSort, List.mem_map] at member
  obtain ⟨handle, among, rfl⟩ := member
  rw [kernel_ok_iff, except_forM_ok] at valid
  exact ⟨handle, valid handle among, rfl⟩

omit [Manifests] [Serde SnapshotHandle] in
theorem Imported.rows {database : NativeDirectory} [Serde SnapshotHandle]
    (imported : Imported original database) : database.rows = nativeRows original.store := by
  rw [NativeDirectory.rows, imported.operations, nativeRows]

omit [Manifests] [Serde SnapshotHandle] in
theorem ensures_openDatabase {place : Place} {database : NativeDirectory} {disk : Disk} {process : Process}
    {crash : Disk → Prop} {post : Except Error NativeDirectory → Disk → Process → Prop}
    (here : disk.get place = some (.native database)) :
    (openDatabase place).Ensures crash post disk process ↔ post (.ok database) disk process := by
  rw [openDatabase, Program.ensures_look_bind, here, Program.ensures_pure]

omit [Manifests] [Serde SnapshotHandle] in
theorem ensures_nativeState {place : Place} {database : NativeDirectory} {disk : Disk} {process : Process}
    {crash : Disk → Prop} {post : Except Error NativeStateToken → Disk → Process → Prop}
    (here : disk.get place = some (.native database)) :
    (nativeState place).Ensures crash post disk process ↔ post (.ok database.token) disk process := by
  rw [nativeState, Program.ensures_bind, ensures_openDatabase here]
  simp only [Program.ensures_pure]

omit [Manifests] [Serde SnapshotHandle] in
/-- The visible database is taken for the recorded one when its state is. -/
theorem ensures_verifyVisibleNative {database : NativeDirectory} {expected : NativeStateToken} {disk : Disk}
    {process : Process} {crash : Disk → Prop} {post : Except Error Unit → Disk → Process → Prop}
    (here : disk.source = some (.native database)) :
    (verifyVisibleNative (some expected)).Ensures crash post disk process ↔
      (database.token ≠ expected →
        post (.error (.migration "native state diverged after cutover")) disk process) ∧
      (database.token = expected → post (.ok ()) disk process) := by
  rw [verifyVisibleNative, Program.ensures_look_bind, Program.ensures_refuse_bind, here]
  simp only [hasCurrent, not_true_eq_false, false_imp_iff, true_and, not_false_eq_true, true_imp_iff]
  have found : disk.get .source = some (.native database) := here
  rw [Program.ensures_bind, ensures_nativeState found]
  dsimp only
  rw [Program.ensures_refuse, not_ne_iff]

omit [Manifests] in
theorem leases_eq {store : Fjall} {desired : List Bytes}
    (listed : desiredCheckpoints (nativeRows store) = .ok desired) : leases store = desired := by
  rw [leases, listed]

omit [Manifests] in
/-- Every lease asks for a checkpoint with the label of the engine. -/
theorem mem_filter_label {rows : Rows} {desired checkpoints : List Bytes} {name : Bytes}
    (listed : desiredCheckpoints rows = .ok desired) (member : name ∈ desired) :
    name ∈ checkpoints.filter (checkpointLabel.isPrefixOf ·) ↔ name ∈ checkpoints := by
  obtain ⟨handle, -, rfl⟩ := mem_desiredCheckpoints listed member
  simp [runtimeCheckpointName]

/-- The engine finds nothing to reconcile in a database it has opened before. -/
theorem ensures_openEngine_pinned {place : Place} {database : NativeDirectory} {disk : Disk}
    {process : Process} {crash : Disk → Prop} {post : Except Error Unit → Disk → Process → Prop}
    (here : disk.get place = some (.native database)) (imported : Imported original database)
    (pinned : Pinned original database) (done : post (.ok ()) disk process) :
    (openEngine place).Ensures crash post disk process := by
  obtain ⟨⟨desired, listed, present⟩, sequence, read⟩ := pinned
  have missing : desired.filter (· ∉ database.checkpoints.filter (checkpointLabel.isPrefixOf ·)) = [] := by
    rw [List.filter_eq_nil_iff]
    intro name member
    simpa [mem_filter_label listed member] using present name member
  have stale : (database.checkpoints.filter (checkpointLabel.isPrefixOf ·)).filter (· ∉ desired) = [] := by
    rw [List.filter_eq_nil_iff]
    intro name member
    have wanted := imported.checkpoints name (List.mem_of_mem_filter member)
    rw [leases_eq listed] at wanted
    simpa using wanted
  rw [openEngine, reconcileRuntimeCheckpoints]
  simp only [Program.ensures_bind, ensures_openDatabase here, Program.ensures_lift, imported.rows, listed,
    missing, stale, ne_eq, not_true_eq_false, if_false, releaseAll, Program.ensures_pure, read]
  exact done

/-! ## Pinning the leases of an imported database -/

/-- The checkpoints that the engine makes when it opens the database. -/
def missing (desired : List Bytes) (database : NativeDirectory) : List Bytes :=
  desired.filter (· ∉ database.checkpoints.filter (checkpointLabel.isPrefixOf ·))

/-- The disk while the staged database is imported. -/
abbrev staged (original : FjallDirectory) (archive : Bytes) (report : MigrationReport)
    (temporaries : List Temporary) (database : NativeDirectory) : Disk :=
  ⟨some (.fjall original), some (.native database), none, none, some archive, some report, temporaries⟩

omit [Manifests] in
/-- The staged database is still imported, `holds` says more of it, and no temporary name of the
migration itself has been given away. -/
def Staged (original : FjallDirectory) (archive : Bytes) (report : MigrationReport)
    (temporaries : List Temporary) (process : Process) (holds : NativeDirectory → Prop) (disk : Disk)
    (after : Process) : Prop :=
  ∃ database, disk = staged original archive report temporaries database ∧ Imported original database ∧
    after.pid = process.pid ∧ after.temporaryId = process.temporaryId ∧ holds database

section Pinning

variable {archive : Bytes} {inventory : MigrationInventory} {token : Option NativeStateToken}
  {temporaries : List Temporary}

omit [Manifests] in
/-- One checkpoint is made if no earlier crash left a file with its temporary name. -/
theorem ensures_checkpoint {database : NativeDirectory} {process : Process} {name : Bytes}
    {post : Except Error Unit → Disk → Process → Prop} (archived : Archived original archive inventory)
    (imported : Imported original database) (lease : name ∈ leases original.store)
    (valid : Kv.validateCheckpointName name = .ok ())
    (taken : (name, process.pointerId) ∈ database.temporaries →
      post (.error (.storage (.io .alreadyExists)))
        (staged original archive ⟨archiveVersion, .imported, inventory, token⟩ temporaries database)
        { process with pointerId := process.pointerId + 1 })
    (made : (name, process.pointerId) ∉ database.temporaries →
      Imported original { database with checkpoints := name :: database.checkpoints } →
      post (.ok ()) (staged original archive ⟨archiveVersion, .imported, inventory, token⟩ temporaries
        { database with checkpoints := name :: database.checkpoints })
        { process with pointerId := process.pointerId + 1 }) :
    (checkpoint .staging name).Ensures (Forward original) post
      (staged original archive ⟨archiveVersion, .imported, inventory, token⟩ temporaries database)
      process := by
  have named : Imported original { database with checkpoints := name :: database.checkpoints } :=
    ⟨imported.operations, imported.durable, List.forall_mem_cons.mpr ⟨lease, imported.checkpoints⟩,
      imported.importable⟩
  have between : Imported original
      { database with temporaries := (name, process.pointerId) :: database.temporaries } :=
    ⟨imported.operations, imported.durable, imported.checkpoints, imported.importable⟩
  rw [checkpoint, Program.ensures_bind, ensures_openDatabase rfl]
  dsimp only
  rw [Program.ensures_bind, Program.ensures_lift, valid]
  dsimp only [storage]
  rw [Program.ensures_bind, Program.ensures_update]
  dsimp only
  rw [Program.ensures_refuse_bind]
  refine ⟨taken, fun free => ?_⟩
  rw [Program.ensures_bind, ensures_change]
  refine ⟨.imported token temporaries archived between, ?_⟩
  rw [ensures_change]
  exact ⟨.imported token temporaries archived named, made free named⟩

omit [Manifests] in
/-- All checkpoints are made if that holds of each of them. -/
theorem ensures_checkpointAll {names : List Bytes} {database : NativeDirectory} {process : Process}
    (archived : Archived original archive inventory) (imported : Imported original database)
    (wanted : ∀ name ∈ names, name ∈ leases original.store ∧ Kv.validateCheckpointName name = .ok ()) :
    (checkpointAll .staging names).Ensures (Forward original)
      (fun result => Staged original archive ⟨archiveVersion, .imported, inventory, token⟩ temporaries
        process fun database' =>
          (result = .ok () ↔ ∀ pair ∈ names.zipIdx process.pointerId, pair ∉ database.temporaries) ∧
          (result = .ok () →
            ∀ name, name ∈ names ∨ name ∈ database.checkpoints → name ∈ database'.checkpoints))
      (staged original archive ⟨archiveVersion, .imported, inventory, token⟩ temporaries database)
      process := by
  induction names generalizing database process with
  | nil =>
    rw [checkpointAll, Program.ensures_pure]
    exact ⟨database, rfl, imported, rfl, rfl, by simp, by simp⟩
  | cons name rest ih =>
    obtain ⟨⟨lease, valid⟩, others⟩ := List.forall_mem_cons.mp wanted
    rw [checkpointAll, Program.ensures_bind, List.zipIdx_cons]
    apply ensures_checkpoint archived imported lease valid
    · intro taken
      refine ⟨database, rfl, imported, rfl, rfl, ?_, by simp⟩
      simp [taken]
    · intro free named
      apply (ih named others).mono (fun _ crashed => crashed)
      intro result disk process' ⟨database', here, imported', pid, temporaryId, unclashed, pinned⟩
      refine ⟨database', here, imported', pid, temporaryId, ?_, ?_⟩
      · rw [unclashed, List.forall_mem_cons]
        exact ⟨fun all => ⟨free, all⟩, fun all => all.2⟩
      · intro ok other member
        apply pinned ok
        simp only [List.mem_cons] at member ⊢
        tauto

/-- When the engine opens the imported database: nothing stands in the way of its checkpoints, and what
it reads is valid. -/
def Opens (original : FjallDirectory) (process : Process) (database : NativeDirectory) : Prop :=
  ∃ desired sequence, desiredCheckpoints (nativeRows original.store) = .ok desired ∧
    (∀ pair ∈ (missing desired database).zipIdx process.pointerId, pair ∉ database.temporaries) ∧
    (nativeRows original.store).view.readSequence .sequenceWatermark = .ok sequence

theorem ensures_openEngine_imported {database : NativeDirectory} {process : Process}
    (archived : Archived original archive inventory) (imported : Imported original database) :
    (openEngine .staging).Ensures (Forward original)
      (fun result => Staged original archive ⟨archiveVersion, .imported, inventory, token⟩ temporaries
        process fun database' =>
          (result = .ok () ↔ Opens original process database) ∧ (result = .ok () → Pinned original database'))
      (staged original archive ⟨archiveVersion, .imported, inventory, token⟩ temporaries database)
      process := by
  rw [openEngine, Program.ensures_bind, reconcileRuntimeCheckpoints, Program.ensures_bind,
    ensures_openDatabase rfl]
  dsimp only
  rw [Program.ensures_bind, Program.ensures_lift, imported.rows]
  cases listed : desiredCheckpoints (nativeRows original.store) with
  | error e => exact ⟨database, rfl, imported, rfl, rfl, by simp [Opens, listed], by simp⟩
  | ok desired =>
    dsimp only
    have stale : (database.checkpoints.filter (checkpointLabel.isPrefixOf ·)).filter (· ∉ desired) = [] := by
      rw [List.filter_eq_nil_iff]
      intro name member
      have wanted := imported.checkpoints name (List.mem_of_mem_filter member)
      rw [leases_eq listed] at wanted
      simpa using wanted
    rw [stale, releaseAll, ← missing]
    have wanted : ∀ name ∈ missing desired database,
        name ∈ leases original.store ∧ Kv.validateCheckpointName name = .ok () := by
      intro name member
      have asked := List.mem_of_mem_filter member
      obtain ⟨handle, valid, rfl⟩ := mem_desiredCheckpoints listed asked
      exact ⟨by rw [leases_eq listed]; exact asked, validateCheckpointName_of_validate valid⟩
    have made : (if missing desired database ≠ [] then do
          flushDatabase .staging database.createdAt
          checkpointAll .staging (missing desired database)
          pure ()
        else pure () : Migrating Unit).Ensures (Forward original)
          (fun result => Staged original archive ⟨archiveVersion, .imported, inventory, token⟩ temporaries
            process fun database' =>
              (result = .ok () ↔ ∀ pair ∈ (missing desired database).zipIdx process.pointerId,
                pair ∉ database.temporaries) ∧
              (result = .ok () → ∀ name, name ∈ missing desired database ∨ name ∈ database.checkpoints →
                name ∈ database'.checkpoints))
          (staged original archive ⟨archiveVersion, .imported, inventory, token⟩ temporaries database)
          process := by
      by_cases none_ : missing desired database = []
      · rw [if_neg (not_not.mpr none_), Program.ensures_pure]
        exact ⟨database, rfl, imported, rfl, rfl, by simp [none_], by simp [none_]⟩
      · rw [if_pos none_, Program.ensures_bind, flushDatabase, Program.ensures_bind, ensures_openDatabase rfl]
        dsimp only
        rw [if_pos imported.durable, Program.ensures_pure]
        dsimp only
        rw [Program.ensures_bind]
        apply (ensures_checkpointAll archived imported wanted).mono (fun _ crashed => crashed)
        intro result disk process' known
        cases result with
        | error e => exact known
        | ok _ => exact Program.ensures_pure.mpr known
    apply made.mono (fun _ crashed => crashed)
    intro result disk process' ⟨database', here, imported', pid, temporaryId, unclashed, pinned⟩
    subst here
    cases result with
    | error e =>
      refine ⟨database', rfl, imported', pid, temporaryId, ?_, by simp⟩
      simp only [reduceCtorEq, false_iff] at unclashed ⊢
      intro ⟨desired', _, listed', free, _⟩
      rw [listed, Except.ok.injEq] at listed'
      rw [listed'] at unclashed
      exact unclashed free
    | ok _ =>
      dsimp only
      rw [Program.ensures_bind, ensures_openDatabase rfl]
      dsimp only
      rw [Program.ensures_bind, Program.ensures_lift, imported'.rows]
      have free := unclashed.mp rfl
      have present : ∀ name ∈ desired, name ∈ database'.checkpoints := by
        intro name member
        apply pinned rfl
        by_cases already : name ∈ database.checkpoints
        · exact .inr already
        · left
          rw [missing, List.mem_filter]
          simpa [mem_filter_label listed member] using ⟨member, already⟩
      cases read : (nativeRows original.store).view.readSequence .sequenceWatermark with
      | error e =>
        refine ⟨database', rfl, imported', pid, temporaryId, ?_, by simp⟩
        simp [Opens, read]
      | ok sequence =>
        dsimp only
        rw [Program.ensures_pure]
        refine ⟨database', rfl, imported', pid, temporaryId, ?_, fun _ => ⟨⟨desired, listed, present⟩, _, read⟩⟩
        simp only [true_iff]
        exact ⟨desired, sequence, listed, free, read⟩

end Pinning

/-! ## The arms of the procedure -/

section Arms

variable {archive : Bytes} {inventory : MigrationInventory} {database : NativeDirectory}
  {token : Option NativeStateToken} {phase : MigrationPhase} {temporaries : List Temporary}
  {process : Process} {fault : Option MigrationFault} {clear : Prop}

omit [Manifests] in
theorem onComplete_advances (archived : Archived original archive inventory)
    (imported : Imported original database) (pinned : Pinned original database) :
    (onComplete ⟨archiveVersion, .complete, inventory, some database.token⟩).Ensures (Forward original)
      (fun result disk _ => Advances original clear result disk)
      ⟨some (.native database), none, some (.fjall original), none, some archive,
        some ⟨archiveVersion, .complete, inventory, some database.token⟩, temporaries⟩ process := by
  have forward := Forward.cutover temporaries archived imported pinned (.inr rfl)
  rw [onComplete, Program.ensures_look_bind, Program.ensures_refuse_bind, Program.ensures_pure]
  refine ⟨fun missing => by simp [hasCurrent] at missing, fun _ => ?_⟩
  refine ⟨forward, ?_, fun _ => ⟨_, rfl⟩⟩
  intro report same
  cases same
  exact ⟨rfl, rfl, ⟨_, rfl, imported, pinned⟩, _, _, archived⟩

theorem onCutover_advances (archived : Archived original archive inventory)
    (imported : Imported original database) (pinned : Pinned original database)
    (free : clear → process.Free temporaries) :
    (onCutover ⟨archiveVersion, .cutover, inventory, some database.token⟩).Ensures (Forward original)
      (fun result disk _ => Advances original clear result disk)
      ⟨some (.native database), none, some (.fjall original), none, some archive,
        some ⟨archiveVersion, .cutover, inventory, some database.token⟩, temporaries⟩ process := by
  have forward := Forward.cutover temporaries archived imported pinned (.inl rfl)
  rw [onCutover, Program.ensures_bind, ensures_verifyVisibleNative rfl]
  refine ⟨fun diverged => absurd rfl diverged, fun _ => ?_⟩
  rw [Program.ensures_bind]
  apply ensures_openEngine_pinned rfl imported pinned
  rw [Program.ensures_bind, ensures_nativeState rfl]
  dsimp only
  rw [Program.ensures_bind, ensures_writeReport]
  refine ⟨fun taken => .failed forward fun h => (free h).notMem rfl le_rfl taken, fun _ => ?_⟩
  exact ⟨forward.temporaries _, .cutover temporaries archived imported pinned (.inr rfl),
    onComplete_advances archived imported pinned⟩

theorem onSourceMoved_advances (archived : Archived original archive inventory)
    (imported : Imported original database) (pinned : Pinned original database)
    (free : clear → process.Free temporaries) (faultless : clear → fault = none) :
    (onSourceMoved fault ⟨archiveVersion, .sourceMoved, inventory, token⟩).Ensures (Forward original)
      (fun result disk _ => Advances original clear result disk)
      ⟨none, some (.native database), some (.fjall original), none, some archive,
        some ⟨archiveVersion, .sourceMoved, inventory, token⟩, temporaries⟩ process := by
  have visible := Forward.visible token temporaries archived imported pinned
  have cutover := Forward.cutover temporaries archived imported pinned (.inl rfl)
  rw [onSourceMoved, Program.ensures_look_bind, Program.ensures_refuse_bind, Program.ensures_refuse_bind]
  refine ⟨fun absent => by simp at absent, fun _ => ⟨fun absent => by simp at absent, fun _ => ?_⟩⟩
  rw [Program.ensures_bind, ensures_rename rfl rfl]
  refine ⟨visible, ?_⟩
  dsimp only [Disk.set]
  rw [inject, Program.ensures_refuse_bind]
  refine ⟨fun injected => .failed visible fun h => by simp [faultless h] at injected, fun _ => ?_⟩
  rw [Program.ensures_bind, ensures_nativeState rfl]
  dsimp only
  rw [Program.ensures_bind, ensures_writeReport]
  refine ⟨fun taken => .failed visible fun h => (free h).notMem rfl le_rfl taken, fun _ => ?_⟩
  refine ⟨visible.temporaries _, cutover, ?_⟩
  dsimp only
  rw [inject, Program.ensures_refuse_bind]
  refine ⟨fun injected => .failed cutover fun h => by simp [faultless h] at injected, fun _ => ?_⟩
  exact onCutover_advances archived imported pinned fun h => (free h).next

theorem onVerified_advances (archived : Archived original archive inventory)
    (imported : Imported original database) (pinned : Pinned original database)
    (free : clear → process.Free temporaries) (faultless : clear → fault = none) :
    (onVerified fault ⟨archiveVersion, .verified, inventory, token⟩).Ensures (Forward original)
      (fun result disk _ => Advances original clear result disk)
      ⟨some (.fjall original), some (.native database), none, none, some archive,
        some ⟨archiveVersion, .verified, inventory, token⟩, temporaries⟩ process := by
  have moving := Forward.moved token temporaries archived imported pinned (.inl rfl)
  have moved := Forward.moved token temporaries archived imported pinned (.inr rfl)
  rw [onVerified, Program.ensures_look_bind, Program.ensures_refuse_bind, Program.ensures_refuse_bind]
  refine ⟨fun absent => by simp at absent, fun _ => ⟨fun absent => by simp at absent, fun _ => ?_⟩⟩
  rw [Program.ensures_bind, ensures_rename rfl rfl]
  refine ⟨moving, ?_⟩
  dsimp only [Disk.set]
  rw [inject, Program.ensures_refuse_bind]
  refine ⟨fun injected => .failed moving fun h => by simp [faultless h] at injected, fun _ => ?_⟩
  rw [Program.ensures_bind, ensures_writeReport]
  refine ⟨fun taken => .failed moving fun h => (free h).notMem rfl le_rfl taken, fun _ => ?_⟩
  refine ⟨moving.temporaries _, moved, ?_⟩
  dsimp only
  rw [inject, Program.ensures_refuse_bind]
  refine ⟨fun injected => .failed moved fun h => by simp [faultless h] at injected, fun _ => ?_⟩
  exact onSourceMoved_advances archived imported pinned (fun h => (free h).next) faultless

/-- Verification of an imported database comes down to opening it. -/
theorem ensures_verifyStaging (archived : Archived original archive inventory)
    (imported : Imported original database) :
    (verifyStaging inventory).Ensures (Forward original)
      (fun result => Staged original archive ⟨archiveVersion, .imported, inventory, token⟩ temporaries
        process fun database' =>
          (result = .ok () ↔ Opens original process database) ∧ (result = .ok () → Pinned original database'))
      (staged original archive ⟨archiveVersion, .imported, inventory, token⟩ temporaries database)
      process := by
  rw [verifyStaging, Program.ensures_look_bind, Program.ensures_refuse_bind]
  refine ⟨fun absent => by simp at absent, fun _ => ?_⟩
  rw [Program.ensures_bind, ensures_openDatabase rfl]
  dsimp only
  rw [Program.ensures_refuse_bind, imported.rows, length_range_nativeRows, archived.entries]
  refine ⟨fun different => absurd rfl different, fun _ => ?_⟩
  rw [Program.ensures_bind, openArchive, Program.ensures_look_bind, Program.ensures_pure]
  dsimp only
  rw [archived.read]
  dsimp only
  rw [Program.ensures_bind, Program.ensures_lift, compareRows_nativeRows]
  dsimp only
  rw [Program.ensures_bind, Program.ensures_lift]
  dsimp only
  rw [Program.ensures_refuse_bind]
  exact ⟨fun different => absurd rfl different, fun _ => ensures_openEngine_imported archived imported⟩

theorem onImported_advances (archived : Archived original archive inventory)
    (imported : Imported original database) (free : clear → process.Free temporaries)
    (faultless : clear → fault = none) (opens : clear → Opens original process database) :
    (onImported fault ⟨archiveVersion, .imported, inventory, token⟩).Ensures (Forward original)
      (fun result disk _ => Advances original clear result disk ∧
        ∀ report, result = .ok report → Opens original process database)
      (staged original archive ⟨archiveVersion, .imported, inventory, token⟩ temporaries database)
      process := by
  rw [onImported]
  apply (@ensures_verifyStaging _ _ _ _ _ _ token temporaries _ archived imported).bind
  · intro e disk process' ⟨database', here, imported', _, _, unopened, _⟩
    subst here
    refine ⟨.failed (.imported token temporaries archived imported') fun h => ?_, by simp⟩
    exact absurd (unopened.mpr (opens h)) (by simp)
  · intro _ disk process' ⟨database', here, imported', pid, temporaryId, opened, pinned⟩
    subst here
    have opened := opened.mp rfl
    have pinned := pinned rfl
    have free' : clear → process'.Free temporaries := by
      intro h name member same
      rw [temporaryId]
      exact free h name member (same.trans pid)
    have before := Forward.imported token temporaries archived imported'
    have after := Forward.verified token temporaries archived imported' pinned
    dsimp only
    rw [Program.ensures_bind, ensures_writeReport]
    refine ⟨fun taken => ⟨.failed before fun h => (free' h).notMem rfl le_rfl taken, by simp⟩, fun _ => ?_⟩
    refine ⟨before.temporaries _, after, ?_⟩
    dsimp only
    rw [inject, Program.ensures_refuse_bind]
    refine ⟨fun injected => ⟨.failed after fun h => by simp [faultless h] at injected, by simp⟩, fun _ => ?_⟩
    apply (onVerified_advances archived imported' pinned (fun h => (free' h).next) faultless).mono
      (fun _ crashed => crashed)
    exact fun result disk _ advances => ⟨advances, fun _ _ => opened⟩

end Arms

end Stages

end Vyrm.Store.Migration
