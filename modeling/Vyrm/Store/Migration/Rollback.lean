import Mathlib.Data.Fintype.EquivFin
import Vyrm.Store.Migration.Resume

/-!
# Migrations and rollbacks

Runs of the migration and of the rollback, each cut short by a crash or not, in any order, with
writes to the native store once it is in use. The Fjall store that was migrated stands unchanged
behind every one of them, as the source or as its backup; what a run reports has taken place; and
a rollback takes place exactly where the native store has accepted nothing of its own.
-/

namespace Vyrm.Store.Migration
open Lib Lib.Crash Vyrm.Core Serde

section Rollback

variable [Manifests] [Serde SnapshotHandle] {original : FjallDirectory} {archive : Bytes}
  {inventory : MigrationInventory} {process : Process} {crash : Disk → Prop} {disk : Disk}

/-! ## The copy of the store -/

omit [Manifests] [Serde SnapshotHandle] in
/-- A copy that is compared with the archive only leaves temporary files on its way, and is refused only
if a file of an earlier crash has one of the names. -/
theorem ensures_verifyFjallCopy {place : Place} {post : Except Error Unit → Disk → Process → Prop}
    (archived : Archived original archive inventory) (here : disk.get place = some (.fjall original))
    (still : ∀ temporaries, crash { disk with temporaries })
    (taken : ∀ e process', ¬ process.Free disk.temporaries → post (.error e) disk process')
    (same : post (.ok ()) disk process.next.next) :
    (verifyFjallCopy place inventory).Ensures crash post disk process := by
  obtain ⟨known, writer, recorded, finished⟩ := archived
  rw [verifyFjallCopy, Program.ensures_bind, ensures_nextTemporary]
  dsimp only
  rw [Program.ensures_bind, openStore, Program.ensures_look_bind, here]
  dsimp only
  rw [Program.ensures_pure]
  dsimp only
  rw [Program.ensures_bind, exportMigrationArchive, Program.ensures_refuse_bind]
  refine ⟨fun unknown => absurd known unknown, fun _ => ?_⟩
  rw [Program.ensures_look_bind, Program.ensures_refuse_bind]
  refine ⟨fun present => taken _ _ fun free => free.notMem rfl le_rfl present, fun _ => ?_⟩
  rw [Program.ensures_bind, ensures_nextTemporary]
  dsimp only
  rw [Program.ensures_bind, ensures_createNew]
  refine ⟨fun present => taken _ _ fun free => free.next.notMem rfl le_rfl present, fun _ => ⟨still _, ?_⟩⟩
  dsimp only
  rw [Program.ensures_bind, Program.ensures_lift, recorded]
  dsimp only
  rw [finished]
  dsimp only
  rw [Program.ensures_bind, ensures_change]
  refine ⟨still _, ?_⟩
  dsimp only [Target.place]
  rw [Program.ensures_pure]
  dsimp only
  have erased : (Temporary.verification process.pid process.temporaryId ::
      (Temporary.archive process.next.pid process.next.temporaryId :: disk.temporaries).erase
        (.archive process.next.pid process.next.temporaryId)).erase
          (.verification process.pid process.temporaryId) = disk.temporaries := by
    rw [List.erase_cons_head, List.erase_cons_head]
  rw [Program.ensures_bind, ensures_change]
  dsimp only
  rw [erased]
  refine ⟨still _, ?_⟩
  rw [Program.ensures_refuse]
  exact ⟨fun different => absurd rfl different, fun _ => same⟩

/-! ## What can stand on disk -/

variable (original)

omit [Manifests] in
/-- The disks that migrations and rollbacks of a store leave, with writes to the native store in
between. -/
inductive Standing : Disk → Prop
  | forward {disk : Disk} (forward : Forward original disk) : Standing disk
  | written {archive : Bytes} {inventory : MigrationInventory} {database serving : NativeDirectory}
    {more : List Kv.Mutation} (temporaries : List Temporary) (archived : Archived original archive inventory)
    (imported : Imported original database) (pinned : Pinned original database)
    (accepted : serving.operations = database.operations ++ more) (some_ : more ≠ []) :
    Standing ⟨some (.native serving), none, some (.fjall original), none, some archive,
      some ⟨archiveVersion, .complete, inventory, some database.token⟩, temporaries⟩
  | retired {archive : Bytes} {inventory : MigrationInventory} {database : NativeDirectory}
    {phase : MigrationPhase} (temporaries : List Temporary) (archived : Archived original archive inventory)
    (imported : Imported original database) (pinned : Pinned original database)
    (known : phase = .cutover ∨ phase = .complete ∨ phase = .rollbackNativeMoved) :
    Standing ⟨none, none, some (.fjall original), some (.native database), some archive,
      some ⟨archiveVersion, phase, inventory, some database.token⟩, temporaries⟩
  | restored {archive : Bytes} {inventory : MigrationInventory} {database : NativeDirectory}
    {phase : MigrationPhase} (temporaries : List Temporary) (archived : Archived original archive inventory)
    (imported : Imported original database) (pinned : Pinned original database)
    (known : phase = .rollbackNativeMoved ∨ phase = .rolledBack) :
    Standing ⟨some (.fjall original), none, none, some (.native database), some archive,
      some ⟨archiveVersion, phase, inventory, some database.token⟩, temporaries⟩

variable {original}

omit [Manifests] in
/-- Whatever stands, the store that was migrated is among it. -/
theorem Standing.original_stands (standing : Standing original disk) :
    disk.source = some (.fjall original) ∨ disk.backup = some (.fjall original) := by
  cases standing with
  | forward forward =>
    cases forward
    case fresh | unmarked | exported | imported | verified => exact .inl rfl
    case moved | visible | cutover => exact .inr rfl
  | written => exact .inr rfl
  | retired => exact .inr rfl
  | restored => exact .inl rfl

/-! ## The rollback -/

omit [Manifests] in
/-- The sequence of a store is read from it as from the native database it was imported into. -/
theorem sequence_of_pinned {database : NativeDirectory} (pinned : Pinned original database) :
    ∃ sequence, original.store.sequence = .ok sequence := by
  obtain ⟨sequence, read⟩ := pinned.sequence
  refine ⟨sequence, ?_⟩
  unfold View.readSequence View.read Rows.view at read
  dsimp only [storage] at read
  rw [getElem?_nativeRows_storageKey, except_ok_bind] at read
  unfold Fjall.sequence
  cases stored : original.store.get .metadata MetaKey.sequenceWatermark.bytes with
  | none =>
    rw [stored] at read
    exact read
  | some value =>
    rw [stored] at read
    exact read

omit [Manifests] in
/-- What a rollback comes to: with `clear` it has no reason to fail. -/
structure RollsBack (original : FjallDirectory) (clear : Prop) (result : Except Error MigrationReport)
    (disk : Disk) : Prop where
  standing : Standing original disk
  restored : ∀ report, result = .ok report → report.phase = .rolledBack ∧
    disk.source = some (.fjall original) ∧ disk.backup = none ∧
    ∃ database, disk.retired = some (.native database) ∧ Imported original database
  clears : clear → ∃ report, result = .ok report

omit [Manifests] in
theorem RollsBack.failed {clear : Prop} {e : Error} (standing : Standing original disk) (blocked : ¬ clear) :
    RollsBack original clear (.error e) disk :=
  ⟨standing, by simp, fun h => absurd h blocked⟩

section Arms

variable {database : NativeDirectory} {phase : MigrationPhase} {temporaries : List Temporary} {clear : Prop}

omit [Manifests] in
theorem RollsBack.done (archived : Archived original archive inventory) (imported : Imported original database)
    (pinned : Pinned original database) :
    RollsBack original clear (.ok ⟨archiveVersion, .rolledBack, inventory, some database.token⟩)
      ⟨some (.fjall original), none, none, some (.native database), some archive,
        some ⟨archiveVersion, .rolledBack, inventory, some database.token⟩, temporaries⟩ := by
  refine ⟨.restored temporaries archived imported pinned (.inr rfl), ?_, fun _ => ⟨_, rfl⟩⟩
  intro report same
  cases same
  exact ⟨rfl, rfl, rfl, database, rfl, imported⟩

omit [Manifests] in
theorem confirmRestored_rollsBack (archived : Archived original archive inventory)
    (imported : Imported original database) (pinned : Pinned original database)
    (free : clear → process.Free temporaries) :
    (confirmRestored ⟨archiveVersion, .rollbackNativeMoved, inventory, some database.token⟩).Ensures
      (Standing original) (fun result disk _ => RollsBack original clear result disk)
      ⟨some (.fjall original), none, none, some (.native database), some archive,
        some ⟨archiveVersion, .rollbackNativeMoved, inventory, some database.token⟩, temporaries⟩ process := by
  have still := fun names => Standing.restored names archived imported pinned (.inl rfl)
  rw [confirmRestored, Program.ensures_bind]
  apply ensures_verifyFjallCopy archived rfl still
  · exact fun e process' taken => .failed (still _) fun h => taken (free h)
  · dsimp only
    rw [Program.ensures_bind, ensures_writeReport]
    refine ⟨fun taken => .failed (still _) fun h => (free h).next.next.notMem rfl le_rfl taken, fun _ => ?_⟩
    refine ⟨still _, .restored temporaries archived imported pinned (.inr rfl), ?_⟩
    dsimp only
    rw [Program.ensures_pure]
    exact .done archived imported pinned

omit [Manifests] in
theorem restoreBackup_rollsBack (archived : Archived original archive inventory)
    (imported : Imported original database) (pinned : Pinned original database)
    (free : clear → process.Free temporaries) :
    (restoreBackup ⟨archiveVersion, .rollbackNativeMoved, inventory, some database.token⟩).Ensures
      (Standing original) (fun result disk _ => RollsBack original clear result disk)
      ⟨none, none, some (.fjall original), some (.native database), some archive,
        some ⟨archiveVersion, .rollbackNativeMoved, inventory, some database.token⟩, temporaries⟩ process := by
  have before := fun names => Standing.retired names archived imported pinned
    (.inr (.inr rfl))
  have after := fun names => Standing.restored names archived imported pinned (.inl rfl)
  obtain ⟨sequence, read⟩ := sequence_of_pinned pinned
  rw [restoreBackup, Program.ensures_bind]
  apply ensures_verifyFjallCopy archived rfl before
  · exact fun e process' taken => .failed (before _) fun h => taken (free h)
  · dsimp only
    rw [Program.ensures_bind, ensures_rename rfl rfl]
    refine ⟨after _, ?_⟩
    dsimp only [Disk.set]
    rw [Program.ensures_bind, openStore, Program.ensures_look_bind]
    dsimp only [Disk.get]
    rw [Program.ensures_pure]
    dsimp only
    rw [Program.ensures_bind, Program.ensures_lift, read]
    dsimp only
    rw [Program.ensures_bind, ensures_writeReport]
    refine ⟨fun taken => .failed (after _) fun h => (free h).next.next.notMem rfl le_rfl taken, fun _ => ?_⟩
    refine ⟨after _, .restored temporaries archived imported pinned (.inr rfl), ?_⟩
    dsimp only
    rw [Program.ensures_pure]
    exact .done archived imported pinned

omit [Manifests] in
/-- The rollback of a native store that has accepted nothing of its own. -/
theorem retireNative_rollsBack (archived : Archived original archive inventory)
    (imported : Imported original database) (pinned : Pinned original database)
    (known : phase = .cutover ∨ phase = .complete) (free : clear → process.Free temporaries) :
    (retireNative ⟨archiveVersion, phase, inventory, some database.token⟩).Ensures
      (Standing original) (fun result disk _ => RollsBack original clear result disk)
      ⟨some (.native database), none, some (.fjall original), none, some archive,
        some ⟨archiveVersion, phase, inventory, some database.token⟩, temporaries⟩ process := by
  have before := fun names => Standing.forward (.cutover names archived imported pinned known)
  have after := fun names => Standing.retired names archived imported pinned
    (known.elim .inl fun late => .inr (.inl late))
  rw [retireNative, Program.ensures_refuse_bind]
  refine ⟨fun early => absurd known (by simpa using early), fun _ => ?_⟩
  rw [Program.ensures_bind, ensures_verifyVisibleNative rfl]
  refine ⟨fun diverged => absurd rfl diverged, fun _ => ?_⟩
  dsimp only
  rw [Program.ensures_bind]
  apply ensures_verifyFjallCopy archived rfl before
  · exact fun e process' taken => .failed (before _) fun h => taken (free h)
  · dsimp only
    rw [Program.ensures_look_bind, Program.ensures_refuse_bind]
    refine ⟨fun present => by simp at present, fun _ => ?_⟩
    rw [Program.ensures_bind, ensures_rename rfl rfl]
    refine ⟨after _, ?_⟩
    dsimp only [Disk.set]
    rw [Program.ensures_bind, ensures_writeReport]
    refine ⟨fun taken => .failed (after _) fun h => (free h).next.next.notMem rfl le_rfl taken, fun _ => ?_⟩
    refine ⟨after _, .retired temporaries archived imported pinned (.inr (.inr rfl)), ?_⟩
    exact restoreBackup_rollsBack archived imported pinned fun h => (free h).next.next.next

omit [Manifests] [Serde SnapshotHandle] in
theorem MigrationPhase.cutover_le {phase : MigrationPhase} : MigrationPhase.cutover.rank ≤ phase.rank ↔
    phase = .cutover ∨ phase = .complete ∨ phase = .rollbackNativeMoved ∨ phase = .rolledBack := by
  cases phase <;> simp [rank]

/-- A disk on which a rollback has something to undo: the native store was put in its place, and if it
is there still it has accepted nothing since. -/
def Retirable (disk : Disk) : Prop :=
  ∃ report, disk.marker = some report ∧ MigrationPhase.cutover.rank ≤ report.phase.rank ∧
    ∀ database, disk.source = some (.native database) → report.nativeState = some database.token

section

variable {report : MigrationReport} {post : Except Error MigrationReport → Disk → Process → Prop}

omit [Manifests] [Serde SnapshotHandle] in
/-- A rollback that finds a marker of this version looks at its phase. -/
theorem ensures_rollback_marked (marked : disk.marker = some report)
    (version : report.contractVersion = archiveVersion) (standing : report.phase ≠ .rolledBack) :
    rollbackFjallMigration.Ensures crash post disk process ↔
      (recognizeRetired report >>= fun report => do
        let disk ← Program.look
        if (report.phase = .cutover ∨ report.phase = .complete) ∧ Restored disk then confirmRestored report
        else if report.phase = .rollbackNativeMoved then continueRollback report
        else retireNative report).Ensures crash post disk process := by
  rw [rollbackFjallMigration, Program.ensures_look_bind, marked]
  dsimp only
  rw [rebaseReport, Program.ensures_refuse_bind]
  simp only [version, ne_eq, not_true_eq_false, false_imp_iff, true_and, not_false_eq_true, true_imp_iff,
    if_neg standing]

omit [Manifests] [Serde SnapshotHandle] in
theorem ensures_recognizeRetired_settled (settled : ¬ ((report.phase = .cutover ∨ report.phase = .complete) ∧
      disk.source.isNone ∧ disk.retired.isSome ∧ disk.backup.isSome)) :
    (recognizeRetired report).Ensures crash post disk process ↔ post (.ok report) disk process := by
  rw [recognizeRetired, Program.ensures_look_bind, if_neg settled, Program.ensures_pure]

omit [Manifests] [Serde SnapshotHandle] in
/-- Before the cutover nothing is rolled back. -/
theorem ensures_rollback_early (marked : disk.marker = some report)
    (version : report.contractVersion = archiveVersion)
    (early : report.phase.rank < MigrationPhase.cutover.rank)
    (refused : ∀ e, post (.error e) disk process) :
    rollbackFjallMigration.Ensures crash post disk process := by
  have neither : ¬ (report.phase = .cutover ∨ report.phase = .complete) := by
    rintro (late | late)
    · rw [late] at early
      exact absurd early (by decide)
    · rw [late] at early
      exact absurd early (by decide)
  have moved : report.phase ≠ .rollbackNativeMoved := by
    intro late
    rw [late] at early
    exact absurd early (by decide)
  have rolled : report.phase ≠ .rolledBack := by
    intro late
    rw [late] at early
    exact absurd early (by decide)
  rw [ensures_rollback_marked marked version rolled, Program.ensures_bind,
    ensures_recognizeRetired_settled fun late => neither late.1]
  dsimp only
  rw [Program.ensures_look_bind, if_neg (fun late => neither late.1), if_neg moved, retireNative,
    Program.ensures_refuse_bind]
  exact ⟨fun _ => refused _, fun late => absurd (by tauto) neither⟩

end

omit [Manifests] [Serde SnapshotHandle] in
theorem not_retirable_of_unmarked (unmarked : disk.marker = none) : ¬ Retirable disk := by
  rintro ⟨report, marked, -⟩
  cases unmarked.symm.trans marked

omit [Manifests] [Serde SnapshotHandle] in
theorem not_retirable_of_early {report : MigrationReport} (marked : disk.marker = some report)
    (early : report.phase.rank < MigrationPhase.cutover.rank) : ¬ Retirable disk := by
  rintro ⟨report', marked', late, -⟩
  cases marked.symm.trans marked'
  omega

omit [Manifests] [Serde SnapshotHandle] in
/-- A native store that has accepted more than the import is not at the state of the marker. -/
theorem token_ne_of_accepted {serving : NativeDirectory} {more : List Kv.Mutation}
    (accepted : serving.operations = database.operations ++ more) (some_ : more ≠ []) :
    serving.token ≠ database.token := by
  intro same
  have lengths : serving.operations.length = database.operations.length := congrArg NativeStateToken.sequence same
  rw [accepted, List.length_append] at lengths
  exact some_ (List.eq_nil_of_length_eq_zero (by omega))

omit [Manifests] in
/-- A rollback of any disk that stands. -/
theorem rollback_rollsBack (standing : Standing original disk) (free : clear → process.Free disk.temporaries)
    (retirable : clear → Retirable disk) :
    rollbackFjallMigration.Ensures (Standing original)
      (fun result after _ => RollsBack original clear result after ∧
        (¬ Retirable disk → after = disk ∧ ∃ e, result = .error e)) disk process := by
  have refuse : ∀ e : Error, ¬ Retirable disk → RollsBack original clear (.error e) disk ∧
      (¬ Retirable disk → disk = disk ∧ ∃ e', (.error e : Except Error MigrationReport) = .error e') :=
    fun e not_ => ⟨.failed standing fun h => not_ (retirable h), fun _ => ⟨rfl, e, rfl⟩⟩
  have undone : ∀ {program : Migrating MigrationReport} {disk' : Disk} {process' : Process}, Retirable disk →
      program.Ensures (Standing original) (fun result after _ => RollsBack original clear result after)
        disk' process' →
      program.Ensures (Standing original)
        (fun result after _ => RollsBack original clear result after ∧
          (¬ Retirable disk → after = disk ∧ ∃ e, result = .error e)) disk' process' :=
    fun can rolls => rolls.mono (fun _ crashed => crashed) fun _ _ _ back => ⟨back, fun not_ => absurd can not_⟩
  cases standing with
  | forward forward =>
    cases forward with
    | fresh | unmarked =>
      rw [rollbackFjallMigration, Program.ensures_look_bind]
      dsimp only
      rw [Program.ensures_fail]
      exact refuse _ (not_retirable_of_unmarked rfl)
    | exported | imported | verified =>
      exact ensures_rollback_early rfl rfl (by simp [MigrationPhase.rank]) fun e => refuse e
        (not_retirable_of_early rfl (by simp [MigrationPhase.rank]))
    | @moved _ _ _ phase _ _ _ _ _ known =>
      have early : phase.rank < MigrationPhase.cutover.rank := by
        rcases known with rfl | rfl
        · decide
        · decide
      exact ensures_rollback_early rfl rfl early fun e => refuse e (not_retirable_of_early rfl early)
    | visible =>
      exact ensures_rollback_early rfl rfl (by simp [MigrationPhase.rank]) fun e => refuse e
        (not_retirable_of_early rfl (by simp [MigrationPhase.rank]))
    | @cutover archive inventory database phase temporaries archived imported pinned known =>
      have can : Retirable ⟨some (.native database), none, some (.fjall original), none, some archive,
          some ⟨archiveVersion, phase, inventory, some database.token⟩, temporaries⟩ := by
        refine ⟨_, rfl, MigrationPhase.cutover_le.mpr (known.elim .inl fun late => .inr (.inl late)), ?_⟩
        intro _ same
        cases same
        rfl
      have standing : phase ≠ .rolledBack := by
        rcases known with rfl | rfl
        · decide
        · decide
      have moved : phase ≠ .rollbackNativeMoved := by
        rcases known with rfl | rfl
        · decide
        · decide
      rw [ensures_rollback_marked rfl rfl standing, Program.ensures_bind,
        ensures_recognizeRetired_settled (by simp)]
      dsimp only
      rw [Program.ensures_look_bind, if_neg (by simp [Restored, hasCurrent]), if_neg moved]
      exact undone can (retireNative_rollsBack archived imported pinned known free)
  | written temporaries archived imported pinned accepted some_ =>
    have different := token_ne_of_accepted accepted some_
    rw [ensures_rollback_marked rfl rfl (by simp), Program.ensures_bind,
      ensures_recognizeRetired_settled (by simp)]
    dsimp only
    rw [Program.ensures_look_bind, if_neg (by simp [Restored, hasCurrent]), if_neg (by simp), retireNative,
      Program.ensures_refuse_bind]
    refine ⟨fun early => by simp at early, fun _ => ?_⟩
    rw [Program.ensures_bind, ensures_verifyVisibleNative rfl]
    refine ⟨fun _ => refuse _ ?_, fun same => absurd same different⟩
    rintro ⟨report, marked, -, at_⟩
    cases marked
    exact different (Option.some.inj (at_ _ rfl)).symm
  | @retired archive inventory database phase temporaries archived imported pinned known =>
    have can : Retirable ⟨none, none, some (.fjall original), some (.native database), some archive,
        some ⟨archiveVersion, phase, inventory, some database.token⟩, temporaries⟩ := by
      refine ⟨_, rfl, MigrationPhase.cutover_le.mpr ?_, fun _ present => by cases present⟩
      exact known.imp id (.imp id .inl)
    have continued : ∀ {process' : Process}, (clear → process'.Free temporaries) →
        (continueRollback ⟨archiveVersion, .rollbackNativeMoved, inventory, some database.token⟩).Ensures
          (Standing original) (fun result disk _ => RollsBack original clear result disk)
          ⟨none, none, some (.fjall original), some (.native database), some archive,
            some ⟨archiveVersion, .rollbackNativeMoved, inventory, some database.token⟩, temporaries⟩ process' := by
      intro process' free'
      rw [continueRollback, Program.ensures_look_bind, if_neg (by simp [Restored]), Program.ensures_refuse_bind]
      refine ⟨fun ambiguous => by simp at ambiguous, fun _ => ?_⟩
      exact restoreBackup_rollsBack archived imported pinned free'
    have before := fun names => Standing.retired names archived imported pinned known
    by_cases moved : phase = .rollbackNativeMoved
    · subst moved
      rw [ensures_rollback_marked rfl rfl (by simp), Program.ensures_bind,
        ensures_recognizeRetired_settled (by simp)]
      dsimp only
      rw [Program.ensures_look_bind, if_neg (by simp), if_pos rfl]
      exact undone can (continued free)
    · -- the native store was renamed, and the marker does not say so
      have late : phase = .cutover ∨ phase = .complete := by tauto
      have standing : phase ≠ .rolledBack := by
        rcases late with rfl | rfl
        · decide
        · decide
      rw [ensures_rollback_marked rfl rfl standing, Program.ensures_bind, recognizeRetired,
        Program.ensures_look_bind, if_pos ⟨late, by simp⟩, Program.ensures_bind, ensures_writeReport]
      refine ⟨fun taken => ⟨.failed (before _) fun h => (free h).notMem rfl le_rfl taken,
        fun not_ => absurd can not_⟩, fun _ => ?_⟩
      refine ⟨before _, .retired temporaries archived imported pinned (.inr (.inr rfl)), ?_⟩
      dsimp only
      rw [Program.ensures_pure]
      dsimp only
      rw [Program.ensures_look_bind, if_neg (by simp), if_pos rfl]
      exact undone can (continued fun h => (free h).next)
  | @restored archive inventory database phase temporaries archived imported pinned known =>
    have can : Retirable ⟨some (.fjall original), none, none, some (.native database), some archive,
        some ⟨archiveVersion, phase, inventory, some database.token⟩, temporaries⟩ := by
      exact ⟨_, rfl, MigrationPhase.cutover_le.mpr (.inr (.inr known)), fun _ present => by cases present⟩
    rcases known with rfl | rfl
    · rw [ensures_rollback_marked rfl rfl (by simp), Program.ensures_bind,
        ensures_recognizeRetired_settled (by simp)]
      dsimp only
      rw [Program.ensures_look_bind, if_neg (by simp), if_pos rfl, continueRollback, Program.ensures_look_bind,
        if_pos (by simp [Restored, hasCurrent])]
      exact undone can (confirmRestored_rollsBack archived imported pinned free)
    · rw [rollbackFjallMigration, Program.ensures_look_bind]
      dsimp only
      rw [rebaseReport, Program.ensures_refuse_bind]
      refine ⟨fun other => absurd rfl other, fun _ => ?_⟩
      rw [if_pos rfl, Program.ensures_pure]
      exact ⟨.done archived imported pinned, fun not_ => absurd can not_⟩

/-! ## The migration after rollbacks -/

omit [Manifests] [Serde SnapshotHandle] in
/-- A native database whose history begins with a copy of the store, in which every record stands under
the name of its keyspace and nothing else does. What follows it has accepted itself. -/
def Serves (original : FjallDirectory) (serving : NativeDirectory) : Prop :=
  ∃ copied more, serving.operations = copied ++ more ∧ ∀ key value,
    (Rows.ofHistory copied)[key]? = some value ↔
      ∃ space k, key = storageKey space k ∧ original.store.get space k = some value

/-- What a migration of any standing disk comes to. -/
structure Migrates (original : FjallDirectory) (clear : Prop) (result : Except Error MigrationReport)
    (disk : Disk) : Prop where
  standing : Standing original disk
  completed : ∀ report, result = .ok report → report.phase = .complete ∧ disk.marker = some report ∧
    disk.backup = some (.fjall original) ∧ ∃ serving, disk.source = some (.native serving) ∧
      Serves original serving
  clears : clear → ∃ report, result = .ok report

omit [Manifests] in
theorem Migrates.failed {e : Error} (standing : Standing original disk) (blocked : ¬ clear) :
    Migrates original clear (.error e) disk :=
  ⟨standing, by simp, fun h => absurd h blocked⟩

omit [Manifests] in
/-- Where the source of a migration is native, the store is in the backup. -/
theorem Forward.backup_of_native (forward : Forward original disk) (here : disk.source = some (.native database)) :
    disk.backup = some (.fjall original) := by
  cases forward
  case fresh | unmarked | exported | imported | verified | moved => cases here
  case visible | cutover => rfl

omit [Manifests] in
/-- Nothing was written to the native store when its migration completed. -/
theorem Forward.retirable {report : MigrationReport} (forward : Forward original disk)
    (marked : disk.marker = some report) (complete : report.phase = .complete) : Retirable disk := by
  cases forward
  case fresh | unmarked => cases marked
  case exported | imported | verified | visible =>
    cases marked
    cases complete
  case moved known =>
    cases marked
    cases complete
    simp at known
  case cutover =>
    cases marked
    cases complete
    refine ⟨_, rfl, MigrationPhase.cutover_le.mpr (.inr (.inl rfl)), ?_⟩
    intro _ same
    cases same
    rfl

omit [Manifests] in
theorem Advances.migrates {result : Except Error MigrationReport} (advances : Advances original clear result disk) :
    Migrates original clear result disk := by
  refine ⟨.forward advances.forward, ?_, advances.clears⟩
  intro report ok
  obtain ⟨complete, marked, done⟩ := advances.completed report ok
  obtain ⟨database, here, imported, -⟩ := done.native
  refine ⟨complete, marked, advances.forward.backup_of_native here, database, here, database.operations, [], ?_, ?_⟩
  · rw [List.append_nil]
  · rw [imported.operations]
    exact getElem?_nativeRows original.store

/-- A migration of any disk that stands. -/
theorem migrateInner_migrates {fault : Option MigrationFault} {at_ : Nat} (standing : Standing original disk)
    (clears : clear → Clear original fault disk process) (kept : clear → disk.retired = none) :
    (migrateInner fault at_).Ensures (Standing original) (fun result after _ => Migrates original clear result after)
      disk process := by
  cases standing with
  | forward forward =>
    exact (migrateInner_advances forward clears).mono (fun _ => .forward) fun _ _ _ advances => advances.migrates
  | @written _ _ database serving more temporaries archived imported pinned accepted some_ =>
    have still := Standing.written temporaries archived imported pinned accepted some_
    rw [ensures_migrateInner_marked rfl rfl (by simp), Program.ensures_bind,
      ensures_reconcile_settled (.inr (by simp [MigrationPhase.rank])) (.inl rfl)]
    show (onComplete _).Ensures _ _ _ _
    rw [onComplete, Program.ensures_look_bind, Program.ensures_refuse_bind, Program.ensures_pure]
    refine ⟨fun missing => by simp [hasCurrent] at missing, fun _ => ⟨still, ?_, fun _ => ⟨_, rfl⟩⟩⟩
    intro report same
    cases same
    refine ⟨rfl, rfl, rfl, serving, rfl, database.operations, more, accepted, ?_⟩
    rw [imported.operations]
    exact getElem?_nativeRows original.store
  | retired temporaries archived imported pinned known =>
    have still := Standing.retired temporaries archived imported pinned known
    have blocked : ¬ clear := fun h => by simpa using kept h
    rcases known with rfl | rfl | rfl
    · rw [ensures_migrateInner_marked rfl rfl (by simp), Program.ensures_bind,
        ensures_reconcile_settled (.inl rfl) (.inr (by simp [MigrationPhase.rank]))]
      show (onCutover _).Ensures _ _ _ _
      rw [onCutover, Program.ensures_bind, verifyVisibleNative, Program.ensures_look_bind,
        Program.ensures_refuse_bind]
      exact ⟨fun _ => .failed still blocked, fun current => absurd (by simp [hasCurrent]) current⟩
    · rw [ensures_migrateInner_marked rfl rfl (by simp), Program.ensures_bind,
        ensures_reconcile_settled (.inl rfl) (.inr (by simp [MigrationPhase.rank]))]
      show (onComplete _).Ensures _ _ _ _
      rw [onComplete, Program.ensures_look_bind, Program.ensures_refuse_bind]
      exact ⟨fun _ => .failed still blocked, fun current => absurd (by simp [hasCurrent]) current⟩
    · rw [ensures_migrateInner_marked rfl rfl (by simp), Program.ensures_bind,
        ensures_reconcile_settled (.inl rfl) (.inr (by simp [MigrationPhase.rank]))]
      exact Program.ensures_fail.mpr (.failed still blocked)
  | restored temporaries archived imported pinned known =>
    have still := Standing.restored temporaries archived imported pinned known
    have blocked : ¬ clear := fun h => by simpa using kept h
    rcases known with rfl | rfl
    · rw [ensures_migrateInner_marked rfl rfl (by simp), Program.ensures_bind,
        ensures_reconcile_settled (.inl rfl) (.inl rfl)]
      exact Program.ensures_fail.mpr (.failed still blocked)
    · rw [migrateInner, Program.ensures_look_bind]
      dsimp only
      rw [rebaseReport, Program.ensures_refuse_bind]
      refine ⟨fun other => absurd rfl other, fun _ => ?_⟩
      rw [Program.ensures_pure_bind, Program.ensures_refuse_bind]
      exact ⟨fun _ => .failed still blocked, fun standing => absurd rfl standing⟩

end Arms

/-! ## Runs -/

/-- What can come next: a run of the migration or of the rollback, to its end or to a crash, or work of
the native store that a completed migration has put in use. -/
inductive Step : Disk → Disk → Prop
  | migrate {before after : Disk} (fault : Option MigrationFault) (at_ : Nat)
    (stopped : (migrateInner fault at_).Stopped before after) : Step before after
  | rollback {before after : Disk} (stopped : rollbackFjallMigration.Stopped before after) : Step before after
  | write {before : Disk} {report : MigrationReport} {database next : NativeDirectory} {batch : Kv.WriteBatch}
    (marked : before.marker = some report) (complete : report.phase = .complete)
    (here : before.source = some (.native database)) (accepted : database.writeOwned batch = .ok next) :
    Step before { before with source := some (.native next) }
  | flush {before : Disk} {report : MigrationReport} {database : NativeDirectory} (at_ : Nat)
    (marked : before.marker = some report) (complete : report.phase = .complete)
    (here : before.source = some (.native database)) :
    Step before { before with source := some (.native (database.flushMemtable at_)) }

omit [Manifests] [Serde SnapshotHandle] in
theorem operations_of_writeOwned {database next : NativeDirectory} {batch : Kv.WriteBatch}
    (accepted : database.writeOwned batch = .ok next) :
    next.operations = database.operations ++ batch.operations ∧ batch.operations ≠ [] := by
  unfold NativeDirectory.writeOwned at accepted
  cases encoded : batch.encode with
  | error e =>
    rw [encoded] at accepted
    cases accepted
  | ok bytes =>
    rw [encoded] at accepted
    cases accepted
    exact ⟨rfl, (Kv.WriteBatch.validate_ok.mp (Kv.WriteBatch.encode_ok encoded).1).1.1⟩

omit [Serde SnapshotHandle] in
theorem operations_flushMemtable (database : NativeDirectory) (at_ : Nat) :
    (database.flushMemtable at_).operations = database.operations := by
  rw [NativeDirectory.flushMemtable]
  split <;> rfl

theorem Standing.step {after : Disk} (standing : Standing original disk) (step : Step disk after) :
    Standing original after := by
  cases step with
  | migrate fault at_ stopped =>
    have keeps : (migrateInner fault at_).Keeps (Standing original) := by
      intro durable volatile stands
      have migrates := @migrateInner_migrates _ _ _ volatile durable False fault at_ stands nofun nofun
      exact migrates.mono (fun _ => id) fun _ _ _ after => after.standing
    exact keeps.stopped standing stopped
  | rollback stopped =>
    have keeps : rollbackFjallMigration.Keeps (Standing original) := by
      intro durable volatile stands
      have back := @rollback_rollsBack _ _ volatile durable False stands nofun nofun
      exact back.mono (fun _ => id) fun _ _ _ after => after.1.standing
    exact keeps.stopped standing stopped
  | write marked complete here accepted =>
    obtain ⟨operations, some_⟩ := operations_of_writeOwned accepted
    cases standing with
    | forward forward =>
      cases forward
      case fresh | unmarked | exported | imported | verified | moved => cases here
      case visible => cases marked; cases complete
      case cutover archived imported pinned known =>
        cases marked
        cases here
        cases complete
        exact .written _ archived imported pinned operations some_
    | written temporaries archived imported pinned accepted' some_' =>
      cases here
      rw [accepted', List.append_assoc] at operations
      exact .written temporaries archived imported pinned operations (by simp [some_])
    | retired => cases here
    | restored => cases here
  | flush at_ marked complete here =>
    cases standing with
    | forward forward =>
      cases forward
      case fresh | unmarked | exported | imported | verified | moved => cases here
      case visible => cases marked; cases complete
      case cutover archived imported pinned known =>
        cases here
        rw [NativeDirectory.flushMemtable, if_pos imported.durable]
        exact .forward (.cutover _ archived imported pinned known)
    | written temporaries archived imported pinned accepted some_ =>
      cases here
      exact .written temporaries archived imported pinned ((operations_flushMemtable _ _).trans accepted) some_
    | retired => cases here
    | restored => cases here

theorem standing_of_run (run : Relation.ReflTransGen Step (Disk.fresh original) disk) : Standing original disk := by
  induction run with
  | refl => exact .forward (.fresh [])
  | tail _ step ih => exact ih.step step

end Rollback

/-! ## An empty store -/

def emptyStore : FjallDirectory := ⟨⟨fun _ => ∅⟩, []⟩

@[reducible] def numberedManifests : Manifests := ⟨fun _ at_ operations => s!"{at_}-{operations.length}"⟩

@[reducible] def noLeases : Serde SnapshotHandle := .ofTexts (fun handle => handle.id.asStr) []

theorem archiveRows_emptyStore : archiveRows emptyStore.store = [] := by
  simp [archiveRows, emptyStore]

theorem ready_emptyStore : @Ready noLeases emptyStore := by
  let _ := noLeases
  have rows : nativeRows emptyStore.store = ∅ := by
    rw [nativeRows, archiveRows_emptyStore]
    rfl
  refine ⟨⟨rfl, ?_, ?_⟩, ?_, ?_, ?_⟩
  · simp [archiveRows_emptyStore]
  · rw [archiveRows_emptyStore]
    exact Totals.bounded_zero
  · simp [archiveRows_emptyStore]
  · rw [rows]
    exact ⟨[], by decide +kernel⟩
  · rw [rows]
    exact ⟨0, by decide +kernel⟩

theorem clear_emptyStore : @Clear noLeases emptyStore none (Disk.fresh emptyStore) ⟨1, 0, 0⟩ := by
  let _ := noLeases
  exact ⟨rfl, ready_emptyStore, by simp [Process.Free, Disk.fresh], by simp [Process.PointersFree, Disk.fresh],
    by simp [Disk.fresh]⟩

/-- Some process has an id that no file left by an earlier one names. -/
theorem exists_process_free (temporaries : List Temporary) : ∃ process : Process, process.Free temporaries := by
  obtain ⟨pid, fresh⟩ := Infinite.exists_notMem_finset (temporaries.map Temporary.pid).toFinset
  refine ⟨⟨pid, 0, 0⟩, ?_⟩
  intro name member same
  exact absurd (List.mem_toFinset.mpr (List.mem_map.mpr ⟨name, member, same⟩)) fresh

end Vyrm.Store.Migration
