import Vyrm.Store.Migration.Import

/-!
# Resuming a migration

A run of the migration, started on any disk that earlier runs can have left, passes
through such disks only, and with no reason to fail it completes. Between the rename of
the archive and the first marker a crash leaves a disk on which no later run begins.
-/

namespace Vyrm.Store.Migration
open Lib Lib.Crash Vyrm.Core Serde

section Resume

variable [Manifests] [Serde SnapshotHandle] {original : FjallDirectory} {archive : Bytes}
  {inventory : MigrationInventory} {token : Option NativeStateToken} {temporaries : List Temporary}
  {process : Process} {fault : Option MigrationFault} {clear : Prop}

omit [Manifests] in
/-- A store that the native engine can take over: its rows fit the archive and the keys of `vyrm-kv`,
its leases and its sequence are readable. -/
structure Ready (original : FjallDirectory) : Prop where
  exportable : Exportable original
  importable : ∀ row ∈ archiveRows original.store, row.operation.key.length ≤ Kv.maxKeyBytes
  leases : ∃ desired, desiredCheckpoints (nativeRows original.store) = .ok desired
  sequence : ∃ sequence, (nativeRows original.store).view.readSequence .sequenceWatermark = .ok sequence

omit [Manifests] [Serde SnapshotHandle] in
/-- No temporary file of the staged database has a name that the process would give. -/
def Process.PointersFree (process : Process) (staging : Option Directory) : Prop :=
  ∀ database, staging = some (.native database) → ∀ name ∈ database.temporaries, name.2 < process.pointerId

omit [Manifests] in
theorem Ready.opens {database : NativeDirectory} (ready : Ready original)
    (free : ∀ name ∈ database.temporaries, name.2 < process.pointerId) : Opens original process database := by
  obtain ⟨desired, listed⟩ := ready.leases
  obtain ⟨sequence, read⟩ := ready.sequence
  refine ⟨desired, sequence, listed, ?_, read⟩
  rintro ⟨name, id⟩ member taken
  have := free _ taken
  have := List.le_snd_of_mem_zipIdx member
  omega

/-! ## The first two arms -/

theorem onExported_advances {staging : Option Directory} {at_ : Nat}
    (archived : Archived original archive inventory) (free : clear → process.Free temporaries)
    (faultless : clear → fault = none) (ready : clear → Ready original) :
    (onExported fault at_ ⟨archiveVersion, .exported, inventory, token⟩).Ensures (Forward original)
      (fun result disk _ => Advances original clear result disk)
      (rebuilt original archive ⟨archiveVersion, .exported, inventory, token⟩ temporaries staging) process := by
  rw [onExported]
  apply (@ensures_rebuildStaging _ _ _ _ _ token temporaries process staging at_ archived).bind
  · rintro e disk process' ⟨staging', here, -, -, -, importable⟩
    subst here
    refine .failed (.exported token staging' temporaries archived) fun h => ?_
    have imports := importable (ready h).importable
    cases imports
  · rintro _ disk process' ⟨staging', here, pid, temporaryId, done, -⟩
    obtain ⟨database, rfl, imported, none_⟩ := done rfl
    subst here
    have free' : clear → process'.Free temporaries := by
      intro h name member same
      rw [temporaryId]
      exact free h name member (same.trans pid)
    have before := Forward.exported token (some (.native database)) temporaries archived
    have after := Forward.imported token temporaries archived imported
    dsimp only
    rw [Program.ensures_bind, ensures_writeReport]
    refine ⟨fun taken => .failed before fun h => (free' h).notMem rfl le_rfl taken, fun _ => ?_⟩
    refine ⟨before.temporaries _, after, ?_⟩
    dsimp only
    rw [inject, Program.ensures_refuse_bind]
    refine ⟨fun injected => .failed after fun h => by simp [faultless h] at injected, fun _ => ?_⟩
    apply (onImported_advances archived imported (fun h => (free' h).next) faultless
      fun h => (ready h).opens (by simp [none_])).mono (fun _ crashed => crashed)
    exact fun _ _ _ advances => advances.1

omit [Manifests] in
/-- A migration begins with an export and its first marker. -/
theorem ensures_begin (free : clear → process.Free temporaries) (ready : clear → Ready original) :
    begin_.Ensures (Forward original)
      (fun result disk process' =>
        (∀ e, result = .error e → Forward original disk ∧ ¬ clear) ∧
        ∀ report, result = .ok report → ∃ archive inventory, Archived original archive inventory ∧
          report = ⟨archiveVersion, .exported, inventory, none⟩ ∧
          disk = rebuilt original archive report temporaries none ∧ (clear → process'.Free temporaries))
      ⟨some (.fjall original), none, none, none, none, none, temporaries⟩ process := by
  have fresh : ∀ names, Forward original ⟨some (.fjall original), none, none, none, none, none, names⟩ := .fresh
  rw [begin_, Program.ensures_look_bind, Program.ensures_refuse_bind, Program.ensures_refuse_bind,
    Program.ensures_refuse_bind]
  refine ⟨fun absent => by simp at absent, fun _ => ⟨fun native => by simp [hasCurrent] at native, fun _ =>
    ⟨fun present => by simp at present, fun _ => ?_⟩⟩⟩
  rw [Program.ensures_bind, openStore, Program.ensures_look_bind]
  dsimp only [Disk.get]
  rw [Program.ensures_pure]
  dsimp only
  rw [Program.ensures_bind, exportMigrationArchive, Program.ensures_refuse_bind]
  refine ⟨fun unknown => ⟨fun _ _ => ⟨fresh _, fun h => unknown (ready h).exportable.known⟩, by simp⟩, fun known => ?_⟩
  rw [Program.ensures_look_bind, Program.ensures_refuse_bind]
  refine ⟨fun present => by simp [Target.exists] at present, fun _ => ?_⟩
  rw [Program.ensures_bind, ensures_nextTemporary]
  dsimp only
  rw [Program.ensures_bind, ensures_createNew]
  refine ⟨fun taken => ⟨fun _ _ => ⟨fresh _, fun h => (free h).notMem rfl le_rfl taken⟩, by simp⟩,
    fun _ => ⟨fresh _, ?_⟩⟩
  dsimp only
  rw [Program.ensures_bind, Program.ensures_lift]
  cases recorded : ArchiveWriter.create.recordAll (archiveRows original.store) with
  | error e =>
    refine ⟨fun _ _ => ⟨fresh _, fun h => ?_⟩, by simp⟩
    obtain ⟨writer, ok⟩ := (ready h).exportable.recorded
    rw [recorded] at ok
    cases ok
  | ok writer =>
    have archived : Archived original writer.finish.1 writer.finish.2 := ⟨not_not.mp known, writer, recorded, rfl⟩
    have unmarked := fun names => Forward.unmarked names archived
    dsimp only
    rw [Program.ensures_bind, ensures_change]
    refine ⟨unmarked _, ?_⟩
    dsimp only
    rw [Program.ensures_pure]
    dsimp only [Target.place]
    rw [List.erase_cons_head, Program.ensures_bind, ensures_writeReport]
    refine ⟨fun taken => ⟨fun _ _ => ⟨unmarked _, fun h => (free h).next.notMem rfl le_rfl taken⟩, by simp⟩,
      fun _ => ⟨unmarked _, .exported none none temporaries archived, ?_⟩⟩
    dsimp only
    rw [Program.ensures_pure]
    refine ⟨by simp, ?_⟩
    intro report same
    cases same
    exact ⟨_, _, archived, rfl, rfl, fun h => (free h).next.next⟩

/-! ## A whole run -/

/-- The loop of `migrate_inner` (`migration.rs:163-237`), from the phase that a run finds. -/
def migrateFrom (fault : Option MigrationFault) (at_ : Nat) (report : MigrationReport) :
    Migrating MigrationReport :=
  match report.phase with
  | .exported => onExported fault at_ report
  | .imported => onImported fault report
  | .verified => onVerified fault report
  | .sourceMoved => onSourceMoved fault report
  | .cutover => onCutover report
  | .complete => onComplete report
  | .rollbackNativeMoved | .rolledBack => Program.fail (.migration
      "migration is in rollback state; run rollback again to finish recovery")

section

variable {disk : Disk} {report : MigrationReport} {at_ : Nat} {crash : Disk → Prop}
  {post : Except Error MigrationReport → Disk → Process → Prop}

/-- A run that finds a marker of this version goes on from it. -/
theorem ensures_migrateInner_marked (marked : disk.marker = some report)
    (version : report.contractVersion = archiveVersion) (standing : report.phase ≠ .rolledBack) :
    (migrateInner fault at_).Ensures crash post disk process ↔
      (reconcileFilesystem report >>= migrateFrom fault at_).Ensures crash post disk process := by
  rw [migrateInner, Program.ensures_look_bind, marked]
  dsimp only
  rw [rebaseReport, Program.ensures_refuse_bind]
  simp only [version, ne_eq, not_true_eq_false, false_imp_iff, true_and, not_false_eq_true, true_imp_iff,
    Program.ensures_pure_bind, Program.ensures_refuse_bind, standing]
  rfl

/-- A run that finds no marker begins. -/
theorem ensures_migrateInner_unmarked (unmarked : disk.marker = none) :
    (migrateInner fault at_).Ensures crash post disk process ↔
      (begin_ >>= fun report => do
        inject fault .afterExport
        Program.refuse (report.phase = .rolledBack) (.migration
          "migration was rolled back; retain the evidence and start a new migration explicitly")
        reconcileFilesystem report >>= migrateFrom fault at_).Ensures crash post disk process := by
  rw [migrateInner, Program.ensures_look_bind, unmarked]
  dsimp only
  simp only [Program.ensures_bind, Program.ensures_pure]
  rfl

omit [Manifests] [Serde SnapshotHandle] in
/-- The file system has nothing to say against a marker. -/
theorem ensures_reconcile_settled
    (native : hasCurrent disk.source = false ∨ MigrationPhase.sourceMoved.rank < report.phase.rank)
    (present : disk.source.isSome ∨ MigrationPhase.verified.rank < report.phase.rank) :
    (reconcileFilesystem report).Ensures crash post disk process ↔ post (.ok report) disk process := by
  have first : ¬ (report.phase.rank ≤ MigrationPhase.verified.rank ∧ hasCurrent disk.source = true) := by
    rintro ⟨early, current⟩
    rcases native with fjall | late
    · rw [current] at fjall
      cases fjall
    · exact absurd (Nat.lt_of_lt_of_le late early) (by decide)
  have second : ¬ (report.phase.rank ≤ MigrationPhase.verified.rank ∧ disk.source.isNone ∧ disk.backup.isSome ∧
      disk.staging.isSome) := by
    rintro ⟨early, absent, -⟩
    rcases present with here | late
    · rw [Option.isNone_iff_eq_none] at absent
      rw [absent] at here
      cases here
    · omega
  have third : ¬ (report.phase = .sourceMoved ∧ hasCurrent disk.source = true) := by
    rintro ⟨moved, current⟩
    rcases native with fjall | late
    · rw [current] at fjall
      cases fjall
    · rw [moved] at late
      exact absurd late (lt_irrefl _)
  rw [reconcileFilesystem, Program.ensures_look_bind]
  dsimp only
  rw [if_neg first, if_neg second, if_neg third, Program.ensures_pure]

end

omit [Manifests] in
/-- Nothing stands in the way of a run: no fault is injected, the store can be taken over, no earlier
crash left a file with a name that the process gives, and none came between the archive and the first
marker. -/
structure Clear (original : FjallDirectory) (fault : Option MigrationFault) (disk : Disk)
    (process : Process) : Prop where
  faultless : fault = none
  ready : Ready original
  free : process.Free disk.temporaries
  pointers : process.PointersFree disk.staging
  marked : disk.archive.isSome → disk.marker.isSome

/-- A run on any disk that a migration leaves. -/
theorem migrateInner_advances {disk : Disk} {at_ : Nat} (forward : Forward original disk)
    (clears : clear → Clear original fault disk process) :
    (migrateInner fault at_).Ensures (Forward original) (fun result after _ => Advances original clear result after)
      disk process := by
  have faultless := fun h => (clears h).faultless
  have ready := fun h => (clears h).ready
  have free := fun h => (clears h).free
  have pointers := fun h => (clears h).pointers
  have marked := fun h => (clears h).marked
  clear clears
  cases forward with
  | fresh temporaries =>
    rw [ensures_migrateInner_unmarked rfl]
    apply (ensures_begin free ready).bind
    · intro e after _ failed
      exact .failed (failed.1 e rfl).1 (failed.1 e rfl).2
    · intro report after process' begun
      obtain ⟨archive, inventory, archived, rfl, rfl, free'⟩ := begun.2 report rfl
      rw [inject, Program.ensures_refuse_bind]
      refine ⟨fun injected => ?_, fun _ => ?_⟩
      · exact .failed (.exported none none _ archived) fun h => by simp [faultless h] at injected
      rw [Program.ensures_refuse_bind]
      refine ⟨fun missing => (by cases missing), fun _ => ?_⟩
      rw [Program.ensures_bind, ensures_reconcile_settled (.inl rfl) (.inl rfl)]
      exact onExported_advances archived free' faultless ready
  | unmarked temporaries archived =>
    rw [ensures_migrateInner_unmarked rfl, Program.ensures_bind, begin_, Program.ensures_look_bind,
      Program.ensures_refuse_bind, Program.ensures_refuse_bind, Program.ensures_refuse_bind]
    refine ⟨fun absent => by simp at absent, fun _ => ⟨fun native => by simp [hasCurrent] at native, fun _ => ⟨?_, ?_⟩⟩⟩
    · exact fun _ => .failed (.unmarked temporaries archived) fun h => by simpa using marked h rfl
    · exact fun absent => absurd (.inl rfl) absent
  | exported token staging temporaries archived =>
    rw [ensures_migrateInner_marked rfl rfl (by simp), Program.ensures_bind,
      ensures_reconcile_settled (.inl rfl) (.inl rfl)]
    exact onExported_advances archived free faultless ready
  | @imported _ _ database token temporaries archived imported =>
    rw [ensures_migrateInner_marked rfl rfl (by simp), Program.ensures_bind,
      ensures_reconcile_settled (.inl rfl) (.inl rfl)]
    apply (onImported_advances archived imported free faultless
      fun h => (ready h).opens (pointers h database rfl)).mono (fun _ crashed => crashed)
    exact fun _ _ _ advances => advances.1
  | verified token temporaries archived imported pinned =>
    rw [ensures_migrateInner_marked rfl rfl (by simp), Program.ensures_bind,
      ensures_reconcile_settled (.inl rfl) (.inl rfl)]
    exact onVerified_advances archived imported pinned free faultless
  | moved token temporaries archived imported pinned known =>
    rcases known with rfl | rfl
    · -- the source was renamed, and the marker does not say so
      have before := Forward.moved token temporaries archived imported pinned (.inl rfl)
      have after := Forward.moved token temporaries archived imported pinned (.inr rfl)
      rw [ensures_migrateInner_marked rfl rfl (by simp), Program.ensures_bind, reconcileFilesystem,
        Program.ensures_look_bind]
      dsimp only
      rw [if_neg (by simp [hasCurrent]), if_pos (by simp), Program.ensures_bind, ensures_writeReport]
      refine ⟨fun taken => .failed before fun h => (free h).notMem rfl le_rfl taken, fun _ => ?_⟩
      refine ⟨before.temporaries _, after, ?_⟩
      dsimp only
      rw [Program.ensures_pure]
      exact onSourceMoved_advances archived imported pinned (fun h => (free h).next) faultless
    · rw [ensures_migrateInner_marked rfl rfl (by simp), Program.ensures_bind,
        ensures_reconcile_settled (.inl rfl) (.inr (by simp [MigrationPhase.rank]))]
      exact onSourceMoved_advances archived imported pinned free faultless
  | visible token temporaries archived imported pinned =>
    have before := Forward.visible token temporaries archived imported pinned
    have after := Forward.cutover temporaries archived imported pinned (.inl rfl)
    rw [ensures_migrateInner_marked rfl rfl (by simp), Program.ensures_bind, reconcileFilesystem,
      Program.ensures_look_bind]
    dsimp only
    rw [if_neg (by simp [MigrationPhase.rank]), if_neg (by simp), if_pos (by simp [hasCurrent]),
      Program.ensures_refuse_bind]
    refine ⟨fun ambiguous => by simp at ambiguous, fun _ => ?_⟩
    rw [Program.ensures_bind, ensures_nativeState rfl]
    dsimp only
    rw [Program.ensures_bind, ensures_writeReport]
    refine ⟨fun taken => .failed before fun h => (free h).notMem rfl le_rfl taken, fun _ => ?_⟩
    refine ⟨before.temporaries _, after, ?_⟩
    dsimp only
    rw [Program.ensures_pure]
    exact onCutover_advances archived imported pinned fun h => (free h).next
  | cutover temporaries archived imported pinned known =>
    rcases known with rfl | rfl
    · rw [ensures_migrateInner_marked rfl rfl (by simp), Program.ensures_bind,
        ensures_reconcile_settled (.inr (by simp [MigrationPhase.rank])) (.inl rfl)]
      exact onCutover_advances archived imported pinned free
    · rw [ensures_migrateInner_marked rfl rfl (by simp), Program.ensures_bind,
        ensures_reconcile_settled (.inr (by simp [MigrationPhase.rank])) (.inl rfl)]
      exact onComplete_advances archived imported pinned

end Resume

end Vyrm.Store.Migration
