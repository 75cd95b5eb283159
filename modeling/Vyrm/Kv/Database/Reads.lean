import Vyrm.Kv.Database.Scenario
import Vyrm.Kv.Reference

/-!
# Reads in every run

A database that a caller holds reads consistently whatever file operations have
failed before: every segment it searches was opened and checked, the manifest in
use bounds them all, and the memtable holds operations numbered from the one
after the durable sequence. Here a run is under no policy at all, and opening
starts from whatever the failures have left in the directory.
-/

namespace Vyrm.Kv
open Lib Lib.FaultFs Mvcc

variable [Platform]

/-- What holds of a database in use without looking at its directory. -/
structure Database.Steady (db : Database) : Prop where
  bounded : ∀ s ∈ db.manifest.segments, s.maximumSequence ≤ db.manifest.durableSequence
  holds : ∀ segment ∈ db.segments, ∃ entries, segment.Holds entries
  named : ∀ segment ∈ db.segments, segment.descriptor ∈ db.manifest.segments
  memtable : ∃ operations, (∀ m ∈ operations, m.key ≠ []) ∧
    db.memtable = .holding db.manifest.durableSequence operations

theorem Database.Steady.sound {db : Database} (steady : db.Steady) : db.Sound := by
  obtain ⟨operations, keys, same⟩ := steady.memtable
  refine ⟨⟨steady.holds, fun segment member => steady.bounded _ (steady.named segment member)⟩, ?_⟩
  rw [same]
  exact Memtable.over_holding _ keys

/-- A database with an empty memtable over the segments of a manifest. -/
theorem steady_of_manifest {db : Database} (valid : db.manifest.Valid)
    (holds : ∀ segment ∈ db.segments, ∃ entries, segment.Holds entries)
    (named : ∀ segment ∈ db.segments, segment.descriptor ∈ db.manifest.segments)
    (empty : db.memtable = .atSequence db.manifest.durableSequence) : db.Steady :=
  ⟨valid.bounded, holds, named, [], by simp, empty⟩

/-! ## The memtable -/

omit [Platform] in
/-- A batch that the memtable takes is numbered right after its operations. -/
theorem Memtable.applyWriteBatch_ok {durable first last : Nat} {operations : List Mutation}
    {batch : WriteBatch} {table : Memtable} (nonempty : batch.operations ≠ [])
    (room : last < u64Max)
    (applied : (holding durable operations).applyWriteBatch batch first last = .ok table) :
    table = holding durable (operations ++ batch.operations) := by
  have some_ := List.length_pos_iff.mpr nonempty
  simp only [applyWriteBatch, except_bind_ok, checkedAdd_ok, rejectIf_ok, not_or, not_not] at applied
  obtain ⟨expected, ⟨-, rfl⟩, _, ⟨follows, rfl⟩, same⟩ := applied
  have unsaturated : durable + operations.length < u64Max := by
    by_contra full
    have top : saturatingAdd (durable + operations.length) 1 = u64Max := by
      unfold saturatingAdd
      omega
    change first = saturatingAdd (durable + operations.length) 1 at follows
    omega
  change first = saturatingAdd (durable + operations.length) 1 at follows
  rw [saturatingAdd_of_lt unsaturated] at follows
  subst follows
  cases same
  have shift : durable + operations.length + 1 = durable + 1 + operations.length := by omega
  simp only [holding, pushOperations_append, List.length_append, shift, mk.injEq, true_and]
  omega

omit [Platform] in
theorem WriteBatch.decode_valid {bytes : Bytes} {batch : WriteBatch} (h : decode bytes = .ok batch) :
    batch.operations ≠ [] ∧ ∀ m ∈ batch.operations, m.key ≠ [] := by
  simp only [decode, except_bind_ok] at h
  obtain ⟨_, -, _, -, _, -, _, -, _, -, ⟨operations, cursor⟩, -, _, -, made⟩ := h
  simp only [new, except_bind_ok, except_pure, Except.ok.injEq] at made
  obtain ⟨_, valid, rfl⟩ := made
  obtain ⟨⟨nonempty, -⟩, members⟩ := validate_ok.mp valid
  exact ⟨nonempty, fun m member => (mutation_validate_ok.mp (members m member)).1⟩

/-- Every record that recovery returns leaves room for a successor. -/
theorem recoverLoop_room {bytes : Bytes} {fuel offset expected : Nat}
    {batches : List RecoveredBatch} {recovery : Recovery}
    (room : ∀ b ∈ batches, b.lastSequence < u64Max)
    (h : recoverLoop bytes fuel offset expected batches = .ok recovery) :
    ∀ b ∈ recovery.batches, b.lastSequence < u64Max := by
  induction fuel generalizing offset expected batches with
  | zero =>
    cases h
    exact room
  | succ fuel ih =>
    rw [recoverLoop] at h
    split at h
    · dsimp only at h
      split at h
      · cases h
        exact room
      · simp only [except_bind_ok, checkedAdd_ok] at h
        obtain ⟨decoded, -, _, -, stop, -, h⟩ := h
        split at h
        · cases h
          exact room
        · simp only [except_bind_ok, checkedAdd_ok] at h
          obtain ⟨_, -, next, ⟨last, -⟩, h⟩ := h
          apply ih _ h
          intro b member
          rcases List.mem_append.mp member with old | new
          · exact room b old
          · rw [List.mem_singleton.mp new]
            exact last
    · cases h
      exact room

omit [Platform] in
/-- Replaying any recovered records gives a memtable that holds operations. -/
theorem Memtable.applyAll_holding {durable : Nat} {operations : List Mutation}
    {batches : List RecoveredBatch} {table : Memtable} (keys : ∀ m ∈ operations, m.key ≠ [])
    (room : ∀ b ∈ batches, b.lastSequence < u64Max)
    (applied : (holding durable operations).applyAll batches = .ok table) :
    ∃ operations', (∀ m ∈ operations', m.key ≠ []) ∧ table = holding durable operations' := by
  induction batches generalizing operations with
  | nil =>
    cases applied
    exact ⟨operations, keys, rfl⟩
  | cons recovered rest ih =>
    obtain ⟨first, taken, applied⟩ := except_bind_ok.mp applied
    obtain ⟨batch, decoded, taken⟩ := except_bind_ok.mp taken
    obtain ⟨nonempty, newKeys⟩ := WriteBatch.decode_valid decoded
    obtain rfl := applyWriteBatch_ok nonempty (room recovered List.mem_cons_self) taken
    apply ih _ (fun b member => room b (List.mem_cons_of_mem _ member)) applied
    intro m member
    rcases List.mem_append.mp member with old | new
    · exact keys m old
    · exact newKeys m new

/-! ## Operations -/

section Steady

variable {w w' : World Path Directory Process} {db db' : Database}

omit [Platform] in
theorem lift_ok {α : Type} {x : Except Error α} {a : α} (ran : (liftM x : Io α) w = .ok a w') :
    x = .ok a ∧ w' = w := by
  cases x with
  | error e => cases ran
  | ok b =>
    cases ran
    exact ⟨rfl, rfl⟩

theorem openFile_holds {path : Path} {segment : Segment}
    (ran : Segment.openFile path w = .ok segment w') : ∃ entries, segment.Holds entries := by
  obtain ⟨bytes, w₁, -, decoded⟩ := bind_ok ran
  exact Segment.openBytes_holds (lift_ok decoded).1

theorem openSegments_ok {expected : List SegmentDescriptor} {segments : List Segment}
    (ran : Database.openSegments expected w = .ok segments w') :
    segments.map (·.descriptor) = expected ∧ ∀ s ∈ segments, ∃ entries, s.Holds entries := by
  induction expected generalizing segments w with
  | nil =>
    cases ran
    exact ⟨rfl, by simp⟩
  | cons head rest ih =>
    rw [Database.openSegments] at ran
    obtain ⟨raw, w₁, first, ran⟩ := bind_ok ran
    obtain ⟨_, w₂, checked, ran⟩ := bind_ok ran
    obtain ⟨others, w₃, later, ran⟩ := bind_ok ran
    cases ran
    obtain ⟨descriptors, holds⟩ := ih later
    obtain ⟨entries, held⟩ := openFile_holds first
    have same := not_not.mp (rejectIf_ok.mp (lift_ok checked).1)
    rw [List.map_cons, descriptors, same]
    refine ⟨rfl, List.forall_mem_cons.mpr ⟨⟨entries, held.setLevel _⟩, holds⟩⟩

theorem current_valid {pointer : CurrentPointer} {manifest : Manifest}
    (ran : ManifestStore.current w = .ok (some (pointer, manifest)) w') : manifest.Valid := by
  unfold ManifestStore.current at ran
  obtain ⟨content, w₁, -, ran⟩ := bind_ok ran
  cases content with
  | none => cases ran
  | some bytes =>
    obtain ⟨pointer', w₂, -, ran⟩ := bind_ok ran
    obtain ⟨_, w₃, -, ran⟩ := bind_ok ran
    obtain ⟨loaded, w₄, load, ran⟩ := bind_ok ran
    obtain ⟨_, w₅, -, ran⟩ := bind_ok ran
    cases ran
    unfold ManifestStore.load at load
    obtain ⟨_, w₆, -, load⟩ := bind_ok load
    obtain ⟨content, w₇, -, load⟩ := bind_ok load
    have parsed := (lift_ok load).1
    simp only [ManifestStore.parseManifest, except_bind_ok, except_pure, Except.ok.injEq] at parsed
    obtain ⟨manifest, -, _, valid, _, -, rfl⟩ := parsed
    exact Manifest.valid_of_validate valid

/-- Whatever a directory holds, a database that opens from it is steady. -/
theorem open_steady (ran : Database.open w = .ok db w') : db.Steady := by
  unfold Database.open at ran
  obtain ⟨_, w₁, -, ran⟩ := bind_ok ran
  obtain ⟨current, w₂, read, ran⟩ := bind_ok ran
  cases current with
  | none => cases ran
  | some current =>
    obtain ⟨pointer, manifest⟩ := current
    have valid := current_valid read
    obtain ⟨segments, w₃, opened, ran⟩ := bind_ok ran
    obtain ⟨descriptors, holds⟩ := openSegments_ok opened
    obtain ⟨⟨batches, through, valid_, torn⟩, w₄, recovered, ran⟩ := bind_ok ran
    cases torn with
    | some offset => cases ran
    | none =>
      obtain ⟨memtable, w₅, replayed, ran⟩ := bind_ok ran
      obtain ⟨wal, w₆, -, ran⟩ := bind_ok ran
      cases ran
      unfold recoverFrom at recovered
      obtain ⟨_, w₇, -, recovered⟩ := bind_ok recovered
      obtain ⟨bytes, w₈, -, recovered⟩ := bind_ok recovered
      have recovered := (lift_ok recovered).1
      simp only [recoverBytes, except_bind_ok] at recovered
      obtain ⟨_, -, _, -, recovered⟩ := recovered
      have room := recoverLoop_room (by simp) recovered
      refine ⟨valid.bounded, holds, ?_, ?_⟩
      · intro segment member
        rw [← descriptors]
        exact List.mem_map_of_mem member
      · have replayed : (Memtable.holding manifest.durableSequence []).applyAll batches =
            .ok memtable := (lift_ok replayed).1
        exact Memtable.applyAll_holding (by simp) room replayed

theorem writeFromMemtable_holds {table : Memtable} {segment : Segment}
    (ran : Segment.writeFromMemtable table w = .ok segment w') :
    ∃ entries, segment.Holds entries := by
  unfold Segment.writeFromMemtable at ran
  obtain ⟨bytes, w₁, -, ran⟩ := bind_ok ran
  obtain ⟨present, w₂, -, ran⟩ := bind_ok ran
  split at ran
  · obtain ⟨existing, w₃, opened, ran⟩ := bind_ok ran
    obtain ⟨_, w₄, -, ran⟩ := bind_ok ran
    cases ran
    exact openFile_holds opened
  · obtain ⟨process, w₃, -, ran⟩ := bind_ok ran
    obtain ⟨id, w₄, -, ran⟩ := bind_ok ran
    obtain ⟨_, w₅, -, ran⟩ := bind_ok ran
    exact openFile_holds ran

theorem flush_steady {at_ : Nat} {value : Except Error (Option Manifest)} (steady : db.Steady)
    (ran : db.flushMemtable at_ w = .ok (value, db') w') : db'.Steady := by
  unfold Database.flushMemtable Database.flushMemtableInner at ran
  split at ran
  · rcases committing_ok ran with ⟨_, synced, -⟩ | ⟨_, -, -, rfl⟩
    · obtain ⟨_, w₁, -, last⟩ := bind_ok synced
      cases last
      exact steady
    · exact steady
  · obtain ⟨⟨published, after⟩, w₁, first, ran⟩ := bind_ok ran
    have same : db' = after := by
      cases published with
      | error e =>
        cases ran
        rfl
      | ok next =>
        cases ran
        rfl
    subst same
    rcases committing_ok first with ⟨next, ran, -⟩ | ⟨_, -, -, rfl⟩
    · unfold Database.flushPublish at ran
      obtain ⟨sequence, w₁, -, ran⟩ := bind_ok ran
      obtain ⟨_, w₂, -, ran⟩ := bind_ok ran
      obtain ⟨segment, w₃, wrote, ran⟩ := bind_ok ran
      obtain ⟨_, w₄, -, ran⟩ := bind_ok ran
      obtain ⟨nextSequence, w₅, -, ran⟩ := bind_ok ran
      obtain ⟨successor, w₆, -, ran⟩ := bind_ok ran
      obtain ⟨_, w₇, -, ran⟩ := bind_ok ran
      obtain ⟨generation, w₈, -, ran⟩ := bind_ok ran
      obtain ⟨manifest, w₉, new, ran⟩ := bind_ok ran
      obtain ⟨pointer, w₁₀, -, ran⟩ := bind_ok ran
      cases ran
      obtain ⟨validates, -, -, durable, -, -, segments⟩ := Manifest.new_ok (lift_ok new).1
      have listed : ∀ d, d ∈ next.segments ↔ d ∈ db.manifest.segments ∨ d = segment.descriptor := by
        intro d
        rw [segments, (Manifest.sortSegments_perm _).mem_iff, List.mem_append, List.mem_singleton]
      apply steady_of_manifest (Manifest.valid_of_validate validates)
      · intro s member
        rcases List.mem_append.mp member with old | new
        · exact steady.holds s old
        · rw [List.mem_singleton.mp new]
          exact writeFromMemtable_holds wrote
      · intro s member
        rw [listed]
        rcases List.mem_append.mp member with old | new
        · exact .inl (steady.named s old)
        · exact .inr (by rw [List.mem_singleton.mp new])
      · rw [durable]
    · exact steady

/-- A batch that the log takes is one whose last sequence has a successor. -/
theorem append_room {writer writer' : WalWriter} {batch : WriteBatch} {durability : Durability}
    {receipt : AppendReceipt}
    (ran : writer.appendEncodedWriteBatch batch batch.payload durability w =
      .ok (.ok receipt, writer') w') : receipt.lastSequence < u64Max := by
  unfold WalWriter.appendEncodedWriteBatch WalWriter.append at ran
  cases ranged : checkedAdd writer.nextSequence (batch.operations.length - 1)
      (.invalidBatch "sequence range overflow") with
  | error e =>
    simp only [ranged] at ran
    cases ran
  | ok lastSequence =>
    simp only [ranged] at ran
    cases admitted : writer.admission ⟨writer.nextSequence, lastSequence, batch.payload⟩ with
    | error e =>
      simp only [admitted] at ran
      cases ran
    | ok header =>
      simp only [admitted] at ran
      obtain ⟨-, valid, -⟩ := admit_ok admitted
      have room := (walBatch_validate_ok.mp valid).2.2.1
      obtain ⟨length, w₁, -, ran⟩ := bind_ok ran
      cases length with
      | error e => cases ran
      | ok offset =>
        obtain ⟨wrote, w₂, -, ran⟩ := bind_ok ran
        cases wrote with
        | error e => cases ran
        | ok _ =>
          have added : ∀ e, checkedAdd lastSequence 1 e = .ok (lastSequence + 1) :=
            fun e => checkedAdd_ok.mpr ⟨room, rfl⟩
          simp only [added] at ran
          cases ran
          exact room

theorem write_steady {batch : WriteBatch} {durability : Durability}
    {value : Except Error AppendReceipt} (steady : db.Steady)
    (ran : db.write batch durability w = .ok (value, db') w') : db'.Steady := by
  unfold Database.write Database.writeWith at ran
  cases encoded : batch.encode with
  | error e =>
    rw [encoded] at ran
    cases ran
    exact steady
  | ok payload =>
    rw [encoded] at ran
    obtain ⟨valid, rfl, -⟩ := WriteBatch.encode_ok encoded
    obtain ⟨⟨nonempty, -⟩, members⟩ := WriteBatch.validate_ok.mp valid
    obtain ⟨⟨appended, wal⟩, w₁, first, ran⟩ := bind_ok ran
    have logged : ({ db with wal } : Database).Steady :=
      ⟨steady.bounded, steady.holds, steady.named, steady.memtable⟩
    cases appended with
    | error e =>
      cases ran
      exact logged
    | ok receipt =>
      cases applied : db.memtable.applyWriteBatch batch receipt.firstSequence
          receipt.lastSequence with
      | error e =>
        simp only [applied] at ran
        cases ran
        exact logged
      | ok table =>
        simp only [applied] at ran
        cases ran
        obtain ⟨operations, keys, same⟩ := steady.memtable
        rw [same] at applied
        refine ⟨steady.bounded, steady.holds, steady.named, operations ++ batch.operations, ?_,
          Memtable.applyWriteBatch_ok nonempty (append_room first) applied⟩
        intro m member
        rcases List.mem_append.mp member with old | new
        · exact keys m old
        · exact (WriteBatch.mutation_validate_ok.mp (members m new)).1

theorem compact_steady {snapshots : List Snapshot} {at_ : Nat}
    {value : Except Error (Option Database.CompactionOutcome)} (steady : db.Steady)
    (ran : db.compact snapshots at_ w = .ok (value, db') w') : db'.Steady := by
  rcases compactInner_ok ran with ⟨e, first, -⟩ | ⟨flushed, mid, w₁, first, rest⟩
  · exact flush_steady steady first
  have steady₁ := flush_steady steady first
  rcases rest with ⟨-, -, rfl, -⟩ | ⟨-, compacted, second, -⟩
  · exact steady₁
  rcases committing_ok second with ⟨outcome, ran, -⟩ | ⟨_, -, -, rfl⟩
  · unfold Database.compactPublish at ran
    obtain ⟨merged, w₂, -, ran⟩ := bind_ok ran
    obtain ⟨segments, w₃, wrote, ran⟩ := bind_ok ran
    obtain ⟨_, w₄, -, ran⟩ := bind_ok ran
    obtain ⟨generation, w₅, -, ran⟩ := bind_ok ran
    obtain ⟨next, w₆, new, ran⟩ := bind_ok ran
    obtain ⟨pointer, w₇, -, ran⟩ := bind_ok ran
    cases ran
    obtain ⟨validates, -, -, durable, -, -, listed⟩ := Manifest.new_ok (lift_ok new).1
    obtain ⟨operations, keys, same⟩ := steady₁.memtable
    refine ⟨(Manifest.valid_of_validate validates).bounded, ?_, ?_, operations, keys, ?_⟩
    · unfold Database.writeCompacted at wrote
      split at wrote
      · cases wrote
        simp
      · obtain ⟨table, w₈, -, wrote⟩ := bind_ok wrote
        obtain ⟨segment, w₉, made, wrote⟩ := bind_ok wrote
        cases wrote
        obtain ⟨entries, holds⟩ := writeFromMemtable_holds made
        intro s member
        rw [List.mem_singleton.mp member]
        exact ⟨entries, holds.setLevel _⟩
    · intro s member
      rw [listed, (Manifest.sortSegments_perm _).mem_iff]
      exact List.mem_map_of_mem member
    · rw [durable]
      exact same
  · exact steady₁

/-- An installation, from what it puts in place. -/
theorem install_steady {source : Manifest} {importSegments : Io (List Segment)} {at_ : Nat}
    {value : Except Error Manifest} (steady : db.Steady)
    (imports : ∀ w w' imported, importSegments w = .ok imported w' →
      ∃ f, List.Forall₂ (Stored f) source.segments imported)
    (ran : db.installInner source importSegments at_ none w = .ok (value, db') w') : db'.Steady := by
  unfold Database.installInner at ran
  split at ran
  · cases ran
    exact steady
  · obtain ⟨⟨installed, after⟩, w₁, first, ran⟩ := bind_ok ran
    have same : db' = after := by
      cases installed with
      | error e =>
        cases ran
        rfl
      | ok next =>
        cases ran
        rfl
    subst same
    rcases committing_ok first with ⟨next, ran, -⟩ | ⟨_, -, -, rfl⟩
    · obtain ⟨_, w₂, -, ran⟩ := bind_ok ran
      obtain ⟨imported, w₃, put, ran⟩ := bind_ok ran
      obtain ⟨f, stored⟩ := imports _ _ _ put
      unfold Database.installPublish at ran
      obtain ⟨_, w₄, -, ran⟩ := bind_ok ran
      obtain ⟨nextSequence, w₅, -, ran⟩ := bind_ok ran
      obtain ⟨successor, w₆, -, ran⟩ := bind_ok ran
      obtain ⟨_, w₇, -, ran⟩ := bind_ok ran
      obtain ⟨generation, w₈, -, ran⟩ := bind_ok ran
      obtain ⟨manifest, w₉, new, ran⟩ := bind_ok ran
      obtain ⟨pointer, w₁₀, -, ran⟩ := bind_ok ran
      cases ran
      obtain ⟨validates, -, -, durable, -, -, listed⟩ := Manifest.new_ok (lift_ok new).1
      apply steady_of_manifest (Manifest.valid_of_validate validates)
      · intro s member
        rw [← descriptors_eq stored] at stored
        exact (stored_iff.mp stored s member).holds
      · intro s member
        rw [listed, (Manifest.sortSegments_perm _).mem_iff, ← descriptors_eq stored]
        exact List.mem_map_of_mem member
      · rw [durable]
    · exact steady

theorem export_steady {α : Type} {at_ : Nat} {body : Database → Io α} {value : Except Error α}
    (steady : db.Steady) (ran : db.afterFlush at_ body w = .ok (value, db') w') : db'.Steady := by
  rcases afterFlush_ok ran with ⟨e, first, -⟩ | ⟨flushed, w₁, first, -⟩
  · exact flush_steady steady first
  · exact flush_steady steady first

theorem Op.steady {op : Op} {result : Except Error Unit} (steady : db.Steady)
    (ran : op.run db w = .ok (result, db') w') : db'.Steady := by
  cases op with
  | write batch durability =>
    obtain ⟨value, wrote, -⟩ := forget_ok ran
    exact write_steady steady wrote
  | writeOwned batch durability =>
    obtain ⟨value, wrote, -⟩ := forget_ok ran
    rw [writeOwned_eq] at wrote
    exact write_steady steady wrote
  | sync =>
    obtain ⟨value, synced, -⟩ := forget_ok ran
    rcases committing_ok synced with ⟨_, synced, -⟩ | ⟨_, -, -, rfl⟩
    · obtain ⟨_, w₁, -, last⟩ := bind_ok synced
      cases last
      exact steady
    · exact steady
  | flushMemtable at_ =>
    obtain ⟨value, flushed, -⟩ := forget_ok ran
    exact flush_steady steady flushed
  | compact snapshots at_ =>
    obtain ⟨value, compacted, -⟩ := forget_ok ran
    exact compact_steady steady compacted
  | installSnapshotBundle bundle at_ =>
    obtain ⟨value, installed, -⟩ := forget_ok ran
    unfold Database.installSnapshotBundle Database.installSnapshotBundleInner at installed
    cases checked : bundle.validate with
    | error e =>
      simp only [checked] at installed
      cases installed
      exact steady
    | ok _ =>
      simp only [checked] at installed
      obtain ⟨segments, -, valid⟩ := SnapshotBundle.valid_of_validate checked
      apply install_steady steady _ installed
      intro w w' imported put
      obtain ⟨-, -, stored, -⟩ := importBundle_wp.run_ok put
      rw [valid.descriptors] at stored
      exact ⟨_, stored⟩
  | installSnapshotFile bundle at_ =>
    obtain ⟨value, installed, -⟩ := forget_ok ran
    obtain ⟨path, content, opened⟩ := bundle.opened
    obtain ⟨-, segments, valid⟩ := SnapshotBundleFile.valid_of_openBytes opened
    apply install_steady steady _ installed
    intro w w' imported put
    obtain ⟨-, -, stored, -⟩ := importFile_wp.run_ok put
    rw [valid.descriptors] at stored
    exact ⟨_, stored⟩
  | checkpoint name at_ => rwa [(observing_ok ran).1]
  | releaseCheckpoint name => rwa [(observing_ok ran).1]
  | exportSnapshotBundle at_ =>
    obtain ⟨value, exported, -⟩ := forget_ok ran
    exact export_steady steady exported
  | exportSnapshotFile at_ destination =>
    obtain ⟨value, exported, -⟩ := forget_ok ran
    exact export_steady steady exported
  | garbageCollect => rwa [(observing_ok ran).1]

end Steady

/-- In every state of every run the database is steady. -/
theorem Run.steady {policy : Policy} {trace : List Event} {state : State}
    (run : Run policy trace state) : state.db.Steady := by
  induction run with
  | create created =>
    obtain ⟨-, -, rfl, -, -⟩ := create_wp.run_ok created
    exact ⟨by simp [Database.opened, firstManifest], by simp [Database.opened],
      by simp [Database.opened], [], by simp, rfl⟩
  | step _ _ ran ih => exact Op.steady ih ran
  | reopen _ opened _ => exact open_steady opened

/-! ## The read paths -/

omit [Platform] in
theorem inRange_iff {start key : Bytes} {stop : Option Bytes} {found : Prop} :
    (start ≤ key ∧ (∀ bound ∈ stop, key < bound) ∧ found) ↔
      ¬ Segment.outside start stop key ∧ found := by
  simp only [Segment.outside, not_or, not_lt, not_exists, not_and, ge_iff_le, not_le, and_assoc]

/-- The batched read is the point read of every key, and the scan lists, in strict key order,
exactly the pairs of the range that point reads return. -/
theorem read_paths_agree {policy : Policy} {trace : List Event} {state : State}
    (run : Run policy trace state) (snapshot : Snapshot) (keys : List Bytes) (start : Bytes)
    (stop : Option Bytes) :
    (∃ values, state.db.getMany keys snapshot = .ok values ∧
      keys.mapM (fun key => state.db.get key snapshot) = .ok values) ∧
    ∃ pairs, state.db.scan start stop snapshot = .ok pairs ∧
      pairs.Pairwise (fun a b => a.1 < b.1) ∧
      ∀ key value, (key, value) ∈ pairs ↔ start ≤ key ∧ (∀ bound ∈ stop, key < bound) ∧
        state.db.get key snapshot = .ok (some value) := by
  have sound := run.steady.sound
  obtain ⟨s⟩ := snapshot
  refine ⟨⟨_, sound.getMany keys s, ?_⟩, ?_⟩
  · simp only [sound.get]
    exact List.mapM_pure
  · obtain ⟨pairs, scanned, graph⟩ := sound.scan start stop s
    refine ⟨pairs, scanned, graph.sorted, fun key value => ?_⟩
    rw [graph.mem, sound.get, Except.ok.injEq, Segment.visibleIn, inRange_iff]
    split
    · rename_i outside
      refine ⟨fun found => ?_, fun found => absurd outside found.1⟩
      cases found
    · rename_i inside
      exact ⟨fun found => ⟨inside, found⟩, fun found => found.2⟩

end Vyrm.Kv

namespace Vyrm.Kv

set_option maxRecDepth 100000 in
theorem read_paths_agree_written : ∃ trace state, Run Calm trace state ∧
    state.db.get [97] ⟨2⟩ = .ok (some [1]) ∧
    ∃ pairs, state.db.scan [97] (some [98]) ⟨2⟩ = .ok pairs ∧ ([97], [1]) ∈ pairs := by
  obtain ⟨trace, state, run, found⟩ := exists_run
    (fun _ state => state.db.get [97] ⟨2⟩ == .ok (some [1]))
    (calm_of_quiet [.write ⟨[.put [97] [1], .delete [98]]⟩ .authoritative])
    (by decide +kernel)
  have found : state.db.get [97] ⟨2⟩ = .ok (some [1]) := eq_of_beq found
  obtain ⟨pairs, scanned, -, listed⟩ := (read_paths_agree run ⟨2⟩ [] [97] (some [98])).2
  refine ⟨trace, state, run, found, pairs, scanned, (listed _ _).mpr ⟨le_refl _, ?_, found⟩⟩
  intro bound member
  cases member
  decide

end Vyrm.Kv
