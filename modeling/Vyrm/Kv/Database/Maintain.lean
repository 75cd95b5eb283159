import Vyrm.Kv.Database.Flush

/-!
# Checkpoints, exports and garbage collection

The operations that neither write nor publish. However they end, the files that
the published manifest names are left alone, so a live database stays live.
-/

namespace Vyrm.Kv
open Lib Lib.FaultFs

variable [Platform]

/-- The files that a manifest names when it is the published one. -/
def Manifest.Names (manifest : Manifest) (path : Path) : Prop :=
  path = .current ∨ path = .manifest manifest.digest ∨ path = .wal manifest.walStartSequence ∨
    ∃ s ∈ manifest.segments, path = .segment s.id

section Keeps

variable {files f : Files Path} {manifest : Manifest} {db : Database} {stored : List Segment}
  {pending : List WriteBatch}

theorem keeps_of_spared (start : manifest.walStartSequence = manifest.durableSequence + 1)
    (same : ∀ path, manifest.Names path → f.lookup path = files.lookup path) :
    Keeps files f manifest := by
  constructor
  · intro published
    refine ⟨published.valid, ?_, ?_⟩
    · rw [same _ (.inl rfl)]
      exact published.current
    · rw [same _ (.inr (.inl rfl))]
      exact published.stored
  · intro s member bytes found
    rw [same _ (.inr (.inr (.inr ⟨s, member, rfl⟩)))]
    exact found
  · intro bytes found
    rw [same _ (.inr (.inr (.inl (by rw [start]))))]
    exact found

theorem Live.spared (live : Live files db stored pending)
    (same : ∀ path, db.manifest.Names path → f.lookup path = files.lookup path) :
    Live f db stored pending := live.keeps (keeps_of_spared live.disk.start same)

/-- Every file that the published manifest names is there. -/
theorem Live.mem_of_names (live : Live files db stored pending) {path : Path}
    (named : db.manifest.Names path) : path ∈ files := by
  rcases named with rfl | rfl | rfl | ⟨s, member, rfl⟩
  · exact mem_of_lookup live.disk.published.current
  · exact mem_of_lookup live.disk.published.stored
  · rw [live.disk.start]
    exact mem_of_lookup live.disk.log.content
  · have each : ∀ {expected : List SegmentDescriptor} {segments : List Segment},
        List.Forall₂ (Stored files) expected segments → ∀ s ∈ expected, .segment s.id ∈ files := by
      intro expected segments stored
      induction stored with
      | nil => intro s member; cases member
      | cons first _ ih =>
        intro s member
        rcases List.mem_cons.mp member with rfl | later
        · obtain ⟨-, bytes, raw, found, -⟩ := first
          exact mem_of_lookup found
        · exact ih s later
    exact each live.disk.stored s member

end Keeps

variable {oracle : Oracle Path Directory} {kept : Path → Prop} {db : Database}

omit [Platform] in
theorem Spares.attempt {α : Type} {body : Io α} (spares : Spares oracle kept body) :
    Spares oracle kept (attempt body) := by
  intro files process
  apply wp_attempt
  apply (spares files process).mono
  rintro ((e | _) | a) f p same
  · exact same
  · exact same
  · exact same

omit [Platform] in
theorem spares_persistRename {directory : Directory} {temporary target : Path} {bytes : Bytes}
    (notTemporary : ¬ kept temporary) (notTarget : ¬ kept target) :
    Spares oracle kept (persistRename directory temporary target bytes) := by
  unfold persistRename
  apply (spares_createNew notTemporary).bind
  intro _
  apply Spares.onError
  · exact (spares_writeAll notTemporary).bind fun _ => (spares_syncFile _).bind fun _ =>
      (spares_rename notTemporary notTarget).bind fun _ => spares_syncDirectory _
  · exact fun _ => (Spares.attempt (spares_removeFile notTemporary)).bind fun _ => spares_throw _

theorem spares_load (digest : Bytes) : Spares oracle kept (ManifestStore.load digest) :=
  (spares_lift _).bind fun _ => (spares_readFile _).bind fun _ => spares_lift _

/-! ## Checkpoints -/

theorem spares_checkpoint (name : Bytes) (at_ : Nat)
    (free : ∀ path, kept path → (∀ n, path ≠ .checkpoint n) ∧ ∀ n id, path ≠ .checkpointTemporary n id) :
    Spares oracle kept (db.checkpoint name at_) := by
  unfold Database.checkpoint ManifestStore.checkpoint
  apply (spares_load _).bind
  intro manifest
  apply (spares_lift _).bind
  intro checkpoint
  apply Spares.bind (fun _ _ => wp_pathExists fun _ _ => rfl)
  intro present
  apply spares_ite
  · exact (spares_readFile _).bind fun _ => (spares_lift _).bind fun _ =>
      (spares_lift _).bind fun _ => (spares_lift _).bind fun _ => spares_pure _
  · apply Spares.bind (fun _ _ => wp_nextPointerTemporaryId fun _ _ => rfl)
    exact fun id => (spares_persistRename (fun h => (free _ h).2 _ _ rfl)
      (fun h => (free _ h).1 _ rfl)).bind fun _ => spares_pure _

omit [Platform] in
theorem spares_releaseCheckpoint (name : Bytes) (free : ∀ path, kept path → ∀ n, path ≠ .checkpoint n) :
    Spares oracle kept (db.releaseCheckpoint name) := by
  unfold Database.releaseCheckpoint ManifestStore.releaseCheckpoint
  apply (spares_lift _).bind
  intro _
  apply (Spares.attempt (spares_removeFile fun h => free _ h _ rfl)).bind
  intro removed
  split
  · exact (spares_syncDirectory _).bind fun _ => spares_pure _
  · exact spares_pure _
  · exact spares_throw _

omit [Platform] in
theorem names_not_checkpoint {manifest : Manifest} {path : Path} (named : manifest.Names path) :
    (∀ n, path ≠ .checkpoint n) ∧ ∀ n id, path ≠ .checkpointTemporary n id := by
  rcases named with rfl | rfl | rfl | ⟨s, -, rfl⟩ <;> simp

/-! ## Exports -/

omit [Platform] in
theorem spares_readSnapshotSegments (descriptors : List SegmentDescriptor) :
    Spares oracle kept (Database.readSnapshotSegments descriptors) := by
  induction descriptors with
  | nil => exact spares_pure _
  | cons descriptor rest ih =>
    exact (spares_readFile _).bind fun _ => ih.bind fun _ => spares_pure _

omit [Platform] in
theorem spares_writeHashed {path : Path} {content bytes : Bytes} (free : ¬ kept path) :
    Spares oracle kept (SnapshotBundleFile.writeHashed path content bytes) :=
  (spares_lift _).bind fun _ => (spares_writeAll free).bind fun _ => spares_pure _

theorem spares_writeSegments {path : Path} {hook : SnapshotExportBoundary → Except Error Unit}
    (free : ¬ kept path) (descriptors : List SegmentDescriptor) (content : Bytes) :
    Spares oracle kept (SnapshotBundleFile.writeSegments path hook descriptors content) := by
  induction descriptors generalizing content with
  | nil => exact spares_pure _
  | cons descriptor rest ih =>
    exact (spares_lift _).bind fun _ => (spares_readFile _).bind fun _ =>
      (spares_lift _).bind fun _ => (spares_writeHashed free).bind fun _ =>
      (spares_writeHashed free).bind fun _ => (spares_writeHashed free).bind fun _ =>
      (spares_writeHashed free).bind fun _ => (spares_lift _).bind fun _ => ih _

theorem spares_writeBundle {source : Manifest} {manifest : Bytes} {path : Path}
    {hook : SnapshotExportBoundary → Except Error Unit} (free : ¬ kept path) :
    Spares oracle kept (SnapshotBundleFile.writeBundle source manifest path hook) :=
  (spares_writeHashed free).bind fun _ => (spares_writeHashed free).bind fun _ =>
    (spares_writeHashed free).bind fun _ => (spares_writeHashed free).bind fun _ =>
    (spares_writeHashed free).bind fun _ => (spares_writeHashed free).bind fun _ =>
    (spares_lift _).bind fun _ => (spares_writeSegments free _ _).bind fun _ =>
    (spares_writeAll free).bind fun _ => (spares_lift _).bind fun _ =>
    (spares_syncFile _).bind fun _ => (spares_syncDirectory _).bind fun _ => spares_lift _

/-- An export writes to its destination only, and only when nothing was there. -/
theorem createBundle_grows {files : Files Path} {process : Process} {source : Manifest}
    {destination : Path} :
    wp oracle (SnapshotBundleFile.create source destination)
      (fun _ f _ => Grows files f) files process := by
  unfold SnapshotBundleFile.create SnapshotBundleFile.createWithHook
  apply wp_lift
  rotate_left
  · exact fun _ _ => Grows.refl _
  rintro ⟨⟩ -
  apply wp_lift
  rotate_left
  · exact fun _ _ => Grows.refl _
  rintro ⟨⟩ -
  apply wp_lift
  rotate_left
  · exact fun _ _ => Grows.refl _
  rintro _ -
  apply wp_lift
  rotate_left
  · exact fun _ _ => Grows.refl _
  rintro _ -
  apply wp_bind
  apply wp_createNew
  · intro fresh
    have notKept : ¬ (fun path : Path => path ≠ destination) destination := fun h => h rfl
    have rest : Spares oracle (fun path => path ≠ destination) (do
        onError (SnapshotBundleFile.writeBundle source (Platform.manifestJson.toVec source)
          destination fun _ => pure ())
          (fun error => do
            let _ ← attempt (removeFile destination)
            throw (.error error))
        SnapshotBundleFile.open destination : Io SnapshotBundleFile) := by
      apply Spares.bind
      · apply Spares.onError
        · exact spares_writeBundle notKept
        · intro error
          apply Spares.bind
          · exact Spares.attempt (spares_removeFile notKept)
          · exact fun _ => spares_throw _
      · exact fun _ => (spares_readFile _).bind fun _ => spares_lift _
    apply (rest _ _).mono
    intro r f p same path bytes found
    have different : path ≠ destination := by
      rintro rfl
      exact fresh (mem_of_lookup found)
    rw [same path different, AList.lookup_insert_ne different]
    exact found
  · exact fun _ => Grows.refl _
  · exact fun _ _ _ => Grows.refl _

/-! ## Garbage collection -/

section Collect

variable {files : Files Path} {process : Process}

theorem spares_readCheckpoint (path : Path) : Spares oracle kept (ManifestStore.readCheckpoint path) :=
  (spares_readFile _).bind fun _ => (spares_lift _).bind fun _ => (spares_lift _).bind fun _ =>
    (spares_load _).bind fun _ => (spares_lift _).bind fun _ => spares_pure _

theorem spares_checkpoints : Spares oracle kept ManifestStore.checkpoints :=
  Spares.bind (fun _ _ => wp_listFiles fun _ _ => rfl) fun _ =>
    (spares_mapM spares_readCheckpoint _).bind fun _ => spares_pure _

/-- The manifest in use stays among the retained ones. -/
theorem loadRetained_wp (kept : Path → Prop) {checkpoints : List Checkpoint} {manifests : Std.TreeMap Bytes Manifest}
    {manifest : Manifest} (held : manifests[manifest.digest]? = some manifest) :
    wp oracle (Database.loadRetained checkpoints manifests) (fun r f _ =>
      (∀ path, kept path → f.lookup path = files.lookup path) ∧
        ∀ result, r = .ok result → result[manifest.digest]? = some manifest) files process := by
  induction checkpoints generalizing manifests files process with
  | nil =>
    refine wp_pure ⟨fun _ _ => rfl, ?_⟩
    intro result same
    cases same
    exact held
  | cons checkpoint rest ih =>
    rw [Database.loadRetained]
    have read : Spares oracle kept (ManifestStore.load checkpoint.manifest) := spares_load _
    apply wp_bind_of (read files process)
    · intro loaded f p same
      have held' : (manifests.insertIfNew checkpoint.manifest loaded)[manifest.digest]? =
          some manifest := by
        rw [Std.TreeMap.getElem?_insertIfNew, held]
        split
        · rename_i absent
          obtain ⟨equal, notIn⟩ := absent
          rw [compare_eq_iff_eq] at equal
          exact absurd (Std.TreeMap.mem_iff_isSome_getElem?.mpr (by rw [equal, held]; rfl)) notIn
        · rfl
      apply (ih held').mono
      rintro r g q ⟨further, result⟩
      exact ⟨fun path isKept => by rw [further path isKept, same path isKept], result⟩
    · exact fun stop f p same => ⟨same, by simp⟩

omit [Platform] in
theorem unreachableFiles_wp {candidate : Path → Bool} :
    wp oracle (Database.unreachableFiles candidate) (fun r f p => f = files ∧ p = process ∧
      ∀ paths, r = .ok paths → ∀ path ∈ paths, candidate path = true) files process := by
  unfold Database.unreachableFiles
  apply wp_bind
  apply wp_listFiles
  refine wp_pure ⟨rfl, rfl, ?_⟩
  intro paths same path member
  cases same
  rw [List.mem_mergeSort, List.mem_filter] at member
  exact member.2

omit [Platform] in
theorem spares_removeCandidates {directory : Directory} {candidates : List Path}
    (removable : ∀ path ∈ candidates, ¬ kept path) :
    Spares oracle kept (Database.removeCandidates directory candidates) := by
  have each : ∀ paths : List Path, (∀ path ∈ paths, ¬ kept path) →
      Spares oracle kept (Database.removeEach paths) := by
    intro paths
    induction paths with
    | nil => exact fun _ => spares_pure _
    | cons path rest ih =>
      intro removable
      obtain ⟨first, removable⟩ := List.forall_mem_cons.mp removable
      exact (spares_removeFile first).bind fun _ => ih removable
  unfold Database.removeCandidates
  exact (each candidates removable).bind fun _ =>
    spares_ite ((spares_syncDirectory _).bind fun _ => spares_pure _) (spares_pure _)

/-- Garbage collection leaves alone what the manifest in use names. -/
theorem spares_garbageCollect : Spares oracle db.manifest.Names db.garbageCollect := by
  intro files process
  have listed : (Std.TreeMap.ofList [(db.manifest.digest, db.manifest)])[db.manifest.digest]? =
      some db.manifest := by
    rw [Std.TreeMap.ofList_singleton, getElem?_insert_eq, if_pos rfl]
  unfold Database.garbageCollect
  have readCheckpoints : Spares oracle db.manifest.Names ManifestStore.checkpoints :=
    spares_checkpoints
  apply wp_bind_of (readCheckpoints files process)
  rotate_left
  · exact fun _ _ _ same => same
  intro checkpoints f p same
  apply wp_bind_of (loadRetained_wp db.manifest.Names listed)
  rotate_left
  · rintro stop g q ⟨further, -⟩ path named
    rw [further path named, same path named]
  rintro manifests g q ⟨further, held⟩
  have held := held manifests rfl
  have same : ∀ path, db.manifest.Names path → g.lookup path = files.lookup path :=
    fun path named => by rw [further path named, same path named]
  have value : db.manifest ∈ manifests.values := by
    rw [Memtable.values_eq_map_toList]
    exact List.mem_map.mpr ⟨(db.manifest.digest, db.manifest),
      ((isGraph_toList manifests).mem _ _).mpr held, rfl⟩
  have key : db.manifest.digest ∈ manifests.keys := by
    rw [Std.TreeMap.mem_keys]
    exact Std.TreeMap.mem_iff_isSome_getElem?.mpr (by rw [held]; rfl)
  have segments : ∀ s ∈ db.manifest.segments, s.id ∈ (Std.TreeSet.ofList
      (manifests.values.flatMap fun manifest => manifest.segments.map (·.id)) compare).toList := by
    intro s member
    rw [Std.TreeSet.mem_toList, Std.TreeSet.mem_ofList, List.contains_iff_mem]
    exact List.mem_flatMap.mpr ⟨db.manifest, value, List.mem_map_of_mem member⟩
  have wal : db.manifest.walStartSequence ∈ (Std.TreeSet.ofList
      (manifests.values.map (·.walStartSequence)) compare).toList := by
    rw [Std.TreeSet.mem_toList, Std.TreeSet.mem_ofList, List.contains_iff_mem]
    exact List.mem_map_of_mem value
  dsimp only
  apply wp_bind_of unreachableFiles_wp
  rotate_left
  · rintro stop h p ⟨rfl, -, -⟩
    exact same
  rintro manifestFiles h p ⟨rfl, rfl, manifestFiles_ok⟩
  apply wp_bind_of unreachableFiles_wp
  rotate_left
  · rintro stop h p ⟨rfl, -, -⟩
    exact same
  rintro segmentFiles h p ⟨rfl, rfl, segmentFiles_ok⟩
  apply wp_bind_of unreachableFiles_wp
  rotate_left
  · rintro stop h p ⟨rfl, -, -⟩
    exact same
  rintro walFiles h p ⟨rfl, rfl, walFiles_ok⟩
  -- what is listed for removal is not named
  have freeManifests : ∀ path ∈ manifestFiles, ¬ db.manifest.Names path := by
    intro path member named
    have candidate := manifestFiles_ok _ rfl path member
    rcases named with rfl | rfl | rfl | ⟨s, -, rfl⟩
    · cases candidate
    · exact of_decide_eq_true candidate key
    · cases candidate
    · cases candidate
  have freeSegments : ∀ path ∈ segmentFiles, ¬ db.manifest.Names path := by
    intro path member named
    have candidate := segmentFiles_ok _ rfl path member
    rcases named with rfl | rfl | rfl | ⟨s, inManifest, rfl⟩
    · cases candidate
    · cases candidate
    · cases candidate
    · exact of_decide_eq_true candidate (segments s inManifest)
  have freeWals : ∀ path ∈ walFiles, ¬ db.manifest.Names path := by
    intro path member named
    have candidate := walFiles_ok _ rfl path member
    rcases named with rfl | rfl | rfl | ⟨s, -, rfl⟩
    · cases candidate
    · cases candidate
    · exact of_decide_eq_true candidate wal
    · cases candidate
  apply wp.mono ((spares_removeCandidates freeManifests).bind (fun _ =>
    (spares_removeCandidates freeSegments).bind fun _ =>
      (spares_removeCandidates freeWals).bind fun _ => spares_pure _) h p)
  intro r k q later path named
  rw [later path named, same path named]

end Collect

end Vyrm.Kv
