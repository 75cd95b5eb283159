import Vyrm.Kv.Database.Publish
import Vyrm.Kv.SnapshotBundle.Spec

/-!
# Snapshot installation

Every way in which an installation ends on a live database. The segments of the
source are put in place one by one and the directory only grows, until `CURRENT`
is renamed. The published manifest lists the segments in canonical order, while
the database in use keeps the order of the source.
-/

namespace Vyrm.Kv
open Lib Lib.FaultFs Mvcc

variable [Platform]

/-! ## Installing one segment -/

/-- A segment that passes the snapshot check opens to the same segment. -/
theorem openBytes_of_validateSnapshotBytes {expected : SegmentDescriptor} {bytes : Bytes}
    {segment : Segment} (h : Segment.validateSnapshotBytes expected bytes = .ok segment) :
    segment.descriptor = expected ∧ ∃ raw, Segment.openBytes bytes = .ok raw ∧
      segment = raw.setLevel expected.level := by
  simp only [Segment.validateSnapshotBytes, except_bind_ok, rejectIf_ok, exists_const] at h
  obtain ⟨small, h⟩ := h
  have finish : ∀ {raw : Segment}, Segment.openBytes bytes = .ok raw →
      (do
        let segment := raw.setLevel expected.level
        rejectIf (segment.descriptor ≠ expected) (.invalidSegment
          s!"snapshot segment {text expected.id} differs from its descriptor")
        return segment) = Except.ok segment →
      segment.descriptor = expected ∧ ∃ raw, Segment.openBytes bytes = .ok raw ∧
        segment = raw.setLevel expected.level := by
    intro raw opens checked
    simp only [except_bind_ok, rejectIf_ok, except_pure, Except.ok.injEq, not_not] at checked
    obtain ⟨_, same, rfl⟩ := checked
    exact ⟨same, raw, opens, rfl⟩
  have start : slice bytes 0 8 = bytes.take 8 := by simp [slice]
  split at h
  · rename_i magic
    obtain ⟨raw, decoded, h⟩ := except_bind_ok.mp h
    refine finish ?_ h
    simp only [decodeV3Bytes, except_bind_ok, rejectIf_ok, exists_const] at decoded
    obtain ⟨long, decoded⟩ := decoded
    have version : ofBE (slice bytes 8 10) = segmentFormatVersion := by
      simp only [decodeV3File, except_bind_ok] at decoded
      obtain ⟨actual, -, result, metadata, -⟩ := decoded
      simp only [readV3Metadata, except_bind_ok] at metadata
      obtain ⟨header, found, _, accepted, -⟩ := metadata
      obtain ⟨-, -, rfl⟩ := slice?_eq_some_iff.mp (okOr_ok.mp found)
      have accepted := rejectIf_ok.mp accepted
      push Not at accepted
      have part : slice (slice bytes 0 v3HeaderBytes) 8 10 = slice bytes 8 10 := by
        simp [slice, v3HeaderBytes, List.drop_take, List.take_take]
      rw [← part]
      exact accepted.2
    unfold Segment.openBytes
    rw [rejectIf_of_not small, except_ok_bind]
    have enough : ¬ bytes.length < v1HeaderBytes + footerBytes := by
      unfold v1HeaderBytes footerBytes
      unfold v3HeaderBytes indexHeaderBytes footerBytes at long
      omega
    rw [rejectIf_of_not enough, except_ok_bind, if_pos ⟨version, start.trans magic⟩]
    exact decoded
  · rename_i other
    obtain ⟨raw, decoded, h⟩ := except_bind_ok.mp h
    refine finish ?_ h
    have enough : ¬ bytes.length < v1HeaderBytes + footerBytes := by
      simp only [decodeLegacy, except_bind_ok] at decoded
      obtain ⟨_, accepted, -⟩ := decoded
      exact rejectIf_ok.mp accepted
    unfold Segment.openBytes
    rw [rejectIf_of_not small, except_ok_bind, rejectIf_of_not enough, except_ok_bind,
      if_neg fun h => other (start.symm.trans h.2)]
    exact decoded

section Segments

variable {oracle : Oracle Path Directory} {files : Files Path} {process : Process}

/-- An installed segment is the validated one, stored under its identity with the bytes of the
source. -/
theorem installSnapshotBytes_wp {expected : SegmentDescriptor} {bytes : Bytes} :
    wp oracle (Segment.installSnapshotBytes expected bytes) (fun r f _ =>
      match r with
      | .ok installed => Segment.validateSnapshotBytes expected bytes = .ok installed ∧
        Stored f expected installed ∧ Grows files f
      | .error _ => Grows files f) files process := by
  unfold Segment.installSnapshotBytes
  apply wp_lift
  rotate_left
  · exact fun e _ => Grows.refl _
  rintro ⟨⟩ accepted
  obtain ⟨validated, valid, -⟩ := except_bind_ok.mp accepted
  obtain ⟨descriptor, raw, opens, rfl⟩ := openBytes_of_validateSnapshotBytes valid
  have stored : ∀ {f : Files Path}, f.lookup (.segment expected.id) = some bytes →
      Stored f expected (raw.setLevel expected.level) := fun found =>
    ⟨descriptor, bytes, raw, found, opens, rfl⟩
  apply wp_bind
  apply wp_pathExists
  dsimp only [Post.seq]
  apply wp_ite
  · intro present
    have present : .segment expected.id ∈ files := of_decide_eq_true present
    obtain ⟨content, found⟩ := Option.isSome_iff_exists.mp (AList.lookup_isSome.mpr present)
    apply wp_bind_of (openFile_wp found)
    rotate_left
    · rintro stop f p ⟨rfl, -, -⟩
      exact Grows.refl _
    rintro existing f p ⟨rfl, rfl, opened⟩
    apply wp_lift
    rotate_left
    · exact fun e _ => Grows.refl _
    rintro ⟨⟩ -
    apply wp_bind
    apply wp_readFile
    · intro again found'
      rw [found, Option.some.injEq] at found'
      subst found'
      apply wp_lift
      rotate_left
      · exact fun e _ => Grows.refl _
      rintro ⟨⟩ same
      have same := not_not.mp (rejectIf_ok.mp same)
      subst same
      rw [opens] at opened
      cases opened
      exact wp_pure ⟨valid, stored found, Grows.refl _⟩
    · exact fun _ => Grows.refl _
    · exact fun _ _ _ => Grows.refl _
  · intro absent
    have absent : .segment expected.id ∉ files := fun h => absent (decide_eq_true h)
    apply wp_bind
    apply wp_processId
    apply wp_bind
    apply wp_nextTemporaryId
    dsimp only [Post.seq]
    apply wp_bind_of (persistRename_wp (by simp))
    rotate_left
    · rintro stop f p ⟨-, -, added | ⟨-, replaced⟩⟩
      · exact added.grows
      · exact replaced.grows absent
    rintro ⟨⟩ f p ⟨rfl, -, -, replaced⟩
    have grows := replaced.grows absent
    apply wp_bind_of (openFile_wp replaced.placed)
    · rintro installed g q ⟨rfl, rfl, opened⟩
      rw [opens] at opened
      cases opened
      exact wp_pure ⟨valid, stored replaced.placed, grows⟩
    · rintro stop g q ⟨rfl, -, -⟩
      exact grows

/-- What putting the segments of a source in place means; `content` says what they are. -/
def ImportOutcome (files : Files Path) (expected : List SegmentDescriptor)
    (content : List Segment → Prop) : Except (Stop Error) (List Segment) → Files Path → Prop
  | .ok imported, f => content imported ∧ List.Forall₂ (Stored f) expected imported ∧ Grows files f
  | .error _, f => Grows files f

theorem importBundle_wp {bundled : List SnapshotSegment} :
    wp oracle (Database.importBundle bundled) (fun r f _ =>
      ImportOutcome files (bundled.map (·.descriptor)) (Validates bundled) r f) files process := by
  induction bundled generalizing files process with
  | nil => exact wp_pure ⟨.nil, .nil, Grows.refl _⟩
  | cons part rest ih =>
    rw [Database.importBundle]
    apply wp_bind_of installSnapshotBytes_wp
    rotate_left
    · exact fun stop f p grows => grows
    rintro installed f p ⟨valid, stored, grows⟩
    apply wp_bind_of ih
    · rintro imported g q ⟨validRest, storedRest, further⟩
      exact wp_pure ⟨.cons valid validRest,
        .cons (stored.of_lookup fun _ => further _ _) storedRest, grows.trans further⟩
    · exact fun stop g q further => grows.trans further

theorem importFile_wp {file : SnapshotBundleFile} {parts : List FileSegment} :
    wp oracle (Database.importFile file parts) (fun r f _ =>
      ImportOutcome files (parts.map (·.descriptor)) (fun imported => ∀ content,
        files.lookup file.path = some content → FileValidates content parts imported) r f)
      files process := by
  induction parts generalizing files process with
  | nil => exact wp_pure ⟨fun _ _ => .nil, .nil, Grows.refl _⟩
  | cons part rest ih =>
    rw [Database.importFile]
    unfold SnapshotBundleFile.segmentBytes
    apply wp_bind
    apply wp_bind
    apply wp_readFile
    · intro content present
      dsimp only [Post.seq]
      apply wp_lift_last
      · intro bytes cut
        dsimp only [Post.seq]
        apply wp_bind_of installSnapshotBytes_wp
        rotate_left
        · exact fun stop f p grows => grows
        rintro installed f p ⟨valid, stored, grows⟩
        apply wp_bind_of ih
        · rintro imported g q ⟨validRest, storedRest, further⟩
          refine wp_pure ⟨?_, .cons (stored.of_lookup fun _ => further _ _) storedRest,
            grows.trans further⟩
          intro other same
          rw [present, Option.some.injEq] at same
          subst same
          exact .cons ⟨bytes, okOr_ok.mp cut, valid⟩ (validRest _ (grows _ _ present))
        · exact fun stop g q further => grows.trans further
      · exact fun e _ => Grows.refl _
    · exact fun _ => Grows.refl _
    · exact fun _ _ _ => Grows.refl _

end Segments

/-! ## The canonical order -/

/-- Segments in the order in which a manifest lists them. -/
def canonicalOrder (segments : List Segment) : List Segment :=
  segments.mergeSort fun left right => left.descriptor.order right.descriptor != .gt

omit [Platform] in
theorem descriptors_canonicalOrder (segments : List Segment) :
    (canonicalOrder segments).map (·.descriptor) =
      Manifest.sortSegments (segments.map (·.descriptor)) :=
  List.map_mergeSort fun _ _ _ _ => rfl

omit [Platform] in
theorem canonicalOrder_perm (segments : List Segment) : (canonicalOrder segments).Perm segments :=
  List.mergeSort_perm _ _

theorem stored_iff {files : Files Path} {segments : List Segment} :
    List.Forall₂ (Stored files) (segments.map (·.descriptor)) segments ↔
      ∀ s ∈ segments, Stored files s.descriptor s := by
  induction segments with
  | nil => simp
  | cons s rest ih => simp [ih]

/-! ## Installing a source -/

/-- The manifest that an installation of `source` publishes. -/
def Database.installManifest (db : Database) (source : Manifest) (at_ : Nat) : Except Error Manifest :=
  Manifest.new (db.manifest.generation + 1) (some db.manifest.digest)
    (max (max at_ db.manifest.createdAt) source.createdAt) source.durableSequence
    (source.durableSequence + 1) source.segments

/-- `next` is what an installation of `source` publishes, and `f` the directory it leaves. -/
structure Installed (f : Files Path) (db : Database) (source : Manifest) (at_ : Nat)
    (imported : List Segment) (next : Manifest) : Prop where
  new : db.installManifest source at_ = .ok next
  descriptors : imported.map (·.descriptor) = source.segments
  disk : Disk f next (canonicalOrder imported) []

/-- The database after an installation. -/
def Database.afterInstalling (source next : Manifest) (imported : List Segment) : Database :=
  { manifest := next
    wal := ⟨.wal (source.durableSequence + 1), source.durableSequence + 1, false⟩
    memtable := .atSequence source.durableSequence
    segments := imported }

section Install

variable {oracle : Oracle Path Directory} {files f : Files Path} {process : Process}
  {db : Database} {stored imported : List Segment} {pending : List WriteBatch} {at_ : Nat}
  {source next : Manifest} {content : List Segment → Prop} {importSegments : Io (List Segment)}

theorem Installed.durable (installed : Installed f db source at_ imported next) :
    next.durableSequence = source.durableSequence := (Manifest.new_ok installed.new).2.2.2.1

theorem Installed.live (installed : Installed f db source at_ imported next) :
    Live f (Database.afterInstalling source next imported) (canonicalOrder imported) [] := by
  refine ⟨installed.disk, ?_, canonicalOrder_perm imported⟩
  unfold Database.afterInstalling Database.opened
  dsimp only
  rw [installed.durable]
  rfl

/-- The directory after the files of an installation are in place. -/
theorem installed_of_switched {g h : Files Path}
    (storedG : List.Forall₂ (Stored g) source.segments imported)
    (room : source.durableSequence + 1 ≤ u64Max)
    (log : Replaced (.wal (source.durableSequence + 1)) (walBytes []) g h)
    (extended : Extends g h) (new : db.installManifest source at_ = .ok next)
    (switched : Switched h f next) : Installed f db source at_ imported next := by
  obtain ⟨validates, generation, parent, durable, start, -, segments⟩ := Manifest.new_ok new
  have descriptors := descriptors_eq storedG
  refine ⟨new, descriptors, switched.published, ?_, ?_, ?_, ?_⟩
  · rw [segments]
    exact Manifest.sortSegments_sorted _
  · rw [start, durable]
  · rw [segments, ← descriptors, ← descriptors_canonicalOrder, stored_iff]
    rw [← descriptors, stored_iff] at storedG
    intro s member
    apply (storedG s ((canonicalOrder_perm imported).mem_iff.mp member)).of_lookup
    intro bytes found
    rw [switched.others _ (by simp) (by simp), extended.segments]
    exact found
  · rw [durable]
    refine ⟨by simp [Encodable], by simp; omega, ?_, ?_⟩
    · rw [switched.others _ (by simp) (by simp), log.placed]
      rfl
    · change (walBytes []).length ≤ maxFileBytes
      rw [length_walBytes_nil]
      decide

/-- What an installation that did not return has left behind. -/
def InstallStopped (oracle : Oracle Path Directory) (files f : Files Path) (db : Database)
    (source : Manifest) (at_ : Nat) (content : List Segment → Prop) : Prop :=
  Grows files f ∨ Faulty oracle (.syncDirectory .root) ∧
    ∃ imported next, content imported ∧ Installed f db source at_ imported next

theorem installPublish_wp {g : Files Path} (published : Published g db.manifest)
    (grows : Grows files g) (storedG : List.Forall₂ (Stored g) source.segments imported)
    (isContent : content imported) :
    wp oracle (db.installPublish source imported at_ none) (fun r f _ =>
      match r with
      | .ok (manifest, db') => Installed f db source at_ imported manifest ∧
        db' = Database.afterInstalling source manifest imported
      | .error _ => InstallStopped oracle files f db source at_ content) g process := by
  unfold Database.installPublish
  apply wp_lift
  rotate_left
  · intro e failed
    cases failed
  rintro ⟨⟩ -
  apply wp_lift
  rotate_left
  · exact fun e _ => .inl grows
  intro nextSequence added
  obtain ⟨room, rfl⟩ := checkedAdd_ok.mp added
  apply wp_bind_of (successorWal_wp (by omega) room)
  rotate_left
  · rintro stop h q ⟨rfl, extended, -⟩
    exact .inl (grows.trans extended.grows)
  rintro writer h q ⟨rfl, rfl, -, log, extended⟩
  have growsH := grows.trans extended.grows
  apply wp_lift
  rotate_left
  · intro e failed
    cases failed
  rintro ⟨⟩ -
  unfold Database.nextGeneration
  apply wp_lift
  rotate_left
  · exact fun e _ => .inl growsH
  intro generation added
  obtain ⟨-, rfl⟩ := checkedAdd_ok.mp added
  apply wp_lift
  rotate_left
  · exact fun e _ => .inl growsH
  intro next new
  obtain ⟨validates, generation, parent, -⟩ := Manifest.new_ok new
  apply wp_bind_of (publish_wp (published.grows extended.grows)
    (Manifest.valid_of_validate validates) generation parent)
  · rintro pointer f p ⟨-, -, -, switched⟩
    exact wp_pure ⟨installed_of_switched storedG room log extended new switched, rfl⟩
  · rintro stop f p ⟨-, further | ⟨faulty, switched⟩⟩
    · exact .inl (growsH.trans further.grows)
    · exact .inr ⟨faulty, imported, next, isContent,
        installed_of_switched storedG room log extended new switched⟩

/-- What an installation returns and the directory it leaves. -/
def InstallOutcome (oracle : Oracle Path Directory) (files : Files Path) (db : Database)
    (source : Manifest) (at_ : Nat) (content : List Segment → Prop) :
    Except (Stop Error) (Except Error Manifest × Database) → Files Path → Prop
  | .ok (.ok manifest, db'), f =>
    db.alreadyInstalled source ∧ manifest = db.manifest ∧ db' = db ∧ f = files ∨
      ¬ db.alreadyInstalled source ∧ db.snapshot.sequence < source.durableSequence ∧
        ∃ imported, content imported ∧ Installed f db source at_ imported manifest ∧
          db' = Database.afterInstalling source manifest imported
  | .ok (.error _, db'), f => db' = db ∧ InstallStopped oracle files f db source at_ content
  | .error stop, f => stop = .crash ∧ InstallStopped oracle files f db source at_ content

theorem installInner_wp (live : Live files db stored pending)
    (imports : ∀ process, wp oracle importSegments (fun r f _ =>
      ImportOutcome files source.segments content r f) files process) :
    wp oracle (db.installInner source importSegments at_ none) (fun r f _ =>
      InstallOutcome oracle files db source at_ content r f) files process := by
  unfold Database.installInner
  apply wp_ite
  · intro already
    exact wp_pure (.inl ⟨already, rfl, rfl, rfl⟩)
  · intro new
    apply wp_bind
    apply wp_committing
    apply wp_lift
    rotate_left
    · exact fun e _ => wp_pure ⟨rfl, .inl (Grows.refl _)⟩
    rintro ⟨⟩ advances
    have advances := Nat.lt_of_not_le (rejectIf_ok.mp advances)
    apply wp_bind_of (imports process)
    rotate_left
    · rintro (e | _) f p grows
      · exact wp_pure ⟨rfl, .inl grows⟩
      · exact ⟨rfl, .inl grows⟩
    rintro imported g p ⟨isContent, storedG, grows⟩
    apply (installPublish_wp (live.disk.published.grows grows) grows storedG isContent).mono
    rintro ((e | _) | ⟨manifest, db'⟩) f q outcome
    · exact wp_pure ⟨rfl, outcome⟩
    · exact ⟨rfl, outcome⟩
    · obtain ⟨installed, rfl⟩ := outcome
      exact wp_pure (.inr ⟨new, advances, imported, isContent, installed, rfl⟩)

/-- The installation of a bundle in memory. A bundle that does not validate is rejected before
anything is touched. -/
theorem installSnapshotBundle_wp {bundle : SnapshotBundle} (live : Live files db stored pending) :
    wp oracle (db.installSnapshotBundle bundle at_) (fun r f _ =>
      InstallOutcome oracle files db bundle.sourceManifest at_
        (fun imported => bundle.validatedSegments = .ok imported) r f) files process := by
  unfold Database.installSnapshotBundle Database.installSnapshotBundleInner
  cases checked : bundle.validate with
  | error e => exact wp_pure ⟨rfl, .inl (Grows.refl _)⟩
  | ok _ =>
    obtain ⟨segments, validated, valid⟩ := SnapshotBundle.valid_of_validate checked
    apply installInner_wp live
    intro process
    apply importBundle_wp.mono
    rintro (stop | imported) f p outcome
    · exact outcome
    · obtain ⟨validates, storedF, grows⟩ := outcome
      rw [valid.descriptors] at storedF
      rw [validates_unique validates valid.validates] at storedF ⊢
      exact ⟨validated, storedF, grows⟩

/-- The installation of a bundle file. -/
theorem installSnapshotFile_wp {file : SnapshotBundleFile} (live : Live files db stored pending)
    (descriptors : file.segments.map (·.descriptor) = file.sourceManifest.segments) :
    wp oracle (db.installSnapshotFile file at_) (fun r f _ =>
      InstallOutcome oracle files db file.sourceManifest at_ (fun imported => ∀ content,
        files.lookup file.path = some content → FileValidates content file.segments imported) r f)
      files process := by
  apply installInner_wp live
  intro process
  apply importFile_wp.mono
  rintro (stop | imported) f p outcome
  · exact outcome
  · rw [descriptors] at outcome
    exact outcome

end Install
end Vyrm.Kv
