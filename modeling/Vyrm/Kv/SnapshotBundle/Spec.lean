import Vyrm.Kv.Database.ReadSpec
import Vyrm.Kv.Manifest.Spec

/-!
# What a snapshot bundle holds

A bundle that validates lists the segments of its manifest in the same order,
each with bytes that decode to it, and its reads are those of these segments at
the durable sequence. The same is said of a bundle file and of its content when
it is read.
-/

namespace Vyrm.Kv
open Lib Lib.FaultFs Mvcc

variable [Platform]

/-! ## Bundles in memory -/

/-- The bytes of every bundled segment validate to the segment beside it. -/
def Validates (bundled : List SnapshotSegment) (segments : List Segment) : Prop :=
  List.Forall₂ (fun part segment =>
    Segment.validateSnapshotBytes part.descriptor part.bytes = .ok segment) bundled segments

theorem validates_unique {bundled : List SnapshotSegment} {segments others : List Segment}
    (first : Validates bundled segments) (second : Validates bundled others) :
    segments = others := by
  induction first generalizing others with
  | nil =>
    cases second
    rfl
  | cons head _ ih =>
    cases second with
    | cons head' rest' =>
      rw [head, Except.ok.injEq] at head'
      rw [head', ih rest']

theorem validateEach_ok {bundled : List SnapshotSegment} {expected : List SegmentDescriptor}
    {segments : List Segment} (lengths : bundled.length = expected.length)
    (h : SnapshotBundle.validateEach (bundled.zip expected) = .ok segments) :
    bundled.map (·.descriptor) = expected ∧ Validates bundled segments := by
  induction bundled generalizing expected segments with
  | nil =>
    cases expected with
    | nil =>
      cases h
      exact ⟨rfl, .nil⟩
    | cons _ _ => cases lengths
  | cons part rest ih =>
    cases expected with
    | nil => cases lengths
    | cons first expected =>
      simp only [List.zip_cons_cons, SnapshotBundle.validateEach, except_bind_ok, rejectIf_ok,
        not_not, except_pure, Except.ok.injEq] at h
      obtain ⟨_, same, segment, valid, others, validRest, rfl⟩ := h
      obtain ⟨descriptors, validates⟩ := ih (Nat.succ.inj lengths) validRest
      rw [List.map_cons, descriptors, same]
      refine ⟨rfl, .cons ?_ validates⟩
      rw [same]
      exact valid

/-- What a bundle that validates is. -/
structure SnapshotBundle.Valid (bundle : SnapshotBundle) (segments : List Segment) : Prop where
  manifest : bundle.sourceManifest.validate = .ok ()
  start : bundle.sourceManifest.walStartSequence =
    saturatingAdd bundle.sourceManifest.durableSequence 1
  descriptors : bundle.segments.map (·.descriptor) = bundle.sourceManifest.segments
  validates : Validates bundle.segments segments

theorem SnapshotBundle.valid_of_validatedSegments {bundle : SnapshotBundle}
    {segments : List Segment} (h : bundle.validatedSegments = .ok segments) :
    bundle.Valid segments := by
  simp only [SnapshotBundle.validatedSegments, except_bind_ok, except_pure, Except.ok.injEq] at h
  obtain ⟨_, -, _, manifest, _, start, _, inventory, decoded, each, content, -, _, -, _, -, rfl⟩ := h
  have start := not_not.mp (rejectIf_ok.mp start)
  have inventory := rejectIf_ok.mp inventory
  push Not at inventory
  obtain ⟨descriptors, validates⟩ := validateEach_ok inventory.2 each
  exact ⟨manifest, start, descriptors, validates⟩

theorem SnapshotBundle.valid_of_validate {bundle : SnapshotBundle} (h : bundle.validate = .ok ()) :
    ∃ segments, bundle.validatedSegments = .ok segments ∧ bundle.Valid segments := by
  obtain ⟨segments, validated, -⟩ := except_bind_ok.mp h
  exact ⟨segments, validated, SnapshotBundle.valid_of_validatedSegments validated⟩

/-- Segments that were decoded from bytes under the descriptors of a valid manifest. -/
theorem layers_of_decoded {expected : List SegmentDescriptor} {segments : List Segment}
    {durable : Nat}
    (decoded : List.Forall₂ (fun descriptor segment => ∃ bytes,
      Segment.validateSnapshotBytes descriptor bytes = .ok segment) expected segments)
    (bounded : ∀ descriptor ∈ expected, descriptor.maximumSequence ≤ durable) :
    Database.Layers segments durable ∧ segments.map (·.descriptor) = expected := by
  induction decoded with
  | nil => exact ⟨⟨by simp, by simp⟩, rfl⟩
  | @cons descriptor segment rest segments first _ ih =>
    obtain ⟨bytes, first⟩ := first
    obtain ⟨firstBounded, bounded⟩ := List.forall_mem_cons.mp bounded
    obtain ⟨same, holds⟩ := Segment.validateSnapshotBytes_holds first
    obtain ⟨layers, descriptors⟩ := ih bounded
    refine ⟨⟨List.forall_mem_cons.mpr ⟨holds, layers.holds⟩,
      List.forall_mem_cons.mpr ⟨by rw [same]; exact firstBounded, layers.bounded⟩⟩, ?_⟩
    rw [List.map_cons, same, descriptors]

/-! ## Reads -/

/-- The pair that the selection loops carry for an answer. -/
def selectedOf (best : Option VersionedValue) : Option (Nat × Option Bytes) :=
  best.map fun v => (v.sequence, v.value)

omit [Platform] in
theorem selectNewer_selectedOf (best found : Option VersionedValue) :
    selectNewer (selectedOf best) found = selectedOf (keep best found) := by
  cases found with
  | none => simp [selectNewer]
  | some v =>
    cases best with
    | none => rfl
    | some b =>
      unfold selectNewer selectedOf keep
      simp only [Option.map_some, Option.all_some, decide_eq_true_eq, gt_iff_lt]
      change _ = Option.map _ (if b.sequence < v.sequence then some v else some b)
      split <;> rfl

/-- The selection over the segments of a bundle returns the newest version. -/
theorem selectOverSegments_spec {segments : List Segment} {durable : Nat}
    (layers : Database.Layers segments durable) (key : Bytes) (s : Nat)
    (best : Option VersionedValue) :
    selectOverSegments key s segments (selectedOf best) =
      .ok (selectedOf (keep best (newest (segments.flatMap Segment.entries) key s))) := by
  induction segments generalizing best with
  | nil =>
    have nothing : newest ([].flatMap Segment.entries) key s = none := rfl
    rw [selectOverSegments, nothing, keep_none]
    rfl
  | cons segment rest ih =>
    obtain ⟨holds, layers⟩ := layers.cons
    rw [selectOverSegments, holds.getVersion, except_ok_bind, selectNewer_selectedOf, ih layers,
      List.flatMap_cons, newest_append, keep_assoc]

theorem getMany_of_layers {segments : List Segment} {durable : Nat}
    (layers : Database.Layers segments durable) (s : Nat) (keys : List Bytes) :
    (keys.mapM fun key => do
      let selected ← selectOverSegments key s segments none
      return selected.bind (·.2) : Except Error (List (Option Bytes))) =
      .ok (keys.map fun key => Database.valueAt (segments.flatMap Segment.entries) key s) := by
  have each : ∀ key, (do
      let selected ← selectOverSegments key s segments none
      return selected.bind (·.2) : Except Error (Option Bytes)) =
      .ok (Database.valueAt (segments.flatMap Segment.entries) key s) := by
    intro key
    have := selectOverSegments_spec layers key s none
    rw [none_keep] at this
    change selectOverSegments key s segments none = _ at this
    rw [this, except_ok_bind]
    unfold Database.valueAt selectedOf
    cases newest (segments.flatMap Segment.entries) key s <;> rfl
  induction keys with
  | nil => rfl
  | cons key rest ih =>
    rw [List.mapM_cons, each, except_ok_bind, ih, except_ok_bind]
    rfl

namespace SnapshotBundle

variable {bundle : SnapshotBundle} {segments : List Segment}

theorem Valid.layers (valid : bundle.Valid segments) :
    Database.Layers segments bundle.sourceManifest.durableSequence ∧
      segments.map (·.descriptor) = bundle.sourceManifest.segments := by
  apply layers_of_decoded _ (Manifest.valid_of_validate valid.manifest).bounded
  rw [← valid.descriptors, List.forall₂_map_left_iff]
  exact valid.validates.imp fun part _ valid => ⟨part.bytes, valid⟩

/-- The point read of a bundle. -/
theorem get_eq (validated : bundle.validatedSegments = .ok segments) (key : Bytes) :
    bundle.get key = .ok (Database.valueAt (segments.flatMap Segment.entries) key
      bundle.sourceManifest.durableSequence) := by
  have layers := (valid_of_validatedSegments validated).layers.1
  unfold SnapshotBundle.get SnapshotBundle.getMany
  rw [validated, except_ok_bind, getMany_of_layers layers, except_ok_bind]
  rfl

end SnapshotBundle

/-! ## Bundle files -/

/-- The parts of a bundle file validate to the segments beside them. -/
def FileValidates (content : Bytes) (parts : List FileSegment) (segments : List Segment) : Prop :=
  List.Forall₂ (fun part segment => ∃ bytes,
    slice? content part.offset (part.offset + part.length) = some bytes ∧
      Segment.validateSnapshotBytes part.descriptor bytes = .ok segment) parts segments

namespace SnapshotBundleFile

theorem validateSegments_ok {content : Bytes} {parts : List FileSegment} {segments : List Segment} :
    validateSegments content parts = .ok segments ↔ FileValidates content parts segments := by
  induction parts generalizing segments with
  | nil =>
    constructor
    · intro h
      cases h
      exact .nil
    · intro h
      cases h
      rfl
  | cons part rest ih =>
    simp only [validateSegments, except_bind_ok, okOr_ok, except_pure, Except.ok.injEq]
    constructor
    · rintro ⟨bytes, cut, segment, valid, others, validRest, rfl⟩
      exact .cons ⟨bytes, cut, valid⟩ (ih.mp validRest)
    · intro h
      cases h with
      | cons first others =>
        obtain ⟨bytes, cut, valid⟩ := first
        exact ⟨bytes, cut, _, valid, _, ih.mpr others, rfl⟩

theorem readSegments_descriptors {content : Bytes} {contentEnd cursor stop : Nat}
    {expected : List SegmentDescriptor} {parts : List FileSegment}
    (h : readSegments content contentEnd expected cursor = .ok (parts, stop)) :
    parts.map (·.descriptor) = expected := by
  induction expected generalizing cursor parts stop with
  | nil =>
    cases h
    rfl
  | cons first rest ih =>
    simp only [readSegments, except_bind_ok, except_pure, Except.ok.injEq] at h
    obtain ⟨_, -, _, -, _, -, descriptor, -, _, same, _, -, ⟨others, cursor'⟩, later, parts_eq⟩ := h
    have same := rejectIf_ok.mp same
    push Not at same
    cases parts_eq
    rw [List.map_cons, ih later, same.1]

/-- What a bundle file is once it has been opened on `content`. -/
structure Valid (file : SnapshotBundleFile) (content : Bytes) (segments : List Segment) : Prop where
  manifest : file.sourceManifest.validate = .ok ()
  start : file.sourceManifest.walStartSequence =
    saturatingAdd file.sourceManifest.durableSequence 1
  descriptors : file.segments.map (·.descriptor) = file.sourceManifest.segments
  validates : FileValidates content file.segments segments

theorem valid_of_openBytes {path : Path} {content : Bytes} {file : SnapshotBundleFile}
    (h : openBytes path content = .ok file) : file.path = path ∧ ∃ segments, file.Valid content segments := by
  simp only [openBytes, except_bind_ok, except_pure, Except.ok.injEq] at h
  obtain ⟨_, -, _, -, _, -, _, -, _, -, _, -, _, -, source, -, _, contract, _, -, ⟨parts, cursor⟩,
    read, _, -, segments, validated, rfl⟩ := h
  simp only [validateManifestContract, except_bind_ok] at contract
  obtain ⟨_, manifest, _, start, -⟩ := contract
  exact ⟨rfl, segments, manifest, not_not.mp (rejectIf_ok.mp start), readSegments_descriptors read,
    validateSegments_ok.mp validated⟩

variable {file : SnapshotBundleFile} {content : Bytes} {segments : List Segment}

theorem Valid.layers (valid : file.Valid content segments) :
    Database.Layers segments file.sourceManifest.durableSequence ∧
      segments.map (·.descriptor) = file.sourceManifest.segments := by
  apply layers_of_decoded _ (Manifest.valid_of_validate valid.manifest).bounded
  rw [← valid.descriptors, List.forall₂_map_left_iff]
  exact valid.validates.imp fun _ _ ⟨bytes, _, valid⟩ => ⟨bytes, valid⟩

end SnapshotBundleFile

theorem fileValidates_unique {content : Bytes} {parts : List FileSegment}
    {segments others : List Segment} (first : FileValidates content parts segments)
    (second : FileValidates content parts others) : segments = others := by
  have first := SnapshotBundleFile.validateSegments_ok.mpr first
  rw [SnapshotBundleFile.validateSegments_ok.mpr second, Except.ok.injEq] at first
  exact first.symm

end Vyrm.Kv
