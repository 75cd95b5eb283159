import Vyrm.Kv.Rules

/-!
# Published manifests

What a valid manifest is, what `Manifest::new` builds, and the store protocol:
reading the published manifest back, and publishing its successor. Publication
has one point of no return, the rename of `CURRENT`; up to it every earlier file
is as it was, and after it the new manifest is the one that is read back.
-/

namespace Vyrm.Kv
open Lib Lib.FaultFs

/-! ## The canonical order of segments -/

namespace SegmentDescriptor

instance : Std.TransCmp order :=
  inferInstanceAs (Std.TransCmp (compareLex (compareOn level)
    (compareLex (compareOn firstKey) (compareOn id))))

/-- `left` may stand before `right` in a manifest. -/
def before (left right : SegmentDescriptor) : Bool := left.order right != .gt

theorem before_iff {left right : SegmentDescriptor} :
    left.before right = true ↔ (left.order right).isLE = true := by
  unfold before
  cases left.order right <;> decide

theorem before_trans (a b c : SegmentDescriptor) (h : a.before b = true) (h' : b.before c = true) :
    a.before c = true := by
  rw [before_iff] at *
  exact Std.TransCmp.isLE_trans h h'

theorem before_total (a b : SegmentDescriptor) : (a.before b || b.before a) = true := by
  rw [Bool.or_eq_true, before_iff, before_iff, @Std.OrientedCmp.eq_swap _ order _ b]
  cases a.order b <;> decide

end SegmentDescriptor

namespace Manifest

theorem sortSegments_perm (segments : List SegmentDescriptor) :
    (sortSegments segments).Perm segments := List.mergeSort_perm _ _

theorem sortSegments_sorted (segments : List SegmentDescriptor) :
    (sortSegments segments).Pairwise fun a b => a.before b = true :=
  List.pairwise_mergeSort SegmentDescriptor.before_trans SegmentDescriptor.before_total segments

theorem sortSegments_of_sorted {segments : List SegmentDescriptor}
    (sorted : segments.Pairwise fun a b => a.before b = true) : sortSegments segments = segments :=
  List.mergeSort_of_pairwise sorted

/-- Sorting one more segment into a sorted list inserts it and moves no other. -/
theorem sortSegments_append_singleton {segments : List SegmentDescriptor}
    (segment : SegmentDescriptor) (sorted : segments.Pairwise fun a b => a.before b = true) :
    ∃ front back, segments = front ++ back ∧
      sortSegments (segments ++ [segment]) = front ++ segment :: back := by
  have sub : segments.Sublist (sortSegments (segments ++ [segment])) :=
    List.sublist_mergeSort SegmentDescriptor.before_trans SegmentDescriptor.before_total sorted
      (List.sublist_append_left _ _)
  have perm := sortSegments_perm (segments ++ [segment])
  generalize sortSegments (segments ++ [segment]) = result at sub perm
  clear sorted
  induction sub with
  | slnil =>
    have length := perm.length_eq
    simp at length
  | @cons xs ys y sub ih =>
    -- `y` is the one element more, so nothing else was added
    have length := perm.length_eq
    rw [List.length_cons, List.length_append, List.length_singleton] at length
    have same : xs = ys := sub.eq_of_length (by omega)
    subst same
    have cancelled : [y].Perm [segment] := by
      have shifted : (xs ++ [y]).Perm (xs ++ [segment]) :=
        (List.perm_append_singleton y xs).trans perm
      exact (List.perm_append_left_iff xs).mp shifted
    rw [List.perm_singleton, List.singleton_inj] at cancelled
    exact ⟨[], xs, rfl, by rw [cancelled]; rfl⟩
  | @cons_cons xs ys y sub ih =>
    have perm' : ys.Perm (xs ++ [segment]) := (List.perm_cons y).mp perm
    obtain ⟨front, back, split, result⟩ := ih perm'
    exact ⟨y :: front, back, by rw [split]; rfl, by rw [result]; rfl⟩

end Manifest

variable [Platform]

/-! ## Valid manifests -/

omit [Platform] in
theorem validateSegments_ok {durable : Nat} {segments : List SegmentDescriptor} {seen : List Bytes} :
    Manifest.validateSegments durable segments seen = .ok () ↔
      (∀ s ∈ segments, s.validate = .ok () ∧ s.maximumSequence ≤ durable) ∧
        (segments.map (·.id)).Nodup ∧ ∀ s ∈ segments, s.id ∉ seen := by
  induction segments generalizing seen with
  | nil => simp [Manifest.validateSegments]
  | cons segment rest ih =>
    simp only [Manifest.validateSegments, except_bind_ok, rejectIf_ok, exists_const, ih, not_lt,
      gt_iff_lt]
    rw [List.forall_mem_cons, List.forall_mem_cons, List.map_cons, List.nodup_cons]
    constructor
    · rintro ⟨⟨⟩, valid, fresh, bounded, rest_ok, nodup, unseen⟩
      refine ⟨⟨⟨valid, bounded⟩, rest_ok⟩, ⟨?_, nodup⟩, fresh, ?_⟩
      · rintro member
        obtain ⟨s, inRest, same⟩ := List.mem_map.mp member
        exact unseen s inRest (same ▸ List.mem_cons_self)
      · exact fun s inRest old => unseen s inRest (List.mem_cons_of_mem _ old)
    · rintro ⟨⟨⟨valid, bounded⟩, rest_ok⟩, ⟨distinct, nodup⟩, fresh, unseen⟩
      refine ⟨(), valid, fresh, bounded, rest_ok, nodup, ?_⟩
      intro s inRest old
      rcases List.mem_cons.mp old with same | old
      · exact distinct (same ▸ List.mem_map_of_mem inRest)
      · exact unseen s inRest old

/-- The parts of a valid manifest that the database relies on. -/
structure Manifest.Valid (manifest : Manifest) : Prop where
  validates : manifest.validate = .ok ()
  generation : manifest.generation ≠ 0
  digest : manifest.digest = manifest.expectedDigest
  bounded : ∀ s ∈ manifest.segments, s.maximumSequence ≤ manifest.durableSequence
  distinct : (manifest.segments.map (·.id)).Nodup

theorem Manifest.valid_of_validate {manifest : Manifest} (h : manifest.validate = .ok ()) :
    manifest.Valid := by
  have validates := h
  unfold Manifest.validate at h
  simp only [except_bind_ok, rejectIf_ok, exists_const, not_not, ne_eq] at h
  obtain ⟨-, ⟨⟩, components, digest⟩ := h
  unfold Manifest.validateComponents at components
  simp only [except_bind_ok, rejectIf_ok, exists_const] at components
  obtain ⟨generation, -, -, -, -, segments⟩ := components
  obtain ⟨each, distinct, -⟩ := validateSegments_ok.mp segments
  exact ⟨validates, generation, digest, fun s member => (each s member).2, distinct⟩

theorem Manifest.Valid.isSha256_digest {manifest : Manifest} (valid : manifest.Valid) :
    isSha256 manifest.digest = true := by
  rw [valid.digest]
  exact isSha256_sha256Hex _

/-- What `Manifest::new` builds. -/
theorem Manifest.new_ok {generation createdAt durable start : Nat} {parent : Option Bytes}
    {segments : List SegmentDescriptor} {manifest : Manifest}
    (h : Manifest.new generation parent createdAt durable start segments = .ok manifest) :
    manifest.validate = .ok () ∧ manifest.generation = generation ∧ manifest.parent = parent ∧
      manifest.durableSequence = durable ∧ manifest.walStartSequence = start ∧
      manifest.createdAt = createdAt ∧ manifest.segments = sortSegments segments := by
  simp only [Manifest.new, except_bind_ok] at h
  obtain ⟨⟨⟩, components, same⟩ := h
  cases same
  refine ⟨?_, rfl, rfl, rfl, rfl, rfl, rfl⟩
  simp only [Manifest.validate, except_bind_ok, rejectIf_ok, exists_const]
  exact ⟨not_not.mpr rfl, (), components, not_not.mpr rfl⟩

/-! ## Reading the published manifest -/

theorem CurrentPointer.validate_new {manifest : Manifest} (valid : manifest.Valid) :
    (CurrentPointer.new manifest).validate = .ok () := by
  have generation := valid.generation
  have digest := valid.isSha256_digest
  simp only [CurrentPointer.validate, except_bind_ok, rejectIf_ok, exists_const]
  refine ⟨not_not.mpr rfl, ?_, not_not.mpr rfl⟩
  rintro (zero | bad | bad)
  · exact generation zero
  · exact bad digest
  · exact bad (isSha256_sha256Hex _)

/-- `CURRENT` names `manifest`, and its manifest file is there. -/
structure Published (files : Files Path) (manifest : Manifest) : Prop where
  valid : manifest.Valid
  current : files.lookup .current =
    some (Platform.pointerJson.toVec (CurrentPointer.new manifest))
  stored : files.lookup (.manifest manifest.digest) =
    some (Platform.manifestJson.toVec manifest)

theorem Published.grows {files files' : Files Path} {manifest : Manifest}
    (published : Published files manifest) (grows : Grows files files') :
    Published files' manifest :=
  ⟨published.valid, grows _ _ published.current, grows _ _ published.stored⟩

section Store

variable {oracle : Oracle Path Directory} {files : Files Path} {process : Process}
  {manifest : Manifest}

theorem load_wp (valid : manifest.Valid)
    (stored : files.lookup (.manifest manifest.digest) = some (Platform.manifestJson.toVec manifest)) :
    wp oracle (ManifestStore.load manifest.digest) (fun r f p => f = files ∧ p = process ∧
      match r with
      | .ok loaded => loaded = manifest
      | .error stop => Interrupted stop ∧ Hindered oracle) files process := by
  have accepted : ManifestStore.parseManifest manifest.digest
      (Platform.manifestJson.toVec manifest) = .ok manifest := by
    unfold ManifestStore.parseManifest
    rw [parseJson_toVec, except_ok_bind, valid.validates, except_ok_bind, rejectIf_ne_self,
      except_ok_bind]
    rfl
  unfold ManifestStore.load
  apply wp_lift
  rotate_left
  · intro e failed
    exact absurd valid.isSha256_digest (rejectIf_error.mp failed).1
  rintro ⟨⟩ -
  apply wp_bind
  apply wp_readFile
  · intro bytes found
    rw [stored, Option.some.injEq] at found
    subst found
    apply wp_lift_last
    · intro loaded parsed
      rw [accepted] at parsed
      exact ⟨rfl, rfl, (Except.ok.inj parsed).symm⟩
    · intro e failed
      rw [accepted] at failed
      cases failed
  · intro missing
    rw [stored] at missing
    cases missing
  · exact fun stop interrupted faulty => ⟨rfl, rfl, interrupted, faulty.hindered⟩

/-- The published manifest is what `current` returns. -/
theorem current_wp (published : Published files manifest) :
    wp oracle ManifestStore.current (fun r f p => f = files ∧ p = process ∧
      match r with
      | .ok current => current = some (CurrentPointer.new manifest, manifest)
      | .error stop => Interrupted stop ∧ Hindered oracle) files process := by
  unfold ManifestStore.current ManifestStore.readCurrent
  apply wp_bind
  apply wp_bind
  apply wp_attempt
  apply wp_readFile
  · intro bytes found
    rw [published.current, Option.some.injEq] at found
    subst found
    apply wp_pure
    dsimp only [Post.seq]
    apply wp_lift
    · intro pointer parsed
      rw [parseJson_toVec] at parsed
      cases parsed
      apply wp_lift
      · rintro ⟨⟩ -
        apply wp_bind_of (load_wp published.valid published.stored)
        · rintro loaded f p ⟨rfl, rfl, rfl⟩
          apply wp_lift
          · rintro ⟨⟩ -
            exact wp_pure ⟨rfl, rfl, rfl⟩
          · intro e failed
            exact absurd rfl (rejectIf_error.mp failed).1
        · rintro stop f p ⟨rfl, rfl, cause⟩
          exact ⟨rfl, rfl, cause⟩
      · intro e failed
        rw [CurrentPointer.validate_new published.valid] at failed
        cases failed
    · intro e failed
      rw [parseJson_toVec] at failed
      cases failed
  · intro missing
    rw [published.current] at missing
    cases missing
  · rintro stop (rfl | rfl) faulty
    · exact ⟨rfl, rfl, .inl rfl, faulty.hindered⟩
    · exact wp_throw ⟨rfl, rfl, .inr rfl, faulty.hindered⟩

/-! ## Publishing a successor -/

/-- The process after it has taken a number for a temporary file of the store. -/
def Process.tookPointerId (process : Process) : Process :=
  { process with pointerTemporaryId := (process.pointerTemporaryId + 1) % 2 ^ 64 }

/-- The process after the manifest file of a publication is in place. -/
def manifestProcess (files : Files Path) (process : Process) (next : Manifest) : Process :=
  if .manifest next.digest ∈ files then process else process.tookPointerId

/-- What keeps the manifest file of a publication from being put in place. -/
def ManifestObstructed (files : Files Path) (process : Process) (next : Manifest) : Prop :=
  match files.lookup (.manifest next.digest) with
  | some existing => existing ≠ Platform.manifestJson.toVec next
  | none => .manifestTemporary next.digest process.pointerTemporaryId ∈ files ∨
    maxFileBytes < (Platform.manifestJson.toVec next).length

/-- What keeps `CURRENT` from being replaced. -/
def PointerObstructed (files : Files Path) (process : Process) (next : Manifest) : Prop :=
  .currentTemporary (manifestProcess files process next).pointerTemporaryId ∈ files ∨
    maxFileBytes < (Platform.pointerJson.toVec (CurrentPointer.new next)).length

/-- `next` has become the published manifest, and nothing else has changed. -/
structure Switched (files files' : Files Path) (next : Manifest) : Prop where
  published : Published files' next
  grows : Grows (files.erase .current) files'
  others : ∀ path, path ≠ .current → path ≠ .manifest next.digest →
    files'.lookup path = files.lookup path

theorem persistManifest_wp {next : Manifest} :
    wp oracle (ManifestStore.persistManifest next) (fun r f p =>
      match r with
      | .ok _ => ¬ ManifestObstructed files process next ∧ p = manifestProcess files process next ∧
        Replaced (.manifest next.digest) (Platform.manifestJson.toVec next) files f ∧ Unmoved files f
      | .error _ => (ManifestObstructed files process next ∨ Hindered oracle) ∧ Unmoved files f)
      files process := by
  unfold ManifestStore.persistManifest
  apply wp_bind
  apply wp_pathExists
  dsimp only [Post.seq]
  apply wp_ite
  · intro present
    have present : .manifest next.digest ∈ files := of_decide_eq_true present
    apply wp_bind
    apply wp_readFile
    · intro bytes found
      apply wp_lift_last
      · rintro ⟨⟩ same
        have same := not_not.mp (rejectIf_ok.mp same)
        rw [same] at found
        refine ⟨?_, by rw [manifestProcess, if_pos present], ⟨found, fun _ _ => rfl⟩, Unmoved.refl _⟩
        unfold ManifestObstructed
        rw [found]
        exact not_not.mpr rfl
      · intro e failed
        refine ⟨.inl ?_, Unmoved.refl _⟩
        unfold ManifestObstructed
        rw [found]
        exact (rejectIf_error.mp failed).1
    · intro missing
      rw [← AList.lookup_isSome, missing] at present
      cases present
    · exact fun _ _ faulty => ⟨.inr faulty.hindered, Unmoved.refl _⟩
  · intro absent
    have absent : .manifest next.digest ∉ files := fun h => absent (decide_eq_true h)
    have missing := lookup_eq_none_of_notMem absent
    apply wp_bind
    apply wp_nextPointerTemporaryId
    dsimp only [Post.seq]
    apply (persistRename_wp (by simp)).mono
    rintro (stop | ⟨⟩) f p ⟨rfl, outcome⟩
    · dsimp only at outcome ⊢
      obtain ⟨cause, left⟩ := outcome
      refine ⟨?_, ?_⟩
      · unfold ManifestObstructed
        rw [missing]
        rcases cause with taken | large | hindered
        · exact .inl (.inl taken)
        · exact .inl (.inr large)
        · exact .inr hindered
      · rcases left with added | ⟨-, replaced⟩
        · exact added.unmoved (by simp) (by simp)
        · exact replaced.unmoved absent (by simp) (by simp)
    · obtain ⟨fresh, small, replaced⟩ := outcome
      refine ⟨?_, by rw [manifestProcess, if_neg absent]; rfl, replaced,
        replaced.unmoved absent (by simp) (by simp)⟩
      unfold ManifestObstructed
      rw [missing]
      rintro (taken | large)
      · exact fresh taken
      · omega

/-- What a publication does once it is admitted: the manifest file, then `CURRENT`. -/
theorem switch_wp {next : Manifest} (valid : next.Valid) :
    wp oracle (do
      ManifestStore.persistManifest next
      ManifestStore.publishPointer (CurrentPointer.new next)
      return CurrentPointer.new next : Io CurrentPointer) (fun r f p =>
      match r with
      | .ok _ => ¬ ManifestObstructed files process next ∧ ¬ PointerObstructed files process next ∧
        p = (manifestProcess files process next).tookPointerId ∧ Switched files f next
      | .error _ => (ManifestObstructed files process next ∨ PointerObstructed files process next ∨
          Hindered oracle) ∧
        (Unmoved files f ∨ Faulty oracle (.syncDirectory .root) ∧ Switched files f next))
      files process := by
  apply wp_bind_of persistManifest_wp
  rotate_left
  · rintro stop g q ⟨cause, grows⟩
    refine ⟨?_, .inl grows⟩
    rcases cause with obstructed | hindered
    · exact .inl obstructed
    · exact .inr (.inr hindered)
  rintro ⟨⟩ g q ⟨unobstructed, rfl, stored, grows⟩
  unfold ManifestStore.publishPointer
  apply wp_bind
  apply wp_bind
  apply wp_nextPointerTemporaryId
  dsimp only [Post.seq]
  -- no temporary of `CURRENT` has appeared since
  have temporary : ∀ id, (.currentTemporary id : Path) ∈ g ↔ .currentTemporary id ∈ files := by
    intro id
    rw [← AList.lookup_isSome, ← AList.lookup_isSome, stored.others _ (by simp)]
  have switched : ∀ h, Replaced .current (Platform.pointerJson.toVec (CurrentPointer.new next)) g h →
      Switched files h next := by
    intro h replaced
    refine ⟨⟨valid, replaced.placed, ?_⟩, ?_, ?_⟩
    · rw [replaced.others _ (by simp)]
      exact stored.placed
    · intro path bytes found
      have different : path ≠ .current := by
        rintro rfl
        rw [AList.lookup_erase] at found
        cases found
      rw [replaced.others path different]
      rw [AList.lookup_erase_ne different] at found
      exact grows.extends_.grows path bytes found
    · intro path notCurrent notManifest
      rw [replaced.others path notCurrent, stored.others path notManifest]
  apply (persistRename_wp (by simp)).mono
  rintro (stop | ⟨⟩) h p ⟨rfl, outcome⟩
  · obtain ⟨cause, left⟩ := outcome
    refine ⟨?_, ?_⟩
    · rcases cause with taken | large | hindered
      · exact .inr (.inl (.inl ((temporary _).mp taken)))
      · exact .inr (.inl (.inr large))
      · exact .inr (.inr hindered)
    · rcases left with later | ⟨faulty, replaced⟩
      · exact .inl (grows.trans (later.unmoved (by simp) (by simp)))
      · exact .inr ⟨faulty, switched h replaced⟩
  · obtain ⟨fresh, small, replaced⟩ := outcome
    apply wp_pure
    refine ⟨unobstructed, ?_, rfl, switched h replaced⟩
    rintro (taken | large)
    · exact fresh ((temporary _).mpr taken)
    · omega

/-- Every way in which a publication ends. -/
theorem publish_wp {next : Manifest} (published : Published files manifest) (valid : next.Valid)
    (generation : next.generation = manifest.generation + 1)
    (parent : next.parent = some manifest.digest) :
    wp oracle (ManifestStore.publish next (some manifest.digest)) (fun r f p =>
      match r with
      | .ok _ => ¬ ManifestObstructed files process next ∧ ¬ PointerObstructed files process next ∧
        p = (manifestProcess files process next).tookPointerId ∧ Switched files f next
      | .error _ => (ManifestObstructed files process next ∨ PointerObstructed files process next ∨
          Hindered oracle) ∧
        (Extends files f ∨ Faulty oracle (.syncDirectory .root) ∧ Switched files f next))
      files process := by
  unfold ManifestStore.publish
  apply wp_lift
  rotate_left
  · intro e failed
    rw [valid.validates] at failed
    cases failed
  rintro ⟨⟩ -
  apply wp_bind_of (current_wp published)
  rotate_left
  · rintro stop f p ⟨rfl, rfl, -, hindered⟩
    exact ⟨.inr (.inr hindered), .inl (Extends.refl _)⟩
  rintro current f p ⟨rfl, rfl, rfl⟩
  have admitted : ManifestStore.admission next (some manifest.digest)
      (some (CurrentPointer.new manifest, manifest)) = .ok () := by
    have names : (CurrentPointer.new manifest).manifest = manifest.digest := rfl
    unfold ManifestStore.admission
    dsimp only [Option.map_some]
    rw [names, rejectIf_ne_self, except_ok_bind]
    exact rejectIf_of_not (not_not.mpr ⟨generation, parent⟩)
  apply wp_lift
  rotate_left
  · intro e failed
    rw [admitted] at failed
    cases failed
  rintro ⟨⟩ -
  apply (switch_wp valid).mono
  rintro (stop | pointer) f p outcome
  · obtain ⟨cause, left⟩ := outcome
    exact ⟨cause, left.imp_left Unmoved.extends_⟩
  · exact outcome

/-- The first publication, on a directory without `CURRENT`. -/
theorem publish_first_wp {next : Manifest} (absent : .current ∉ files) (valid : next.Valid)
    (generation : next.generation = 1) (parent : next.parent = none) :
    wp oracle (ManifestStore.publish next none) (fun r f p =>
      match r with
      | .ok _ => ¬ ManifestObstructed files process next ∧ ¬ PointerObstructed files process next ∧
        p = (manifestProcess files process next).tookPointerId ∧ Switched files f next
      | .error _ => ManifestObstructed files process next ∨ PointerObstructed files process next ∨
          Hindered oracle) files process := by
  have missing := lookup_eq_none_of_notMem absent
  unfold ManifestStore.publish
  apply wp_lift
  rotate_left
  · intro e failed
    rw [valid.validates] at failed
    cases failed
  rintro ⟨⟩ -
  apply wp_bind
  unfold ManifestStore.current ManifestStore.readCurrent
  apply wp_bind
  apply wp_bind
  apply wp_attempt
  apply wp_readFile
  · intro bytes found
    rw [missing] at found
    cases found
  · intro _
    apply wp_pure
    apply wp_pure
    dsimp only [Post.seq]
    have admitted : ManifestStore.admission next none none = .ok () := by
      unfold ManifestStore.admission
      dsimp only [Option.map_none]
      rw [rejectIf_ne_self, except_ok_bind]
      exact rejectIf_of_not (not_not.mpr ⟨generation, parent⟩)
    apply wp_lift
    rotate_left
    · intro e failed
      rw [admitted] at failed
      cases failed
    rintro ⟨⟩ -
    apply (switch_wp valid).mono
    rintro (stop | pointer) f p outcome
    · exact outcome.1
    · exact outcome
  · rintro stop (rfl | rfl) faulty
    · exact .inr (.inr faulty.hindered)
    · exact wp_throw (.inr (.inr faulty.hindered))

end Store
end Vyrm.Kv
