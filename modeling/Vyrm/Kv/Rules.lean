import Vyrm.Kv.Manifest
import Vyrm.Lib.Wp

/-!
# Rules for storage operations

The rules of `Lib.Wp` for the combinators of `Platform`, and for the one way in
which manifests, pointers, checkpoints and segments are put in place: a temporary
file that is written, synced and renamed.
-/

namespace Vyrm.Kv
open Lib Lib.FaultFs

variable {α σ : Type} {oracle : Oracle Path Directory} {files : Files Path} {process : Process}

/-- The postcondition of a body whose error becomes a value. -/
@[reducible] def Post.attempted (post : Post Path Process Error (Except Error α)) :
    Post Path Process Error α
  | .ok a, f, p => post (.ok (.ok a)) f p
  | .error (.error e), f, p => post (.ok (.error e)) f p
  | .error .crash, f, p => post (.error .crash) f p

theorem wp_attempt {body : Io α} {post : Post Path Process Error (Except Error α)}
    (h : wp oracle body (Post.attempted post) files process) :
    wp oracle (attempt body) post files process := by
  intro tick
  have inner := h tick
  unfold attempt
  cases run : body ⟨files, process, oracle, tick⟩ with
  | ok a w =>
    rw [run] at inner
    exact inner
  | error stop w =>
    rw [run] at inner
    cases stop with
    | crash => exact inner
    | error e => exact inner

/-- The postcondition of the body of a `&mut self` method. -/
@[reducible] def Post.committed (self : σ) (post : Post Path Process Error (Except Error α × σ)) :
    Post Path Process Error (α × σ)
  | .ok (a, next), f, p => post (.ok (.ok a, next)) f p
  | .error (.error e), f, p => post (.ok (.error e, self)) f p
  | .error .crash, f, p => post (.error .crash) f p

theorem wp_committing {self : σ} {body : Io (α × σ)}
    {post : Post Path Process Error (Except Error α × σ)}
    (h : wp oracle body (Post.committed self post) files process) :
    wp oracle (committing self body) post files process := by
  intro tick
  have inner := h tick
  unfold committing
  cases run : body ⟨files, process, oracle, tick⟩ with
  | ok a w =>
    rw [run] at inner
    exact inner
  | error stop w =>
    rw [run] at inner
    cases stop with
    | crash => exact inner
    | error e => exact inner

theorem wp_nextTemporaryId {post : Post Path Process Error Nat}
    (h : post (.ok process.temporaryId) files
      { process with temporaryId := (process.temporaryId + 1) % 2 ^ 64 }) :
    wp oracle nextTemporaryId post files process := fun _ => ⟨rfl, h⟩

theorem wp_nextPointerTemporaryId {post : Post Path Process Error Nat}
    (h : post (.ok process.pointerTemporaryId) files
      { process with pointerTemporaryId := (process.pointerTemporaryId + 1) % 2 ^ 64 }) :
    wp oracle nextPointerTemporaryId post files process := fun _ => ⟨rfl, h⟩

theorem wp_processId {post : Post Path Process Error Nat}
    (h : post (.ok process.id) files process) :
    wp oracle processId post files process := fun _ => ⟨rfl, h⟩

theorem wp_listFiles {keep : Path → Bool} {post : Post Path Process Error (List Path)}
    (h : post (.ok (files.keys.filter keep)) files process) :
    wp oracle (ManifestStore.listFiles keep) post files process := fun _ => ⟨rfl, h⟩

/-! ## Putting a file in place -/

/-- One file has a new content, and every other file is as it was. -/
structure Replaced (target : Path) (bytes : Bytes) (files files' : Files Path) : Prop where
  placed : files'.lookup target = some bytes
  others : ∀ path, path ≠ target → files'.lookup path = files.lookup path

theorem Replaced.grows_erase {target : Path} {bytes : Bytes} {files' : Files Path}
    (replaced : Replaced target bytes files files') : Grows (files.erase target) files' := by
  intro path content found
  have different : path ≠ target := by
    rintro rfl
    rw [AList.lookup_erase] at found
    cases found
  rw [replaced.others path different]
  rwa [AList.lookup_erase_ne different] at found

/-- Putting a new file in place only adds it. -/
theorem Replaced.grows {target : Path} {bytes : Bytes} {files' : Files Path}
    (replaced : Replaced target bytes files files') (fresh : target ∉ files) :
    Grows files files' := by
  intro path content found
  have different : path ≠ target := by
    rintro rfl
    exact fresh (mem_of_lookup found)
  rw [replaced.others path different]
  exact found

/-- At most one file was added, and every other file is as it was. -/
structure Added (path : Path) (files files' : Files Path) : Prop where
  grows : Grows files files'
  others : ∀ other, other ≠ path → files'.lookup other = files.lookup other

theorem Added.refl (path : Path) (files : Files Path) : Added path files files :=
  ⟨Grows.refl _, fun _ _ => rfl⟩

theorem added_insert {path : Path} {bytes : Bytes} (fresh : path ∉ files) :
    Added path files (files.insert path bytes) :=
  ⟨(Grows.refl _).insert fresh, fun _ different => AList.lookup_insert_ne different⟩

theorem Added.erase {path : Path} {base : Files Path} (added : Added path base files)
    (fresh : path ∉ base) : Added path base (files.erase path) := by
  refine ⟨added.grows.erase fresh, ?_⟩
  intro other different
  rw [AList.lookup_erase_ne different]
  exact added.others other different

/-- Files were added, and none of them is a segment. -/
structure Extends (files files' : Files Path) : Prop where
  grows : Grows files files'
  segments : ∀ id, files'.lookup (.segment id) = files.lookup (.segment id)

theorem Extends.refl (files : Files Path) : Extends files files := ⟨Grows.refl _, fun _ => rfl⟩

theorem Extends.trans {files' files'' : Files Path} (h : Extends files files')
    (h' : Extends files' files'') : Extends files files'' :=
  ⟨h.grows.trans h'.grows, fun id => (h'.segments id).trans (h.segments id)⟩

theorem Added.extends {path : Path} {files' : Files Path} (added : Added path files files')
    (other : ∀ id, (.segment id : Path) ≠ path) : Extends files files' :=
  ⟨added.grows, fun id => added.others _ (other id)⟩

theorem Replaced.extends {target : Path} {bytes : Bytes} {files' : Files Path}
    (replaced : Replaced target bytes files files') (fresh : target ∉ files)
    (other : ∀ id, (.segment id : Path) ≠ target) : Extends files files' :=
  ⟨replaced.grows fresh, fun id => replaced.others _ (other id)⟩

/-- Files were added, and `CURRENT` names what it named. -/
structure Unmoved (files files' : Files Path) : Prop where
  extends_ : Extends files files'
  current : files'.lookup .current = files.lookup .current

theorem Unmoved.refl (files : Files Path) : Unmoved files files := ⟨Extends.refl _, rfl⟩

theorem Unmoved.trans {files' files'' : Files Path} (h : Unmoved files files')
    (h' : Unmoved files' files'') : Unmoved files files'' :=
  ⟨h.extends_.trans h'.extends_, h'.current.trans h.current⟩

theorem Added.unmoved {path : Path} {files' : Files Path} (added : Added path files files')
    (segment : ∀ id, (.segment id : Path) ≠ path) (current : .current ≠ path) :
    Unmoved files files' :=
  ⟨added.extends segment, added.others _ current⟩

theorem Replaced.unmoved {target : Path} {bytes : Bytes} {files' : Files Path}
    (replaced : Replaced target bytes files files') (fresh : target ∉ files)
    (segment : ∀ id, (.segment id : Path) ≠ target) (current : .current ≠ target) :
    Unmoved files files' :=
  ⟨replaced.extends fresh segment, replaced.others _ current⟩

/-- The cleanup of `persist_rename` removes at most the temporary, and reports the first
error. -/
theorem removeTemporary_wp {temporary : Path} {error : Error} {base : Files Path}
    (fresh : temporary ∉ base) (added : Added temporary base files) :
    wp oracle (do let _ ← attempt (removeFile temporary); throw (.error error) : Io Unit)
      (fun r f p => p = process ∧ r ≠ .ok () ∧ Added temporary base f) files process := by
  apply wp_bind
  apply wp_attempt
  apply wp_removeFile
  · intro _
    exact wp_throw ⟨rfl, by simp, added.erase fresh⟩
  · intro _
    exact wp_throw ⟨rfl, by simp, added⟩
  · rintro stop (rfl | rfl) _
    · exact ⟨rfl, by simp, added⟩
    · exact wp_throw ⟨rfl, by simp, added⟩

/-- Why `persist_rename` can fail. -/
def PersistFailure (oracle : Oracle Path Directory) (temporary : Path) (bytes : Bytes)
    (files : Files Path) : Prop :=
  temporary ∈ files ∨ maxFileBytes < bytes.length ∨ Hindered oracle

/-- Every way in which `persist_rename` ends. Until the rename has happened all earlier files are
as they were; after it the target holds the new bytes, also when the directory sync fails. -/
theorem persistRename_wp {directory : Directory} {temporary target : Path} {bytes : Bytes}
    (distinct : temporary ≠ target) :
    wp oracle (persistRename directory temporary target bytes) (fun r f p => p = process ∧
      match r with
      | .ok _ => temporary ∉ files ∧ bytes.length ≤ maxFileBytes ∧ Replaced target bytes files f
      | .error _ => PersistFailure oracle temporary bytes files ∧ (Added temporary files f ∨
        Faulty oracle (.syncDirectory directory) ∧ Replaced target bytes files f))
      files process := by
  unfold persistRename
  apply wp_bind
  apply wp_createNew
  rotate_left
  · exact fun present => ⟨rfl, .inl present, .inl (Added.refl _ _)⟩
  · exact fun _ _ faulty => ⟨rfl, .inr (.inr faulty.hindered), .inl (Added.refl _ _)⟩
  intro fresh
  apply wp_onError
  -- until the rename, whatever stops the body, the earlier files are untouched
  have stopped : ∀ stop f, PersistFailure oracle temporary bytes files → Added temporary files f →
      Post.handled oracle
      (fun error => (do let _ ← attempt (removeFile temporary); throw (.error error) : Io Unit))
      (fun r f p => p = process ∧
        match r with
        | .ok _ => temporary ∉ files ∧ bytes.length ≤ maxFileBytes ∧ Replaced target bytes files f
        | .error _ => PersistFailure oracle temporary bytes files ∧ (Added temporary files f ∨
          Faulty oracle (.syncDirectory directory) ∧ Replaced target bytes files f))
      (.error stop) f process := by
    intro stop f cause added
    cases stop with
    | crash => exact ⟨rfl, cause, .inl added⟩
    | error e =>
      apply (removeTemporary_wp fresh added).mono
      rintro (_ | _) f p ⟨rfl, ne, added⟩
      · exact ⟨rfl, cause, .inl added⟩
      · exact absurd rfl ne
  apply wp_bind
  apply wp_writeAll (AList.lookup_insert _)
  rotate_left
  · intro large
    refine stopped (.error (.io .fileTooLarge)) _ (.inr (.inl ?_)) (added_insert fresh)
    simpa using large
  · exact fun stop n _ faulty =>
      stopped stop _ (.inr (.inr faulty.hindered))
        (by rw [List.nil_append, AList.insert_insert]; exact added_insert fresh)
  intro small
  rw [List.nil_append, AList.insert_insert]
  have written : Added temporary files (files.insert temporary bytes) := added_insert fresh
  apply wp_bind
  apply wp_syncFile
  rotate_left
  · exact fun stop _ faulty => stopped stop _ (.inr (.inr faulty.hindered)) written
  apply wp_bind
  apply wp_rename (AList.lookup_insert _)
  rotate_left
  · exact fun stop _ faulty => stopped stop _ (.inr (.inr faulty.hindered)) written
  have replaced : Replaced target bytes files
      (((files.insert temporary bytes).erase temporary).insert target bytes) := by
    refine ⟨AList.lookup_insert _, ?_⟩
    intro path different
    rw [AList.lookup_insert_ne different]
    by_cases same : path = temporary
    · rw [same, AList.lookup_erase, lookup_eq_none_of_notMem fresh]
    · rw [AList.lookup_erase_ne same, AList.lookup_insert_ne same]
  apply wp_syncDirectory
  · exact ⟨rfl, fresh, by simpa using small, replaced⟩
  · intro stop interrupted faulty
    have cause : PersistFailure oracle temporary bytes files := .inr (.inr faulty.hindered)
    rcases interrupted with rfl | rfl
    · exact ⟨rfl, cause, .inr ⟨faulty, replaced⟩⟩
    · apply wp_bind
      apply wp_attempt
      apply wp_removeFile
      · intro present
        rw [AList.mem_insert, AList.mem_erase] at present
        rcases present with same | ⟨ne, _⟩
        · exact absurd same distinct
        · exact absurd rfl ne
      · intro _
        exact wp_throw ⟨rfl, cause, .inr ⟨faulty, replaced⟩⟩
      · rintro stop (rfl | rfl) _
        · exact ⟨rfl, cause, .inr ⟨faulty, replaced⟩⟩
        · exact wp_throw ⟨rfl, cause, .inr ⟨faulty, replaced⟩⟩

end Vyrm.Kv
