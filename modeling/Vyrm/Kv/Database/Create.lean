import Vyrm.Kv.Database.Disk
import Vyrm.Kv.Database.Publish

/-!
# Creating a database

A new database is live with no segments and an empty log. Creation succeeds on
every directory without files, unless a file operation fails.
-/

namespace Vyrm.Kv
open Lib Lib.FaultFs

variable [Platform] {oracle : Oracle Path Directory} {files : Files Path} {process : Process}

/-- The manifest of a new database. -/
def firstManifest : Manifest :=
  let manifest : Manifest :=
    { formatVersion := manifestFormatVersion, generation := 1, parent := none, createdAt := 0,
      durableSequence := 0, walStartSequence := 1, segments := [], digest := [] }
  { manifest with digest := manifest.expectedDigest }

theorem new_firstManifest : Manifest.new 1 none 0 0 1 [] = .ok firstManifest := by
  have start : ¬ (1 > saturatingAdd 0 1) := by decide
  unfold Manifest.new Manifest.validateComponents
  simp [rejectIf_of_not, start, firstManifest, Manifest.sortSegments, Manifest.validateSegments]

/-- A directory in which a database can be created. -/
def Vacant (files : Files Path) : Prop := ∀ path ∈ files, path.inRoot = false

theorem create_wp :
    wp oracle Database.create (fun r f _ =>
      match r with
      | .ok db => Vacant files ∧ db = Database.opened firstManifest [] [] ∧
        Disk f firstManifest [] [] ∧ ∀ id, .segment id ∉ f
      | .error _ => ¬ Vacant files ∨ Hindered oracle ∨
        maxFileBytes < (Platform.manifestJson.toVec firstManifest).length ∨
        maxFileBytes < (Platform.pointerJson.toVec (CurrentPointer.new firstManifest)).length)
      files process := by
  have valid := Manifest.valid_of_validate (Manifest.new_ok new_firstManifest).1
  unfold Database.create
  apply wp_bind
  apply wp_listFiles
  dsimp only [Post.seq]
  have vacant_iff : files.keys.filter Path.inRoot = [] ↔ Vacant files := by
    rw [List.filter_eq_nil_iff]
    unfold Vacant
    simp only [AList.mem_keys, Bool.not_eq_true]
  apply wp_lift
  rotate_left
  · exact fun e failed => .inl fun vacant => (rejectIf_error.mp failed).1 (vacant_iff.mpr vacant)
  rintro ⟨⟩ empty
  have vacant := vacant_iff.mp (not_not.mp (rejectIf_ok.mp empty))
  have absent : ∀ path, path.inRoot = true → path ∉ files := by
    intro path inRoot present
    rw [vacant path present] at inRoot
    cases inRoot
  apply wp_bind_of lock_wp
  rotate_left
  · rintro stop f p ⟨-, -, hindered⟩
    exact .inr (.inl hindered)
  rintro ⟨⟩ f p ⟨rfl, locked, -⟩
  have absentF : ∀ path, path ≠ .lock → path.inRoot = true → f.lookup path = none := by
    intro path different inRoot
    rw [locked.others path different]
    exact lookup_eq_none_of_notMem (absent path inRoot)
  apply wp_lift
  rotate_left
  · intro e failed
    rw [new_firstManifest] at failed
    cases failed
  intro manifest built
  rw [new_firstManifest, Except.ok.injEq] at built
  subst built
  apply wp_bind_of createAt_wp
  rotate_left
  · rintro stop g q ⟨rfl, zero | taken | hindered, -⟩
    · cases zero
    · exact absurd taken (AList.lookup_eq_none.mp (absentF _ (by simp) rfl))
    · exact .inr (.inl hindered)
  rintro writer g q ⟨rfl, -, -, rfl, rfl⟩
  have absentG : ∀ path, path ≠ .lock → path ≠ .wal 1 → path.inRoot = true →
      (f.insert (.wal 1) (walBytes [])).lookup path = none := by
    intro path notLock notWal inRoot
    rw [AList.lookup_insert_ne notWal]
    exact absentF path notLock inRoot
  have noCurrent := AList.lookup_eq_none.mp (absentG .current (by simp) (by simp) rfl)
  have noManifest := absentG (.manifest firstManifest.digest) (by simp) (by simp) rfl
  apply wp_bind_of (publish_first_wp noCurrent valid rfl rfl)
  · rintro pointer h p ⟨-, -, -, switched⟩
    refine wp_pure ⟨vacant, rfl, ⟨switched.published, List.Pairwise.nil, rfl, .nil, ?_⟩, ?_⟩
    · refine ⟨by simp [Encodable], (by decide : 0 + 0 < u64Max), ?_, ?_⟩
      · rw [switched.others _ (by simp) (by simp)]
        exact AList.lookup_insert _
      · change (walBytes []).length ≤ maxFileBytes
        rw [length_walBytes_nil]
        decide
    · intro id present
      rw [← AList.lookup_isSome, switched.others _ (by simp) (by simp),
        absentG _ (by simp) (by simp) rfl] at present
      cases present
  · rintro stop h p (obstructed | taken | hindered)
    · unfold ManifestObstructed at obstructed
      rw [noManifest] at obstructed
      rcases obstructed with taken | large
      · exact absurd taken (AList.lookup_eq_none.mp (absentG _ (by simp) (by simp) rfl))
      · exact .inr (.inr (.inl large))
    · rcases taken with taken | large
      · exact absurd taken (AList.lookup_eq_none.mp (absentG _ (by simp) (by simp) rfl))
      · exact .inr (.inr (.inr large))
    · exact .inr (.inl hindered)

/-- Syncing changes nothing. -/
theorem sync_wp {db : Database} {stored : List Segment} {pending : List WriteBatch}
    (live : Live files db stored pending) :
    wp oracle db.sync (fun r f _ => f = files ∧
      match r with
      | .ok (.ok through, db') => db' = db ∧ through = db.memtable.maximumSequence
      | .ok (.error _, db') => db' = db ∧ Hindered oracle
      | .error stop => stop = .crash) files process := by
  have maximum := live.maximumSequence
  unfold Database.sync
  apply wp_committing
  unfold WalWriter.sync
  rw [live.wal]
  apply wp_bind
  apply wp_lift
  rotate_left
  · intro e failed
    exact absurd (rejectIf_error.mp failed).1 (by simp)
  rintro ⟨⟩ -
  apply wp_bind
  apply wp_syncFile
  · apply wp_pure
    refine wp_pure ⟨rfl, rfl, ?_⟩
    rw [maximum]
    rfl
  · rintro stop (rfl | rfl) faulty
    · exact ⟨rfl, rfl⟩
    · exact ⟨rfl, rfl, faulty.hindered⟩

end Vyrm.Kv
