import Vyrm.Kv.Database.Flush
import Vyrm.Kv.Database.Merge

/-!
# Compaction

Every way in which the publishing part of a compaction ends on a live database
whose memtable is empty. Like a flush it only adds files until `CURRENT` is
renamed, and then the directory is that of the compacted database.
-/

namespace Vyrm.Kv
open Lib Lib.FaultFs Mvcc

variable [Platform] {oracle : Oracle Path Directory} {files f : Files Path} {process : Process}
  {db : Database} {stored compacted : List Segment} {pending : List WriteBatch}
  {snapshots : List Snapshot} {at_ : Nat} {next : Manifest}

/-- The versions that a compaction of `db` keeps, as the memtable it writes. -/
def Database.retainedTable (db : Database) (snapshots : List Snapshot) : Except Error Memtable := do
  let merged ← Database.mergeSegments db.segments ∅
  return ⟨Database.retain (Database.protectedSequences snapshots db.manifest.durableSequence)
    merged.toList ∅, db.manifest.durableSequence⟩

/-- The manifest that a compaction of `db` publishes. -/
def Database.compactManifest (db : Database) (at_ : Nat) (compacted : List Segment) :
    Except Error Manifest :=
  Manifest.new (db.manifest.generation + 1) (some db.manifest.digest) at_
    db.manifest.durableSequence db.manifest.walStartSequence (compacted.map (·.descriptor))

/-- The segments that the retained versions were written to: none, or one. -/
def CompactedTo (files files' : Files Path) (table : Memtable) (compacted : List Segment) : Prop :=
  table.versions.isEmpty = true ∧ compacted = [] ∧ files' = files ∨
    ∃ segment level, Written files files' table segment ∧ table.Over 0 ∧
      compacted = [segment.setLevel level]

/-- `next` is what a compaction of `db` publishes, and `f` the directory it leaves. -/
structure Compacted (files f : Files Path) (db : Database) (snapshots : List Snapshot) (at_ : Nat)
    (pending : List WriteBatch) (next : Manifest) (compacted : List Segment) : Prop where
  wrote : ∃ table g, db.retainedTable snapshots = .ok table ∧ CompactedTo files g table compacted
  new : db.compactManifest at_ compacted = .ok next
  disk : Disk f next compacted pending

/-- The database after a compaction. -/
def Database.afterCompacting (db : Database) (next : Manifest) (compacted : List Segment) :
    Database :=
  { db with segments := compacted, manifest := next }

theorem Compacted.durable (compaction : Compacted files f db snapshots at_ pending next compacted) :
    next.durableSequence = db.manifest.durableSequence := (Manifest.new_ok compaction.new).2.2.2.1

/-- A compacted database is live on the directory that the compaction leaves. -/
theorem Compacted.live (compaction : Compacted files f db snapshots at_ pending next compacted)
    (live : Live files db stored pending) :
    Live f (db.afterCompacting next compacted) compacted pending := by
  refine ⟨compaction.disk, ?_, List.Perm.refl _⟩
  have same := live.same
  unfold Database.afterCompacting Database.opened
  dsimp only
  rw [compaction.durable]
  unfold Database.opened at same
  rw [same]

/-- What survives a compaction. -/
theorem Compacted.retains (compaction : Compacted files f db snapshots at_ pending next compacted)
    (live : Live files db stored pending)
    (free : ∀ table, db.retainedTable snapshots = .ok table → NoCollision files table) :
    (∀ key, Agree (versionsOf key (db.segments.flatMap Segment.entries))) ∧
      Retains (· ∈ Database.protectedSequences snapshots db.manifest.durableSequence)
        (fun v : VersionedValue => v.value.isSome) (db.segments.flatMap Segment.entries)
        (compacted.flatMap Segment.entries) := by
  obtain ⟨table, g, retained, to_⟩ := compaction.wrote
  have free := free table retained
  simp only [Database.retainedTable, except_bind_ok, except_pure, Except.ok.injEq] at retained
  obtain ⟨merged, joined, rfl⟩ := retained
  have layers := live.sound.layers
  refine ⟨Database.agree_of_merged layers joined, ?_⟩
  have kept := Database.retain_spec layers joined
    (Database.protectedSequences snapshots db.manifest.durableSequence)
  rcases to_ with ⟨empty, rfl, -⟩ | ⟨segment, level, written, isOver, rfl⟩
  · have none_ : Memtable.flatVersions ⟨Database.retain (Database.protectedSequences snapshots
        db.manifest.durableSequence) merged.toList ∅, db.manifest.durableSequence⟩ = [] := by
      rw [Memtable.flatVersions_eq_nil_iff]
      unfold Memtable.versionCount
      rw [Memtable.values_eq_map_toList, List.isEmpty_iff.mp (Std.TreeMap.isEmpty_toList.trans empty)]
      rfl
    rw [none_] at kept
    exact kept
  · have room : db.manifest.durableSequence ≤ u64Max := by
      have := live.disk.log.room
      omega
    have content := written.entries_eq isOver room free
    have leveled : (segment.setLevel level).entries = segment.entries := by
      obtain ⟨entries, holds⟩ := written.stored.holds
      rw [(holds.setLevel level).entries_eq, holds.entries_eq]
    rw [List.flatMap_singleton, leveled, content]
    exact kept

/-- The directory after the files of a compaction are in place. -/
theorem Live.compaction {g : Files Path} {table : Memtable} (live : Live files db stored pending)
    (retained : db.retainedTable snapshots = .ok table)
    (to_ : CompactedTo files g table compacted) (new : db.compactManifest at_ compacted = .ok next)
    (switched : Switched g f next) :
    Compacted files f db snapshots at_ pending next compacted := by
  obtain ⟨validates, generation, parent, durable, start, -, segments⟩ := Manifest.new_ok new
  have grows : Grows files g := by
    rcases to_ with ⟨-, -, rfl⟩ | ⟨segment, level, written, -, -⟩
    · exact Grows.refl _
    · exact written.grows
  have order : next.segments = compacted.map (·.descriptor) := by
    rw [segments]
    apply Manifest.sortSegments_of_sorted
    rcases to_ with ⟨-, rfl, -⟩ | ⟨segment, level, -, -, rfl⟩
    · exact List.Pairwise.nil
    · exact List.pairwise_singleton _ _
  refine ⟨⟨table, g, retained, to_⟩, new, switched.published, ?_, ?_, ?_, ?_⟩
  · rw [segments]
    exact Manifest.sortSegments_sorted _
  · rw [start, durable, live.disk.start]
  · rw [order]
    rcases to_ with ⟨-, rfl, -⟩ | ⟨segment, level, written, -, rfl⟩
    · exact .nil
    · refine .cons ⟨rfl, ?_⟩ .nil
      obtain ⟨bytes, content, -, name, found, opens, -⟩ := written.file
      refine ⟨content, segment, ?_, opens, rfl⟩
      have same : (segment.setLevel level).descriptor.id = segmentDigest bytes := name
      rw [same, switched.others _ (by simp) (by simp)]
      exact found
  · rw [durable]
    refine ⟨live.disk.log.encodes, live.disk.log.room, ?_, live.disk.log.small⟩
    rw [switched.others _ (by simp) (by simp)]
    exact grows _ _ live.disk.log.content

/-- What a compaction that did not return has left behind. -/
def CompactStopped (oracle : Oracle Path Directory) (files f : Files Path) (db : Database)
    (snapshots : List Snapshot) (at_ : Nat) (pending : List WriteBatch) : Prop :=
  Grows files f ∨ Faulty oracle (.syncDirectory .root) ∧
    ∃ next compacted, Compacted files f db snapshots at_ pending next compacted

theorem writeCompacted_wp (table : Memtable)
    (same : table.maximumSequence = db.manifest.durableSequence) :
    wp oracle (db.writeCompacted table.versions) (fun r g _ =>
      match r with
      | .ok compacted => CompactedTo files g table compacted
      | .error _ => Grows files g) files process := by
  unfold Database.writeCompacted
  apply wp_ite
  · intro empty
    exact wp_pure (.inl ⟨empty, rfl, rfl⟩)
  · intro _
    apply wp_lift
    rotate_left
    · exact fun e _ => Grows.refl _
    intro built accepted
    obtain ⟨rfl, isOver⟩ := Database.over_of_fromVersions accepted
    rw [← same] at isOver ⊢
    apply wp_bind_of writeFromMemtable_wp
    · rintro segment g p ⟨written, -⟩
      exact wp_pure (.inr ⟨segment, _, written, isOver, rfl⟩)
    · rintro stop g p ⟨wrote, -⟩
      exact wrote.grows

/-- Every way in which the publishing part of a compaction ends. -/
theorem compactPublish_wp (live : Live files db stored pending) :
    wp oracle (db.compactPublish snapshots at_ none) (fun r f _ =>
      match r with
      | .ok (_, db') => ∃ next compacted,
        Compacted files f db snapshots at_ pending next compacted ∧
          db' = db.afterCompacting next compacted
      | .error _ => CompactStopped oracle files f db snapshots at_ pending) files process := by
  unfold Database.compactPublish
  apply wp_lift
  rotate_left
  · exact fun e _ => .inl (Grows.refl _)
  intro merged joined
  have retained : db.retainedTable snapshots = .ok
      ⟨Database.retain (Database.protectedSequences snapshots db.manifest.durableSequence)
        merged.toList ∅, db.manifest.durableSequence⟩ := by
    unfold Database.retainedTable
    rw [joined]
    rfl
  dsimp only
  apply wp_bind_of (writeCompacted_wp ⟨Database.retain (Database.protectedSequences snapshots
    db.manifest.durableSequence) merged.toList ∅, db.manifest.durableSequence⟩ rfl)
  rotate_left
  · exact fun stop g p grows => .inl grows
  intro compacted g p to_
  have grows : Grows files g := by
    rcases to_ with ⟨-, -, rfl⟩ | ⟨segment, level, written, -, -⟩
    · exact Grows.refl _
    · exact written.grows
  apply wp_lift
  rotate_left
  · intro e failed
    cases failed
  rintro ⟨⟩ -
  unfold Database.nextGeneration
  apply wp_lift
  rotate_left
  · exact fun e _ => .inl grows
  intro generation added
  obtain ⟨-, rfl⟩ := checkedAdd_ok.mp added
  apply wp_lift
  rotate_left
  · exact fun e _ => .inl grows
  intro next new
  obtain ⟨validates, generation, parent, -⟩ := Manifest.new_ok new
  have published : Published g db.manifest := live.disk.published.grows grows
  apply wp_bind_of (publish_wp published (Manifest.valid_of_validate validates) generation parent)
  · rintro pointer f p ⟨-, -, -, switched⟩
    exact wp_pure ⟨next, compacted, live.compaction retained to_ new switched, rfl⟩
  · rintro stop f p ⟨-, further | ⟨faulty, switched⟩⟩
    · exact .inl (grows.trans further.grows)
    · exact .inr ⟨faulty, next, compacted, live.compaction retained to_ new switched⟩

end Vyrm.Kv
