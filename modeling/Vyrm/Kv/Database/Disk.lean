import Vyrm.Kv.Database.ReadSpec
import Vyrm.Kv.Manifest.Spec
import Vyrm.Kv.Memtable.Replay

/-!
# The directory of a database

`Disk files manifest segments pending` says what a directory has to hold for a
database to be opened from it: the published manifest, the segment files it
names, and the active log with the batches accepted since. `Live` relates a
database in use to its directory; it is the representation invariant, and
opening a directory re-establishes it.
-/

namespace Vyrm.Kv
open Lib Lib.FaultFs Mvcc

variable [Platform]

/-! ## Segment files -/

/-- The file of a segment is there and opens to it. -/
structure Stored (files : Files Path) (expected : SegmentDescriptor) (segment : Segment) : Prop where
  descriptor : segment.descriptor = expected
  opens : ∃ bytes raw, files.lookup (.segment expected.id) = some bytes ∧
    Segment.openBytes bytes = .ok raw ∧ segment = raw.setLevel expected.level

theorem Stored.of_lookup {files files' : Files Path} {expected : SegmentDescriptor}
    {segment : Segment} (stored : Stored files expected segment)
    (kept : ∀ bytes, files.lookup (.segment expected.id) = some bytes →
      files'.lookup (.segment expected.id) = some bytes) :
    Stored files' expected segment := by
  obtain ⟨descriptor, bytes, raw, found, opens, rfl⟩ := stored
  exact ⟨descriptor, bytes, raw, kept bytes found, opens, rfl⟩

theorem Stored.holds {files : Files Path} {expected : SegmentDescriptor} {segment : Segment}
    (stored : Stored files expected segment) : ∃ entries, segment.Holds entries := by
  obtain ⟨-, bytes, raw, -, opens, rfl⟩ := stored
  obtain ⟨entries, holds⟩ := Segment.openBytes_holds opens
  exact ⟨entries, holds.setLevel _⟩

/-- The segment file determines the segment. -/
theorem Stored.unique {files : Files Path} {expected : SegmentDescriptor} {segment other : Segment}
    (stored : Stored files expected segment) (stored' : Stored files expected other) :
    segment = other := by
  obtain ⟨-, bytes, raw, found, opens, rfl⟩ := stored
  obtain ⟨-, bytes', raw', found', opens', rfl⟩ := stored'
  rw [found, Option.some.injEq] at found'
  subst found'
  rw [opens] at opens'
  cases opens'
  rfl

section Opening

variable {oracle : Oracle Path Directory} {files : Files Path} {process : Process}

theorem openFile_wp {path : Path} {bytes : Bytes} (present : files.lookup path = some bytes) :
    wp oracle (Segment.openFile path) (fun r f p => f = files ∧ p = process ∧
      match r with
      | .ok segment => Segment.openBytes bytes = .ok segment
      | .error stop => Hindered oracle ∨ ∃ e, Segment.openBytes bytes = .error e ∧ stop = .error e)
      files process := by
  unfold Segment.openFile
  apply wp_bind
  apply wp_readFile
  · intro content found
    rw [present] at found
    cases found
    apply wp_lift_last
    · exact fun segment opened => ⟨rfl, rfl, opened⟩
    · exact fun e failed => ⟨rfl, rfl, .inr ⟨e, failed, rfl⟩⟩
  · intro missing
    rw [present] at missing
    cases missing
  · exact fun stop interrupted faulty => ⟨rfl, rfl, .inl faulty.hindered⟩

/-- The segment loop of `open` returns the stored segments. -/
theorem openSegments_wp {expected : List SegmentDescriptor} {segments : List Segment}
    (stored : List.Forall₂ (Stored files) expected segments) :
    wp oracle (Database.openSegments expected) (fun r f p => f = files ∧ p = process ∧
      match r with
      | .ok opened => opened = segments
      | .error _ => Hindered oracle) files process := by
  induction stored with
  | nil => exact wp_pure ⟨rfl, rfl, rfl⟩
  | @cons expected segment rest segments first stored ih =>
    obtain ⟨descriptor, bytes, raw, found, opens, rfl⟩ := first
    rw [Database.openSegments]
    apply wp_bind_of (openFile_wp found)
    · rintro opened f p ⟨rfl, rfl, opened_eq⟩
      rw [opens] at opened_eq
      cases opened_eq
      apply wp_lift
      · rintro ⟨⟩ -
        apply wp_bind_of ih
        · rintro segments f p ⟨rfl, rfl, rfl⟩
          exact wp_pure ⟨rfl, rfl, rfl⟩
        · rintro stop f p ⟨rfl, rfl, hindered⟩
          exact ⟨rfl, rfl, hindered⟩
      · intro e failed
        exact absurd descriptor (rejectIf_error.mp failed).1
    · rintro stop f p ⟨rfl, rfl, hindered | ⟨e, failed, -⟩⟩
      · exact ⟨rfl, rfl, hindered⟩
      · rw [opens] at failed
        cases failed

end Opening

/-! ## The directory -/

/-- The log of a database: its batches, numbered from the one after the durable sequence. -/
structure LogFile (files : Files Path) (durable : Nat) (pending : List WriteBatch) : Prop where
  encodes : Encodable pending
  room : durable + (operationsOf pending).length < u64Max
  content : files.lookup (.wal (durable + 1)) = some (walBytes (logOf (durable + 1) pending))
  small : (walBytes (logOf (durable + 1) pending)).length ≤ maxFileBytes

theorem LogFile.chain {files : Files Path} {durable : Nat} {pending : List WriteBatch}
    (log : LogFile files durable pending) : Chain (durable + 1) (logOf (durable + 1) pending) :=
  chain_logOf log.encodes (by omega) (by have := log.room; omega)

theorem LogFile.next {files : Files Path} {durable : Nat} {pending : List WriteBatch}
    (log : LogFile files durable pending) :
    nextAfter (durable + 1) (logOf (durable + 1) pending) =
      durable + (operationsOf pending).length + 1 := by
  rw [nextAfter_logOf log.encodes]
  omega

theorem LogFile.recovers {files : Files Path} {durable : Nat} {pending : List WriteBatch}
    (log : LogFile files durable pending) :
    recoverBytes (walBytes (logOf (durable + 1) pending)) (durable + 1) =
      .ok ⟨placed walFileHeaderBytes (logOf (durable + 1) pending),
        durable + (operationsOf pending).length,
        (walBytes (logOf (durable + 1) pending)).length, none⟩ := by
  rw [recoverBytes_whole _ _ log.chain log.small, log.next]
  rfl

/-- A directory that a database can be opened from. -/
structure Disk (files : Files Path) (manifest : Manifest) (segments : List Segment)
    (pending : List WriteBatch) : Prop where
  published : Published files manifest
  sorted : manifest.segments.Pairwise fun a b => a.before b = true
  start : manifest.walStartSequence = manifest.durableSequence + 1
  stored : List.Forall₂ (Stored files) manifest.segments segments
  log : LogFile files manifest.durableSequence pending

/-- The database that is opened from a directory. -/
def Database.opened (manifest : Manifest) (segments : List Segment) (pending : List WriteBatch) :
    Database :=
  { manifest
    wal := ⟨.wal (manifest.durableSequence + 1),
      manifest.durableSequence + (operationsOf pending).length + 1, false⟩
    memtable := .holding manifest.durableSequence (operationsOf pending)
    segments }

/-- The files a database is opened from have kept their content. -/
structure Keeps (files files' : Files Path) (manifest : Manifest) : Prop where
  published : Published files manifest → Published files' manifest
  segment : ∀ s ∈ manifest.segments, ∀ bytes, files.lookup (.segment s.id) = some bytes →
    files'.lookup (.segment s.id) = some bytes
  log : ∀ bytes, files.lookup (.wal (manifest.durableSequence + 1)) = some bytes →
    files'.lookup (.wal (manifest.durableSequence + 1)) = some bytes

theorem keeps_of_grows {files files' : Files Path} (grows : Grows files files') (manifest : Manifest) :
    Keeps files files' manifest :=
  ⟨fun published => published.grows grows, fun _ _ bytes => grows _ bytes, fun bytes => grows _ bytes⟩

section Disk

variable {files files' : Files Path} {manifest : Manifest} {segments : List Segment}
  {pending : List WriteBatch}

theorem stored_of_kept {expected : List SegmentDescriptor}
    (stored : List.Forall₂ (Stored files) expected segments)
    (kept : ∀ s ∈ expected, ∀ bytes, files.lookup (.segment s.id) = some bytes →
      files'.lookup (.segment s.id) = some bytes) :
    List.Forall₂ (Stored files') expected segments := by
  induction stored with
  | nil => exact .nil
  | cons first _ ih =>
    obtain ⟨keptFirst, kept⟩ := List.forall_mem_cons.mp kept
    exact .cons (first.of_lookup keptFirst) (ih kept)

theorem Disk.keeps (disk : Disk files manifest segments pending)
    (keeps : Keeps files files' manifest) : Disk files' manifest segments pending :=
  { published := keeps.published disk.published
    sorted := disk.sorted
    start := disk.start
    stored := stored_of_kept disk.stored keeps.segment
    log := ⟨disk.log.encodes, disk.log.room, keeps.log _ disk.log.content, disk.log.small⟩ }

theorem Disk.grows (disk : Disk files manifest segments pending) (grows : Grows files files') :
    Disk files' manifest segments pending := disk.keeps (keeps_of_grows grows manifest)

theorem descriptors_eq {expected : List SegmentDescriptor}
    (stored : List.Forall₂ (Stored files) expected segments) :
    segments.map (·.descriptor) = expected := by
  induction stored with
  | nil => rfl
  | cons first _ ih => rw [List.map_cons, first.descriptor, ih]

theorem stored_unique {expected : List SegmentDescriptor} {others : List Segment}
    (stored : List.Forall₂ (Stored files) expected segments)
    (stored' : List.Forall₂ (Stored files) expected others) : segments = others := by
  induction stored generalizing others with
  | nil =>
    cases stored'
    rfl
  | cons first _ ih =>
    cases stored' with
    | cons first' rest' => rw [first.unique first', ih rest']

theorem Disk.layers (disk : Disk files manifest segments pending) :
    Database.Layers segments manifest.durableSequence := by
  constructor
  · intro segment member
    have each : ∀ {expected : List SegmentDescriptor} {segments : List Segment},
        List.Forall₂ (Stored files) expected segments →
        ∀ segment ∈ segments, ∃ entries, segment.Holds entries := by
      intro expected segments stored
      induction stored with
      | nil => intro segment member; cases member
      | cons first _ ih =>
        intro segment member
        rcases List.mem_cons.mp member with rfl | later
        · exact first.holds
        · exact ih segment later
    exact each disk.stored segment member
  · intro segment member
    apply disk.published.valid.bounded
    rw [← descriptors_eq disk.stored]
    exact List.mem_map_of_mem member

theorem Disk.isOver (disk : Disk files manifest segments pending) :
    (Memtable.holding manifest.durableSequence (operationsOf pending)).Over
      manifest.durableSequence :=
  Memtable.over_holding _ fun _ member => disk.log.encodes.key_ne_nil member

variable {oracle : Oracle Path Directory} {process : Process}

/-- What opening changes in a directory: the lock file is created. -/
structure Locked (files files' : Files Path) : Prop where
  grows : Grows files files'
  others : ∀ path, path ≠ .lock → files'.lookup path = files.lookup path

omit [Platform] in
theorem lock_wp : wp oracle ManifestStore.open (fun r f p => p = process ∧ Locked files f ∧
    match r with
    | .ok _ => True
    | .error _ => Hindered oracle) files process := by
  unfold ManifestStore.open
  apply wp_openCreate
  · split
    · exact ⟨rfl, ⟨Grows.refl _, fun _ _ => rfl⟩, trivial⟩
    · rename_i absent
      exact ⟨rfl, ⟨(Grows.refl _).insert absent, fun path different =>
        AList.lookup_insert_ne different⟩, trivial⟩
  · exact fun _ _ faulty => ⟨rfl, ⟨Grows.refl _, fun _ _ => rfl⟩, faulty.hindered⟩

/-- Opening a directory gives the database it describes, unless a file operation fails. -/
theorem open_wp (disk : Disk files manifest segments pending) :
    wp oracle Database.open (fun r f p => p = process ∧ Locked files f ∧
      match r with
      | .ok db => db = Database.opened manifest segments pending
      | .error _ => Hindered oracle) files process := by
  unfold Database.open
  apply wp_bind_of lock_wp
  rotate_left
  · rintro stop f p ⟨rfl, locked, hindered⟩
    exact ⟨rfl, locked, hindered⟩
  rintro ⟨⟩ f p ⟨rfl, locked, -⟩
  have disk := disk.grows locked.grows
  apply wp_bind_of (current_wp disk.published)
  rotate_left
  · rintro stop g q ⟨rfl, rfl, -, hindered⟩
    exact ⟨rfl, locked, hindered⟩
  rintro current g q ⟨rfl, rfl, rfl⟩
  dsimp only
  apply wp_bind_of (openSegments_wp disk.stored)
  rotate_left
  · rintro stop h q ⟨rfl, rfl, hindered⟩
    exact ⟨rfl, locked, hindered⟩
  rintro opened h q ⟨rfl, rfl, rfl⟩
  rw [disk.start]
  have recovers := disk.log.recovers
  apply wp_bind_of (recoverFrom_wp disk.log.content)
  rotate_left
  · rintro stop k q ⟨rfl, rfl, zero | hindered | ⟨e, failed, -⟩⟩
    · exact absurd zero (by omega)
    · exact ⟨rfl, locked, hindered⟩
    · rw [recovers] at failed
      cases failed
  rintro recovery k q ⟨rfl, rfl, -, recovered⟩
  rw [recovers] at recovered
  cases recovered
  dsimp only
  apply wp_lift
  rotate_left
  · intro e failed
    rw [Memtable.recoverFrom_placed disk.log.encodes disk.log.room] at failed
    cases failed
  intro memtable replayed
  rw [Memtable.recoverFrom_placed disk.log.encodes disk.log.room] at replayed
  cases replayed
  apply wp_bind_of (openAt_wp disk.log.content)
  · rintro writer l q ⟨rfl, rfl, -, recovery, recovered, -, rfl⟩
    rw [recovers] at recovered
    cases recovered
    exact wp_pure ⟨rfl, locked, rfl⟩
  · rintro stop l q ⟨rfl, rfl, zero | hindered | ⟨e, failed⟩ | ⟨recovery, recovered, torn | large⟩⟩
    · exact absurd zero (by omega)
    · exact ⟨rfl, locked, hindered⟩
    · rw [recovers] at failed
      cases failed
    · rw [recovers] at recovered
      cases recovered
      exact absurd rfl torn
    · rw [recovers] at recovered
      cases recovered
      have := disk.log.room
      dsimp only at large
      omega

end Disk

/-! ## Databases in use -/

/-- The representation invariant: the memtable and the log writer are what replaying the log
gives, and the segments are the stored ones in some order. -/
structure Live (files : Files Path) (db : Database) (stored : List Segment)
    (pending : List WriteBatch) : Prop where
  disk : Disk files db.manifest stored pending
  same : db = { Database.opened db.manifest stored pending with segments := db.segments }
  perm : stored.Perm db.segments

namespace Live

variable {files files' : Files Path} {db : Database} {stored : List Segment}
  {pending : List WriteBatch}

theorem wal (live : Live files db stored pending) :
    db.wal = ⟨.wal (db.manifest.durableSequence + 1),
      db.manifest.durableSequence + (operationsOf pending).length + 1, false⟩ := by
  have := congrArg Database.wal live.same
  exact this

theorem memtable (live : Live files db stored pending) :
    db.memtable = .holding db.manifest.durableSequence (operationsOf pending) := by
  have := congrArg Database.memtable live.same
  exact this

theorem keeps (live : Live files db stored pending) (keeps : Keeps files files' db.manifest) :
    Live files' db stored pending := ⟨live.disk.keeps keeps, live.same, live.perm⟩

theorem grows (live : Live files db stored pending) (grows : Grows files files') :
    Live files' db stored pending := live.keeps (keeps_of_grows grows _)

theorem opened {manifest : Manifest} (disk : Disk files manifest stored pending) :
    Live files (Database.opened manifest stored pending) stored pending :=
  ⟨disk, rfl, List.Perm.refl _⟩

/-- A live database is sound, so its read paths agree. -/
theorem sound (live : Live files db stored pending) : db.Sound := by
  have layers := live.disk.layers
  constructor
  · exact ⟨fun s member => layers.holds s (live.perm.mem_iff.mpr member),
      fun s member => layers.bounded s (live.perm.mem_iff.mpr member)⟩
  · rw [live.memtable]
    exact live.disk.isOver

theorem maximumSequence (live : Live files db stored pending) :
    db.memtable.maximumSequence =
      db.manifest.durableSequence + (operationsOf pending).length := by
  rw [live.memtable]
  rfl

end Live
end Vyrm.Kv
