import Vyrm.Kv.Database.Publish

/-!
# Flushing

Every way in which `flush_memtable` ends on a live database, under any oracle.
Until `CURRENT` is renamed the directory has only gained files; afterwards it is
the directory of the flushed database. What a flush publishes is the old
segments with one more, which holds the versions of the memtable.
-/

namespace Vyrm.Kv
open Lib Lib.FaultFs Mvcc

variable [Platform]

/-! ## The content of a flushed segment -/

/-- Everything before the footer of a segment file. -/
def bodyOf (bytes : Bytes) : Bytes := bytes.take (bytes.length - footerBytes)

/-- SHA-256 does not collide on a memtable's encoding and a file already stored under its
digest. -/
def NoCollision (files : Files Path) (table : Memtable) : Prop :=
  ∀ bytes stored, encodeV3 table = .ok bytes →
    files.lookup (.segment (segmentDigest bytes)) = some stored →
    Platform.sha256 (bodyOf stored) = Platform.sha256 (bodyOf bytes) → bodyOf stored = bodyOf bytes

theorem encodeV3_footer {table : Memtable} {bytes : Bytes} (encoded : encodeV3 table = .ok bytes) :
    bytes.drop (bytes.length - footerBytes) = segmentDigest bytes := by
  obtain ⟨groups, -, rfl⟩ := encodeV3_ok encoded
  have length : (sha256Hex (segmentContent table groups)).length = footerBytes := by
    rw [sha256Hex, length_hex, Platform.length_sha256]
    rfl
  have split : (segmentContent table groups ++ sha256Hex (segmentContent table groups)).length -
      footerBytes = (segmentContent table groups).length := by
    rw [List.length_append, length]
    omega
  rw [segmentDigest, split, List.drop_left, List.take_left]

/-- Without a collision a file found under the digest is the encoding itself. -/
theorem Written.bytes_eq {files files' : Files Path} {table : Memtable} {segment : Segment}
    {bytes : Bytes} (written : Written files files' table segment)
    (free : NoCollision files table) (encoded : encodeV3 table = .ok bytes) :
    Segment.openBytes bytes = .ok segment := by
  obtain ⟨bytes', stored, encoded', id, -, opens, source⟩ := written.file
  rw [encoded] at encoded'
  cases encoded'
  rcases source with old | ⟨-, rfl⟩
  · obtain ⟨name, footer⟩ := openBytes_id opens
    have digests : segmentDigest stored = segmentDigest bytes := by rw [← name, id]
    have bodies := free bytes stored encoded old (hex_injective digests)
    have same : stored = bytes := by
      rw [← List.take_append_drop (stored.length - footerBytes) stored, footer, digests,
        ← encodeV3_footer encoded]
      unfold bodyOf at bodies
      rw [bodies, List.take_append_drop]
    rw [← same]
    exact opens
  · exact opens

/-- A written segment holds the versions of the memtable. -/
theorem Written.entries_eq {files files' : Files Path} {table : Memtable} {segment : Segment}
    {durable : Nat} (written : Written files files' table segment) (isOver : table.Over durable)
    (u64 : table.maximumSequence ≤ u64Max) (free : NoCollision files table) :
    segment.entries = table.flatVersions := by
  obtain ⟨bytes, -, encoded, -⟩ := written.file
  have opens := written.bytes_eq free encoded
  obtain ⟨same, holds, -, opened | ⟨-, e, failed⟩⟩ := openBytes_encodeV3 isOver u64 encoded
  · rw [opens, Except.ok.injEq] at opened
    rw [opened]
    exact holds.entries_eq
  · rw [opens] at failed
    cases failed

/-! ## Obstacles -/

theorem manifestObstructed_congr {files files' : Files Path} {process process' : Process}
    {next : Manifest} (manifests : ∀ d, files'.lookup (.manifest d) = files.lookup (.manifest d))
    (temporaries : ∀ d id, files'.lookup (.manifestTemporary d id) =
      files.lookup (.manifestTemporary d id))
    (ids : process'.pointerTemporaryId = process.pointerTemporaryId) :
    ManifestObstructed files' process' next ↔ ManifestObstructed files process next := by
  have member : ∀ d id, (.manifestTemporary d id : Path) ∈ files' ↔ .manifestTemporary d id ∈ files := by
    intro d id
    rw [← AList.lookup_isSome, ← AList.lookup_isSome, temporaries]
  unfold ManifestObstructed
  rw [manifests, ids]
  split
  · exact Iff.rfl
  · rw [member]

theorem pointerObstructed_congr {files files' : Files Path} {process process' : Process}
    {next : Manifest} (manifests : ∀ d, files'.lookup (.manifest d) = files.lookup (.manifest d))
    (temporaries : ∀ id, files'.lookup (.currentTemporary id) = files.lookup (.currentTemporary id))
    (ids : process'.pointerTemporaryId = process.pointerTemporaryId) :
    PointerObstructed files' process' next ↔ PointerObstructed files process next := by
  have member : ∀ id, (.currentTemporary id : Path) ∈ files' ↔ .currentTemporary id ∈ files := by
    intro id
    rw [← AList.lookup_isSome, ← AList.lookup_isSome, temporaries]
  have present : (.manifest next.digest : Path) ∈ files' ↔ .manifest next.digest ∈ files := by
    rw [← AList.lookup_isSome, ← AList.lookup_isSome, manifests]
  have number : (manifestProcess files' process' next).pointerTemporaryId =
      (manifestProcess files process next).pointerTemporaryId := by
    unfold manifestProcess
    by_cases there : (.manifest next.digest : Path) ∈ files
    · rw [if_pos there, if_pos (present.mpr there), ids]
    · rw [if_neg there, if_neg (fun h => there (present.mp h))]
      unfold Process.tookPointerId
      dsimp only
      rw [ids]
  unfold PointerObstructed
  rw [number, member]

/-- The manifest that a flush of `db` with a new segment builds. -/
def Database.flushManifest (db : Database) (at_ : Nat) (segment : Segment) : Except Error Manifest :=
  Manifest.new (db.manifest.generation + 1) (some db.manifest.digest) at_
    db.memtable.maximumSequence (db.memtable.maximumSequence + 1)
    (db.manifest.segments ++ [segment.descriptor])

/-- The segment that writing a memtable would return: the stored one when there is one. -/
def WouldOpen (files : Files Path) (bytes : Bytes) (segment : Segment) : Prop :=
  Segment.openBytes ((files.lookup (.segment (segmentDigest bytes))).getD bytes) = .ok segment

/-- What an undisturbed flush needs of the directory. -/
structure FlushClear (files : Files Path) (process : Process) (db : Database) (at_ : Nat)
    (bytes : Bytes) (segment : Segment) (next : Manifest) : Prop where
  encoded : encodeV3 db.memtable = .ok bytes
  opens : WouldOpen files bytes segment
  generation : db.manifest.generation + 1 ≤ u64Max
  new : db.flushManifest at_ segment = .ok next
  segmentFile : ¬ SegmentObstructed files process bytes
  log : ¬ WalObstructed files (db.memtable.maximumSequence + 1)
  manifestFile : ¬ ManifestObstructed files process next
  pointer : ¬ PointerObstructed files process next

/-! ## Flushing -/

/-- `next` is what a flush of `db` publishes, and `f` the directory it leaves. -/
structure Flushed (files f : Files Path) (db : Database) (at_ : Nat) (stored : List Segment)
    (segment : Segment) (next : Manifest) (stored' : List Segment) : Prop where
  written : ∃ g, Written files g db.memtable segment
  new : db.flushManifest at_ segment = .ok next
  disk : Disk f next stored' []
  inserted : ∃ front back, stored = front ++ back ∧ stored' = front ++ segment :: back
  segments : WroteAtMost (files.erase .current) f db.memtable

/-- The database after a flush. -/
def Database.afterFlushing (db : Database) (next : Manifest) (segment : Segment) : Database :=
  { manifest := next
    wal := ⟨.wal (db.memtable.maximumSequence + 1), db.memtable.maximumSequence + 1, false⟩
    memtable := .atSequence db.memtable.maximumSequence
    segments := db.segments ++ [segment] }

section Flush

variable {oracle : Oracle Path Directory} {files f : Files Path} {process : Process}
  {db : Database} {stored stored' : List Segment} {pending : List WriteBatch} {at_ : Nat}
  {segment : Segment} {next : Manifest}

theorem Flushed.durable (flushed : Flushed files f db at_ stored segment next stored') :
    next.durableSequence = db.memtable.maximumSequence := (Manifest.new_ok flushed.new).2.2.2.1

/-- A flushed database is live on the directory that the flush leaves. -/
theorem Flushed.live (flushed : Flushed files f db at_ stored segment next stored')
    (live : Live files db stored pending) :
    Live f (db.afterFlushing next segment) stored' [] := by
  refine ⟨flushed.disk, ?_, ?_⟩
  · unfold Database.afterFlushing Database.opened
    dsimp only
    rw [flushed.durable]
    rfl
  · obtain ⟨front, back, rfl, rfl⟩ := flushed.inserted
    have moved : (front ++ segment :: back).Perm (segment :: (front ++ back)) := List.perm_middle
    have appended : (segment :: db.segments).Perm (db.segments ++ [segment]) :=
      (List.perm_append_singleton segment db.segments).symm
    exact moved.trans ((live.perm.cons segment).trans appended)

theorem Written.obstacles {g : Files Path} (written : Written files g db.memtable segment) {bytes : Bytes}
    (encoded : encodeV3 db.memtable = .ok bytes) : WouldOpen files bytes segment := by
  obtain ⟨bytes', stored, encoded', -, -, opens, source⟩ := written.file
  rw [encoded] at encoded'
  cases encoded'
  unfold WouldOpen
  rcases source with old | ⟨absent, rfl⟩
  · rw [old]
    exact opens
  · rw [lookup_eq_none_of_notMem absent]
    exact opens

/-- The directory after the three files of a flush are in place. -/
theorem Live.flushed {g h : Files Path} (live : Live files db stored pending)
    (written : Written files g db.memtable segment)
    (log : Replaced (.wal (db.memtable.maximumSequence + 1)) (walBytes []) g h)
    (extended : Extends g h) (new : db.flushManifest at_ segment = .ok next)
    (switched : Switched h f next) :
    ∃ stored', Flushed files f db at_ stored segment next stored' := by
  obtain ⟨validates, generation, parent, durable, start, -, segments⟩ := Manifest.new_ok new
  have sorted : next.segments.Pairwise fun a b => a.before b = true := by
    rw [segments]
    exact Manifest.sortSegments_sorted _
  obtain ⟨front, back, split, result⟩ :=
    Manifest.sortSegments_append_singleton segment.descriptor live.disk.sorted
  rw [← segments] at result
  have kept : ∀ id bytes, g.lookup (.segment id) = some bytes → f.lookup (.segment id) = some bytes := by
    intro id bytes found
    rw [switched.others _ (by simp) (by simp), extended.segments]
    exact found
  have storedF : List.Forall₂ (Stored f) db.manifest.segments stored :=
    stored_of_kept live.disk.stored fun s _ bytes found => kept s.id bytes (written.grows _ _ found)
  rw [split] at storedF
  have frontStored := List.forall₂_take front.length storedF
  have backStored := List.forall₂_drop front.length storedF
  rw [List.take_left] at frontStored
  rw [List.drop_left] at backStored
  have segmentStored : Stored f segment.descriptor segment :=
    written.stored.of_lookup fun bytes => kept _ bytes
  refine ⟨stored.take front.length ++ segment :: stored.drop front.length, ⟨g, written⟩, new, ?_,
    ⟨_, _, (List.take_append_drop front.length stored).symm, rfl⟩, ?_⟩
  · refine ⟨switched.published, sorted, by rw [start, durable], ?_, ?_⟩
    · rw [result]
      exact List.rel_append frontStored (.cons segmentStored backStored)
    · rw [durable]
      refine ⟨by simp [Encodable], ?_, ?_, ?_⟩
      · have room := live.disk.log.room
        rw [live.maximumSequence]
        simpa using room
      · rw [switched.others _ (by simp) (by simp), log.placed]
        rfl
      · change (walBytes []).length ≤ maxFileBytes
        rw [length_walBytes_nil]
        decide
  · have erased : Grows (files.erase .current) f := by
      intro path bytes found
      have different : path ≠ .current := by
        rintro rfl
        rw [AList.lookup_erase] at found
        cases found
      rw [AList.lookup_erase_ne different] at found
      apply switched.grows
      rw [AList.lookup_erase_ne different]
      exact extended.grows _ _ (written.grows _ _ found)
    refine ⟨erased, ?_⟩
    intro id
    rw [switched.others _ (by simp) (by simp), extended.segments, AList.lookup_erase_ne (by simp)]
    exact written.wroteAtMost.segments id

/-- What a flush that did not return a manifest has left behind. -/
def FlushStopped (oracle : Oracle Path Directory) (files f : Files Path) (db : Database) (at_ : Nat)
    (stored : List Segment) : Prop :=
  WroteAtMost files f db.memtable ∨ Faulty oracle (.syncDirectory .root) ∧
    ∃ segment next stored', Flushed files f db at_ stored segment next stored'

/-- Every way in which the publishing part of a flush ends. -/
theorem flushPublish_wp (live : Live files db stored pending) :
    wp oracle (db.flushPublish at_ none) (fun r f _ =>
      match r with
      | .ok (next, db') => ∃ segment stored', Flushed files f db at_ stored segment next stored' ∧
        db' = db.afterFlushing next segment ∧ ∃ bytes, FlushClear files process db at_ bytes segment next
      | .error _ => FlushStopped oracle files f db at_ stored ∧
        (Hindered oracle ∨ ∀ bytes segment next, ¬ FlushClear files process db at_ bytes segment next))
      files process := by
  have maximum := live.maximumSequence
  have room : db.memtable.maximumSequence + 1 ≤ u64Max := by
    have := live.disk.log.room
    omega
  unfold Database.flushPublish WalWriter.sync
  rw [live.wal]
  apply wp_bind
  apply wp_lift
  rotate_left
  · intro e failed
    exact absurd (rejectIf_error.mp failed).1 (by simp)
  rintro ⟨⟩ -
  apply wp_bind
  apply wp_syncFile
  rotate_left
  · exact fun stop _ faulty => ⟨.inl ((Extends.refl _).wroteAtMost _), .inl faulty.hindered⟩
  apply wp_pure
  dsimp only [Post.seq]
  rw [Nat.add_sub_cancel, ← maximum]
  apply wp_lift
  rotate_left
  · intro e failed
    cases failed
  rintro ⟨⟩ -
  apply wp_bind_of writeFromMemtable_wp
  rotate_left
  · rintro stop g p ⟨wrote, cause⟩
    refine ⟨.inl wrote, cause.imp_right ?_⟩
    intro obstructed bytes segment next clear
    exact clear.segmentFile (obstructed bytes clear.encoded)
  rintro segment g p ⟨written, unobstructed, ids⟩
  -- from here on the segment is fixed: it is the one a clear flush would write
  obtain ⟨bytes, -, encoded, -⟩ := id written.file
  have clear_unique : ∀ {bytes' segment' next'},
      FlushClear files process db at_ bytes' segment' next' →
      bytes' = bytes ∧ segment' = segment := by
    intro bytes' segment' next' clear
    have same := clear.encoded
    rw [encoded] at same
    cases same
    have opens := clear.opens
    unfold WouldOpen at opens
    have opens' := written.obstacles encoded
    unfold WouldOpen at opens'
    rw [opens] at opens'
    exact ⟨rfl, (Except.ok.inj opens')⟩
  have others : ∀ path, (∀ id, path ≠ .segment id) → g.lookup path = files.lookup path :=
    fun path different => written.others path (different _)
  apply wp_lift
  rotate_left
  · intro e failed
    cases failed
  rintro ⟨⟩ -
  apply wp_lift
  rotate_left
  · intro e failed
    rw [checkedAdd, if_pos room] at failed
    cases failed
  intro nextSequence added
  obtain ⟨-, rfl⟩ := checkedAdd_ok.mp added
  apply wp_bind_of (successorWal_wp (by omega) room)
  rotate_left
  · rintro stop h q ⟨rfl, extended, cause⟩
    refine ⟨.inl (written.wroteAtMost.extends extended), cause.imp_right ?_⟩
    rintro ⟨content, found, different⟩ bytes' segment' next' clear
    rw [others _ (by simp)] at found
    exact clear.log ⟨content, found, different⟩
  rintro writer h q ⟨rfl, rfl, logClear, log, extended⟩
  have logClear' : ¬ WalObstructed files (db.memtable.maximumSequence + 1) := by
    rintro ⟨content, found, different⟩
    rw [← others _ (by simp)] at found
    exact logClear ⟨content, found, different⟩
  have others' : ∀ path, (∀ id, path ≠ .segment id) → (∀ start, path ≠ .wal start) →
      h.lookup path = files.lookup path := by
    intro path notSegment notWal
    rw [log.others path (notWal _), others path notSegment]
  have wroteH : WroteAtMost files h db.memtable := written.wroteAtMost.extends extended
  apply wp_lift
  rotate_left
  · intro e failed
    cases failed
  rintro ⟨⟩ -
  unfold Database.nextGeneration
  apply wp_lift
  rotate_left
  · intro e overflow
    refine ⟨.inl wroteH, .inr ?_⟩
    intro bytes' segment' next' clear
    rw [checkedAdd, if_pos clear.generation] at overflow
    cases overflow
  intro generation added
  obtain ⟨generationBound, rfl⟩ := checkedAdd_ok.mp added
  apply wp_lift
  rotate_left
  · intro e failed
    refine ⟨.inl wroteH, .inr ?_⟩
    intro bytes' segment' next' clear
    obtain ⟨-, rfl⟩ := clear_unique clear
    have new := clear.new
    unfold Database.flushManifest at new
    rw [failed] at new
    cases new
  intro next new
  have new : db.flushManifest at_ segment = .ok next := new
  obtain ⟨validates, generation, parent, -⟩ := Manifest.new_ok new
  have published : Published h db.manifest :=
    live.disk.published.grows (written.grows.trans extended.grows)
  have manifestCongr : ManifestObstructed h q next ↔ ManifestObstructed files process next :=
    manifestObstructed_congr (fun _ => others' _ (by simp) (by simp))
      (fun _ _ => others' _ (by simp) (by simp)) ids
  have pointerCongr : PointerObstructed h q next ↔ PointerObstructed files process next :=
    pointerObstructed_congr (fun _ => others' _ (by simp) (by simp))
      (fun _ => others' _ (by simp) (by simp)) ids
  apply wp_bind_of (publish_wp published (Manifest.valid_of_validate validates) generation parent)
  · rintro pointer f p ⟨manifestClear, pointerClear, -, switched⟩
    obtain ⟨stored', flushed⟩ := live.flushed written log extended new switched
    exact wp_pure ⟨segment, stored', flushed, rfl, bytes, encoded, written.obstacles encoded,
      generationBound, new, unobstructed bytes encoded, logClear',
      fun obstructed => manifestClear (manifestCongr.mpr obstructed),
      fun obstructed => pointerClear (pointerCongr.mpr obstructed)⟩
  · rintro stop f p ⟨cause, left⟩
    refine ⟨?_, ?_⟩
    · rcases left with further | ⟨faulty, switched⟩
      · exact .inl (wroteH.extends further)
      · obtain ⟨stored', flushed⟩ := live.flushed written log extended new switched
        exact .inr ⟨faulty, segment, next, stored', flushed⟩
    · have same : ∀ {bytes' segment' next'}, FlushClear files process db at_ bytes' segment' next' →
          next' = next := by
        intro bytes' segment' next' clear
        obtain ⟨-, rfl⟩ := clear_unique clear
        have new' := clear.new
        rw [new] at new'
        exact (Except.ok.inj new').symm
      rcases cause with obstructed | obstructed | hindered
      · refine .inr fun bytes' segment' next' clear => ?_
        obtain rfl := same clear
        exact clear.manifestFile (manifestCongr.mp obstructed)
      · refine .inr fun bytes' segment' next' clear => ?_
        obtain rfl := same clear
        exact clear.pointer (pointerCongr.mp obstructed)
      · exact .inl hindered

/-- What a flush returns and the directory it leaves. -/
def FlushOutcome (oracle : Oracle Path Directory) (files : Files Path) (process : Process)
    (db : Database) (at_ : Nat) (stored : List Segment) (pending : List WriteBatch) :
    Except (Stop Error) (Except Error (Option Manifest) × Database) → Files Path → Prop
  | .ok (.ok none, db'), f => db' = db ∧ f = files ∧ operationsOf pending = []
  | .ok (.ok (some next), db'), f => operationsOf pending ≠ [] ∧ ∃ segment stored',
    Flushed files f db at_ stored segment next stored' ∧ db' = db.afterFlushing next segment ∧
      ∃ bytes, FlushClear files process db at_ bytes segment next
  | .ok (.error _, db'), f => db' = db ∧ FlushStopped oracle files f db at_ stored ∧
    (Hindered oracle ∨ operationsOf pending ≠ [] ∧
      ∀ bytes segment next, ¬ FlushClear files process db at_ bytes segment next)
  | .error stop, f => stop = .crash ∧ FlushStopped oracle files f db at_ stored

theorem flushMemtable_wp (live : Live files db stored pending) :
    wp oracle (db.flushMemtable at_)
      (fun r f _ => FlushOutcome oracle files process db at_ stored pending r f) files process := by
  have empty_iff : db.memtable.versionCount = 0 ↔ operationsOf pending = [] := by
    rw [live.memtable]
    exact Memtable.versionCount_holding_eq_zero
  unfold Database.flushMemtable Database.flushMemtableInner
  apply wp_ite
  · intro empty
    have none_ := empty_iff.mp empty
    apply wp_committing
    unfold WalWriter.sync
    rw [live.wal]
    apply wp_bind
    apply wp_lift
    rotate_left
    · intro e failed
      exact absurd (rejectIf_error.mp failed).1 (by simp)
    rintro ⟨⟩ -
    apply wp_bind
    apply wp_syncFile
    · apply wp_pure
      exact wp_pure ⟨rfl, rfl, none_⟩
    · rintro stop (rfl | rfl) faulty
      · exact ⟨rfl, .inl ((Extends.refl _).wroteAtMost _)⟩
      · exact ⟨rfl, .inl ((Extends.refl _).wroteAtMost _), .inl faulty.hindered⟩
  · intro nonempty
    have some_ : operationsOf pending ≠ [] := fun h => nonempty (empty_iff.mpr h)
    apply wp_bind
    apply wp_committing
    apply (flushPublish_wp live).mono
    rintro ((e | _) | ⟨next, db'⟩) f p outcome
    · obtain ⟨stopped, cause⟩ := outcome
      exact wp_pure ⟨rfl, stopped, cause.imp_right fun clear => ⟨some_, clear⟩⟩
    · exact ⟨rfl, outcome.1⟩
    · obtain ⟨segment, stored', flushed, rfl, clear⟩ := outcome
      exact wp_pure ⟨some_, segment, stored', flushed, rfl, clear⟩

end Flush
end Vyrm.Kv
