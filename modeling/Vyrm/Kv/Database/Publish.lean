import Vyrm.Kv.Database.Disk
import Vyrm.Kv.Segment.RoundTrip

/-!
# Preparing a publication

The two files that a flush or an installation puts in place before it publishes
a manifest: the segment a memtable is written to, and the successor log. Both
only add to the directory, and for each of them the exact obstacles are named
that make an undisturbed attempt fail.
-/

namespace Vyrm.Kv
open Lib Lib.FaultFs

variable [Platform]

/-! ## Identities of segment files -/

theorem validateV3Blocks_id {source : Bytes} {descriptor : SegmentDescriptor}
    {blocks : List BlockDescriptor} {declared : Nat}
    {result : SegmentDescriptor × List BlockDescriptor}
    (h : validateV3Blocks source descriptor blocks declared = .ok result) :
    result.1.id = descriptor.id := by
  unfold validateV3Blocks at h
  simp only [except_bind_ok, rejectIf_ok, exists_const] at h
  obtain ⟨scan, -, -, same⟩ := h
  cases same
  rfl

theorem readV3Metadata_id {source actual : Bytes}
    {result : SegmentDescriptor × List BlockDescriptor}
    (h : readV3Metadata source actual = .ok result) : result.1.id = actual := by
  unfold readV3Metadata at h
  simp only [except_bind_ok] at h
  obtain ⟨_, _, _, _, _, _, _, _, _, _, _, _, _, _, _, _, ⟨_, _, _⟩, _, _, _, valid⟩ := h
  exact validateV3Blocks_id valid

theorem verifyDigest_ok {bytes actual : Bytes} (h : verifyDigest bytes = .ok actual) :
    actual = segmentDigest bytes ∧ bytes.drop (bytes.length - footerBytes) = actual := by
  unfold verifyDigest at h
  dsimp only at h
  split at h
  · rename_i same
    cases h
    exact ⟨rfl, same⟩
  · split at h <;> cases h

/-- A segment is named by the digest of its file. -/
theorem openBytes_id {bytes : Bytes} {segment : Segment} (h : Segment.openBytes bytes = .ok segment) :
    segment.descriptor.id = segmentDigest bytes ∧
      bytes.drop (bytes.length - footerBytes) = segmentDigest bytes := by
  unfold Segment.openBytes at h
  simp only [except_bind_ok, rejectIf_ok, exists_const] at h
  obtain ⟨-, -, h⟩ := h
  split at h
  · unfold decodeV3File at h
    simp only [except_bind_ok] at h
    obtain ⟨actual, verified, ⟨descriptor, blocks⟩, metadata, same⟩ := h
    obtain ⟨rfl, footer⟩ := verifyDigest_ok verified
    cases same
    exact ⟨readV3Metadata_id metadata, footer⟩
  · unfold decodeLegacy at h
    simp only [except_bind_ok, rejectIf_ok, exists_const] at h
    obtain ⟨-, header, -, -, actual, verified, records, -, ⟨_, _, _⟩, -, same⟩ := h
    obtain ⟨rfl, footer⟩ := verifyDigest_ok verified
    cases same
    exact ⟨rfl, footer⟩

/-! ## Writing a segment -/

/-- The process after it has taken a number for a temporary segment file. -/
def Process.tookTemporaryId (process : Process) : Process :=
  { process with temporaryId := (process.temporaryId + 1) % 2 ^ 64 }

/-- What keeps an encoded segment from being put in place. -/
def SegmentObstructed (files : Files Path) (process : Process) (bytes : Bytes) : Prop :=
  match files.lookup (.segment (segmentDigest bytes)) with
  | some stored => ∀ segment, Segment.openBytes stored = .ok segment →
    segment.descriptor.id ≠ segmentDigest bytes
  | none => .segmentTemporary (segmentDigest bytes) process.id process.temporaryId ∈ files ∨
    maxFileBytes < bytes.length ∨ ∀ segment, Segment.openBytes bytes ≠ .ok segment

/-- The segment that a memtable was written to, or found in place of it. -/
structure Written (files files' : Files Path) (table : Memtable) (segment : Segment) : Prop where
  file : ∃ bytes stored, encodeV3 table = .ok bytes ∧
    segment.descriptor.id = segmentDigest bytes ∧
    files'.lookup (.segment (segmentDigest bytes)) = some stored ∧
    Segment.openBytes stored = .ok segment ∧
    (files.lookup (.segment (segmentDigest bytes)) = some stored ∨
      .segment (segmentDigest bytes) ∉ files ∧ stored = bytes)
  grows : Grows files files'
  others : ∀ path, path ≠ .segment segment.descriptor.id → files'.lookup path = files.lookup path

theorem Written.stored {files files' : Files Path} {table : Memtable} {segment : Segment}
    (written : Written files files' table segment) : Stored files' segment.descriptor segment := by
  obtain ⟨bytes, stored, -, id, found, opens, -⟩ := written.file
  exact ⟨rfl, stored, segment, by rw [id]; exact found, opens, rfl⟩

section Write

variable {oracle : Oracle Path Directory} {files : Files Path} {process : Process}

/-- The segment files that writing a segment can leave behind: those that were there, and its
own with the whole content. -/
structure WroteAtMost (files files' : Files Path) (table : Memtable) : Prop where
  grows : Grows files files'
  segments : ∀ id, files'.lookup (.segment id) = files.lookup (.segment id) ∨
    ∃ bytes, encodeV3 table = .ok bytes ∧ id = segmentDigest bytes ∧
      files'.lookup (.segment id) = some bytes

theorem Extends.wroteAtMost {files files' : Files Path} (extends_ : Extends files files')
    (table : Memtable) : WroteAtMost files files' table :=
  ⟨extends_.grows, fun id => .inl (extends_.segments id)⟩

theorem WroteAtMost.extends {files files' files'' : Files Path} {table : Memtable}
    (wrote : WroteAtMost files files' table) (extends_ : Extends files' files'') :
    WroteAtMost files files'' table := by
  refine ⟨wrote.grows.trans extends_.grows, ?_⟩
  intro id
  rw [extends_.segments]
  exact wrote.segments id

theorem wroteAtMost_of_replaced {files files' : Files Path} {table : Memtable} {bytes : Bytes}
    (encoded : encodeV3 table = .ok bytes) (absent : .segment (segmentDigest bytes) ∉ files)
    (replaced : Replaced (.segment (segmentDigest bytes)) bytes files files') :
    WroteAtMost files files' table := by
  refine ⟨replaced.grows absent, ?_⟩
  intro id
  by_cases same : id = segmentDigest bytes
  · rw [same]
    exact .inr ⟨bytes, encoded, rfl, replaced.placed⟩
  · exact .inl (replaced.others _ (by simpa using same))

theorem Written.wroteAtMost {files files' : Files Path} {table : Memtable} {segment : Segment}
    (written : Written files files' table segment) : WroteAtMost files files' table := by
  refine ⟨written.grows, ?_⟩
  intro id
  obtain ⟨bytes, stored, encoded, name, found, -, source⟩ := written.file
  by_cases same : id = segmentDigest bytes
  · rw [same]
    rcases source with old | ⟨-, rfl⟩
    · exact .inl (by rw [found, old])
    · exact .inr ⟨stored, encoded, rfl, found⟩
  · exact .inl (written.others _ (by rw [name]; simpa using same))

/-- Every way in which writing a segment ends. -/
theorem writeFromMemtable_wp {table : Memtable} :
    wp oracle (Segment.writeFromMemtable table) (fun r f p =>
      match r with
      | .ok segment => Written files f table segment ∧
        (∀ bytes, encodeV3 table = .ok bytes → ¬ SegmentObstructed files process bytes) ∧
        p.pointerTemporaryId = process.pointerTemporaryId
      | .error _ => WroteAtMost files f table ∧ (Hindered oracle ∨ ∀ bytes, encodeV3 table = .ok bytes →
        SegmentObstructed files process bytes)) files process := by
  unfold Segment.writeFromMemtable
  apply wp_lift
  rotate_left
  · intro e failed
    refine ⟨(Extends.refl _).wroteAtMost _, .inr ?_⟩
    intro bytes encoded
    rw [failed] at encoded
    cases encoded
  intro bytes encoded
  have only : ∀ {P : Bytes → Prop}, P bytes → ∀ other, encodeV3 table = .ok other → P other := by
    intro P holds other encoded'
    rw [encoded] at encoded'
    cases encoded'
    exact holds
  apply wp_bind
  apply wp_pathExists
  dsimp only [Post.seq]
  apply wp_ite
  · intro present
    have present : .segment (segmentDigest bytes) ∈ files := of_decide_eq_true present
    obtain ⟨stored, found⟩ := Option.isSome_iff_exists.mp (AList.lookup_isSome.mpr present)
    have obstructed_iff : SegmentObstructed files process bytes ↔ ∀ segment,
        Segment.openBytes stored = .ok segment → segment.descriptor.id ≠ segmentDigest bytes := by
      unfold SegmentObstructed
      rw [found]
    apply wp_bind_of (openFile_wp found)
    · rintro segment f p ⟨rfl, rfl, opens⟩
      apply wp_lift
      · rintro ⟨⟩ same
        have same := not_not.mp (rejectIf_ok.mp same)
        apply wp_pure
        refine ⟨⟨⟨bytes, stored, encoded, same, found, opens, .inl found⟩, Grows.refl _,
          fun _ _ => rfl⟩, ?_, rfl⟩
        exact only (P := fun bytes => ¬ SegmentObstructed f p bytes)
          (fun obstructed => obstructed_iff.mp obstructed segment opens same)
      · intro e failed
        refine ⟨(Extends.refl _).wroteAtMost _, .inr (only (P := SegmentObstructed f p) (obstructed_iff.mpr ?_))⟩
        intro other opens'
        rw [opens] at opens'
        cases opens'
        exact (rejectIf_error.mp failed).1
    · rintro stop f p ⟨rfl, rfl, hindered | ⟨e, failed, -⟩⟩
      · exact ⟨(Extends.refl _).wroteAtMost _, .inl hindered⟩
      · refine ⟨(Extends.refl _).wroteAtMost _, .inr (only (P := SegmentObstructed f p) (obstructed_iff.mpr ?_))⟩
        intro other opens
        rw [failed] at opens
        cases opens
  · intro absent
    have absent : .segment (segmentDigest bytes) ∉ files := fun h => absent (decide_eq_true h)
    have obstructed_iff : SegmentObstructed files process bytes ↔
        .segmentTemporary (segmentDigest bytes) process.id process.temporaryId ∈ files ∨
        maxFileBytes < bytes.length ∨ ∀ segment, Segment.openBytes bytes ≠ .ok segment := by
      unfold SegmentObstructed
      rw [lookup_eq_none_of_notMem absent]
    apply wp_bind
    apply wp_processId
    dsimp only [Post.seq]
    apply wp_bind
    apply wp_nextTemporaryId
    dsimp only [Post.seq]
    apply wp_bind_of (persistRename_wp (by simp))
    · rintro ⟨⟩ f p ⟨rfl, fresh, small, replaced⟩
      apply (openFile_wp replaced.placed).mono
      rintro (stop | segment) g q ⟨rfl, rfl, outcome⟩
      · refine ⟨wroteAtMost_of_replaced encoded absent replaced, ?_⟩
        rcases outcome with hindered | ⟨e, failed, -⟩
        · exact .inl hindered
        · refine .inr (only (P := SegmentObstructed files process)
            (obstructed_iff.mpr (.inr (.inr ?_))))
          intro segment opens
          rw [failed] at opens
          cases opens
      · have id := (openBytes_id outcome).1
        refine ⟨⟨⟨bytes, bytes, encoded, id, replaced.placed, outcome, .inr ⟨absent, rfl⟩⟩,
          replaced.grows absent, ?_⟩, ?_, rfl⟩
        · rw [id]
          exact replaced.others
        · refine only (P := fun bytes => ¬ SegmentObstructed files process bytes) ?_
          rw [obstructed_iff]
          rintro (taken | large | unopened)
          · exact fresh taken
          · omega
          · exact unopened segment outcome
    · rintro stop f p ⟨rfl, cause, left⟩
      refine ⟨?_, ?_⟩
      · rcases left with added | ⟨-, replaced⟩
        · exact (added.extends (by simp)).wroteAtMost _
        · exact wroteAtMost_of_replaced encoded absent replaced
      · rcases cause with taken | large | hindered
        · exact .inr (only (P := SegmentObstructed files process) (obstructed_iff.mpr (.inl taken)))
        · exact .inr (only (P := SegmentObstructed files process)
            (obstructed_iff.mpr (.inr (.inl large))))
        · exact .inl hindered

end Write

/-! ## Successor logs -/

theorem validateFileHeader_ok {header : Bytes} (length : header.length = walFileHeaderBytes)
    (h : validateFileHeader header = .ok ()) : header = fileHeader := by
  have length : header.length = 16 := length
  unfold validateFileHeader at h
  simp only [except_bind_ok, rejectIf_ok, exists_const, not_not, ne_eq] at h
  obtain ⟨magic, version, headerLen, checksum⟩ := h
  have field : ∀ first last n, last ≤ header.length → ofBE (slice header first last) = n →
      slice header first last = toBE (last - first) n := by
    intro first last n inside value
    rw [← value, ← length_slice inside, toBE_ofBE]
  have versionBytes := field 8 10 _ (by omega) version
  have lengthBytes := field 10 12 _ (by omega) headerLen
  have rest12 : slice header 8 12 = toBE 2 walFormatVersion ++ toBE 2 walFileHeaderBytes := by
    rw [← slice_append_slice 10 (by omega) (by omega), versionBytes, lengthBytes]
  have first12 : slice header 0 12 = fileHeaderFields := by
    rw [← slice_append_slice 8 (by omega) (by omega), magic, rest12]
    rfl
  have checksumBytes := field 12 16 _ (by omega) checksum.symm
  have whole : header = slice header 0 16 := by
    conv_lhs => rw [← slice_zero_length header, length]
  rw [whole, ← slice_append_slice 12 (by omega) (by omega), checksumBytes, first12]
  rfl

theorem recoverLoop_prefix {bytes : Bytes} {fuel offset expected : Nat}
    {batches : List RecoveredBatch} {recovery : Recovery}
    (h : recoverLoop bytes fuel offset expected batches = .ok recovery) :
    batches <+: recovery.batches := by
  induction fuel generalizing offset expected batches with
  | zero =>
    cases h
    exact List.prefix_rfl
  | succ fuel ih =>
    rw [recoverLoop] at h
    split at h
    · dsimp only at h
      split at h
      · cases h
        exact List.prefix_rfl
      · simp only [except_bind_ok] at h
        obtain ⟨decoded, -, -, -, stop, -, h⟩ := h
        split at h
        · cases h
          exact List.prefix_rfl
        · simp only [except_bind_ok] at h
          obtain ⟨-, -, next, -, h⟩ := h
          exact (List.prefix_append _ _).trans (ih h)
    · cases h
      exact List.prefix_rfl

/-- A log without records or a torn tail is the bare header. -/
theorem recoverBytes_empty {bytes : Bytes} {start : Nat} {recovery : Recovery}
    (h : recoverBytes bytes start = .ok recovery) (none_ : recovery.batches = [])
    (whole : recovery.tornTail = none) : bytes = walBytes [] := by
  unfold recoverBytes at h
  simp only [except_bind_ok, rejectIf_ok, exists_const, not_lt] at h
  obtain ⟨long, ⟨⟩, header, loop⟩ := h
  have length : (slice bytes 0 walFileHeaderBytes).length = walFileHeaderBytes := length_slice long
  have headerIs := validateFileHeader_ok length header
  have notLonger : ¬ walFileHeaderBytes < bytes.length := by
    intro longer
    obtain ⟨fuel, fuelIs⟩ : ∃ n, bytes.length = n + 1 := ⟨bytes.length - 1, by omega⟩
    rw [fuelIs, recoverLoop, if_pos longer] at loop
    dsimp only at loop
    split at loop
    · cases loop
      cases whole
    · simp only [except_bind_ok] at loop
      obtain ⟨decoded, -, -, -, stop, -, loop⟩ := loop
      split at loop
      · cases loop
        cases whole
      · simp only [except_bind_ok] at loop
        obtain ⟨-, -, next, -, loop⟩ := loop
        have started := recoverLoop_prefix loop
        rw [none_] at started
        simp at started
  have exact_ : bytes.length = walFileHeaderBytes := by omega
  rw [← exact_, slice_zero_length] at headerIs
  rw [headerIs, walBytes, frames]
  simp

/-- What keeps a successor log from being taken over or created. -/
def WalObstructed (files : Files Path) (start : Nat) : Prop :=
  ∃ bytes, files.lookup (.wal start) = some bytes ∧ bytes ≠ walBytes []

section Successor

variable {oracle : Oracle Path Directory} {files : Files Path} {process : Process}

theorem length_walBytes_nil : (walBytes []).length = walFileHeaderBytes := by
  simp [walBytes, frames, fileHeader, fileHeaderFields, walFileMagic, walFileHeaderBytes]

theorem recoverBytes_walBytes_nil (start : Nat) :
    recoverBytes (walBytes []) start = .ok ⟨[], start - 1, walFileHeaderBytes, none⟩ := by
  have whole := recoverBytes_whole [] start trivial
    (by rw [length_walBytes_nil]; decide)
  rw [whole, length_walBytes_nil]
  rfl

/-- Every way in which a successor log is taken over or created. -/
theorem successorWal_wp {start : Nat} {occupied : Error} (positive : start ≠ 0)
    (u64 : start ≤ u64Max) :
    wp oracle (Database.successorWal start occupied) (fun r f p => p = process ∧
      match r with
      | .ok writer => writer = ⟨.wal start, start, false⟩ ∧ ¬ WalObstructed files start ∧
        Replaced (.wal start) (walBytes []) files f ∧ Extends files f
      | .error _ => Extends files f ∧ (Hindered oracle ∨ WalObstructed files start)) files process := by
  unfold Database.successorWal
  apply wp_bind
  apply wp_pathExists
  dsimp only [Post.seq]
  apply wp_ite
  · intro present
    have present : .wal start ∈ files := of_decide_eq_true present
    obtain ⟨bytes, found⟩ := Option.isSome_iff_exists.mp (AList.lookup_isSome.mpr present)
    have obstructed_of : bytes ≠ walBytes [] → WalObstructed files start := fun different =>
      ⟨bytes, found, different⟩
    apply wp_bind_of (recoverFrom_wp found)
    rotate_left
    · rintro stop f p ⟨rfl, rfl, zero | hindered | ⟨e, failed, -⟩⟩
      · exact absurd zero positive
      · exact ⟨rfl, Extends.refl _, .inl hindered⟩
      · refine ⟨rfl, Extends.refl _, .inr (obstructed_of ?_)⟩
        rintro rfl
        rw [recoverBytes_walBytes_nil] at failed
        cases failed
    rintro recovery f p ⟨rfl, rfl, -, recovered⟩
    apply wp_lift
    rotate_left
    · intro e failed
      refine ⟨rfl, Extends.refl _, .inr (obstructed_of ?_)⟩
      rintro rfl
      rw [recoverBytes_walBytes_nil] at recovered
      cases recovered
      simpa using (rejectIf_error.mp failed).1
    rintro ⟨⟩ empty
    rw [rejectIf_ok, not_or, not_not, Bool.not_eq_true, Option.isSome_eq_false_iff,
      Option.isNone_iff_eq_none] at empty
    obtain rfl := recoverBytes_empty recovered empty.1 empty.2
    apply (openAt_wp found).mono
    rintro (stop | writer) g q ⟨rfl, rfl, outcome⟩
    · refine ⟨rfl, Extends.refl _, .inl ?_⟩
      rcases outcome with zero | hindered | ⟨e, failed⟩ | ⟨again, recovered', torn | large⟩
      · exact absurd zero positive
      · exact hindered
      · rw [recoverBytes_walBytes_nil] at failed
        cases failed
      · rw [recoverBytes_walBytes_nil] at recovered'
        cases recovered'
        exact absurd rfl torn
      · rw [recoverBytes_walBytes_nil] at recovered'
        cases recovered'
        dsimp only at large
        omega
    · obtain ⟨-, again, recovered', -, rfl⟩ := outcome
      rw [recoverBytes_walBytes_nil] at recovered'
      cases recovered'
      refine ⟨rfl, ?_, ?_, ⟨found, fun _ _ => rfl⟩, Extends.refl _⟩
      · dsimp only
        rw [Nat.sub_add_cancel (by omega)]
      · rintro ⟨bytes, found', different⟩
        rw [found] at found'
        cases found'
        exact different rfl
  · intro absent
    have absent : .wal start ∉ files := fun h => absent (decide_eq_true h)
    apply createAt_wp.mono
    rintro (stop | writer) f p ⟨rfl, outcome⟩
    · obtain ⟨cause, left⟩ := outcome
      refine ⟨rfl, ?_, .inl ?_⟩
      · rcases left with rfl | ⟨-, n, rfl⟩
        · exact Extends.refl _
        · exact (added_insert absent).extends (by simp)
      · rcases cause with zero | present | hindered
        · exact absurd zero positive
        · exact absurd present absent
        · exact hindered
    · obtain ⟨-, -, rfl, rfl⟩ := outcome
      refine ⟨rfl, rfl, ?_, ⟨AList.lookup_insert _, fun path different =>
        AList.lookup_insert_ne different⟩, (added_insert absent).extends (by simp)⟩
      rintro ⟨bytes, found, -⟩
      exact absent (mem_of_lookup found)

end Successor
end Vyrm.Kv
