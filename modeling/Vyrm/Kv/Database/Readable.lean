import Vyrm.Kv.Database.Merge
import Vyrm.Kv.Memtable.Spec
import Vyrm.Kv.Segment.Reads
import Vyrm.Kv.Segment.RoundTrip

/-!
# Which encoded memtables can be read

`encode_v3` bounds the records and the whole file, `read_v3_metadata` also bounds the
footer index. A memtable that the crate built encodes to a segment that is read back if and
only if its index fits that bound and the sequences of every key increase strictly, which
they stop doing once the sequence counter saturates.
-/

namespace Vyrm.Kv
open Lib Mvcc

namespace Memtable

/-- The memtables that the crate can build. -/
inductive Built : Memtable → Prop
  | atSequence {sequence : Nat} (u64 : sequence ≤ u64Max) : Built (atSequence sequence)
  | applied {table next : Memtable} {batch : WriteBatch} {first last : Nat} (built : Built table)
      (valid : batch.validate = .ok ()) (h : table.applyWriteBatch batch first last = .ok next) :
      Built next
  | compacted {versions : VersionMap} {maximum : Nat} {table : Memtable} (u64 : maximum ≤ u64Max)
      (h : fromVersions versions maximum = .ok table) : Built table

/-- What every memtable keeps: keys and version lists are not empty, and sequences lie between
one and the table's maximum. -/
structure Kept (table : Memtable) : Prop where
  nonempty : ∀ (key : Bytes) versions, table.versions[key]? = some versions → versions ≠ []
  keyNonempty : ∀ (key : Bytes) versions, table.versions[key]? = some versions → key ≠ []
  positive : ∀ key, ∀ v ∈ table.versionsAt key, 0 < v.sequence
  bounded : ∀ key, ∀ v ∈ table.versionsAt key, v.sequence ≤ table.maximumSequence
  u64 : table.maximumSequence ≤ u64Max

/-- The versions of every key carry strictly increasing sequences. -/
def Increasing (table : Memtable) : Prop :=
  ∀ key, (table.versionsAt key).Pairwise fun u v => u.sequence < v.sequence

variable {table : Memtable}

theorem Kept.over (kept : table.Kept) (increasing : table.Increasing) : table.Over 0 :=
  { nonempty := kept.nonempty
    keyNonempty := kept.keyNonempty
    increasing
    newer := kept.positive
    bounded := kept.bounded
    durable_le := Nat.zero_le _ }

theorem Kept.applyWriteBatch {next : Memtable} {batch : WriteBatch} {first last : Nat}
    (kept : table.Kept) (valid : batch.validate = .ok ())
    (h : table.applyWriteBatch batch first last = .ok next) : next.Kept := by
  simp only [Memtable.applyWriteBatch, except_bind_ok, checkedAdd_ok, rejectIf_ok, except_pure,
    Except.ok.injEq, not_or, not_not] at h
  obtain ⟨expected, ⟨room, rfl⟩, _, ⟨rfl, rfl⟩, rfl⟩ := h
  obtain ⟨⟨some_, -⟩, members⟩ := WriteBatch.validate_ok.mp valid
  have positive : 0 < batch.operations.length := List.length_pos_iff.mpr some_
  have grows : table.maximumSequence ≤ saturatingAdd table.maximumSequence 1 :=
    Nat.le_min.mpr ⟨Nat.le_succ _, kept.u64⟩
  have starts : 0 < saturatingAdd table.maximumSequence 1 := by
    unfold saturatingAdd
    have : 0 < u64Max := by decide
    omega
  refine ⟨pushOperations_nonempty kept.nonempty, pushOperations_keyNonempty ?_ kept.keyNonempty,
    ?_, ?_, room⟩
  · intro m member
    exact (WriteBatch.mutation_validate_ok.mp (members m member)).1
  · intro key v member
    rw [versionsAt, getElem?_pushOperations, List.mem_append] at member
    rcases member with old | new
    · exact kept.positive key v old
    · exact starts.trans_le (numbered_bounds (mem_versionsOf.mp new)).1
  · intro key v member
    rw [versionsAt, getElem?_pushOperations, List.mem_append] at member
    dsimp only
    rcases member with old | new
    · have := kept.bounded key v old
      omega
    · have := (numbered_bounds (mem_versionsOf.mp new)).2
      dsimp only at this
      omega

/-- Every memtable of the crate is kept. -/
theorem Built.kept (built : table.Built) : table.Kept := by
  induction built with
  | atSequence u64 =>
    have isOver := over_atSequence
    exact ⟨(isOver _).nonempty, (isOver _).keyNonempty, by simp [Memtable.atSequence, versionsAt],
      by simp [Memtable.atSequence, versionsAt], u64⟩
  | applied _ valid h ih => exact ih.applyWriteBatch valid h
  | compacted u64 h =>
    obtain ⟨rfl, isOver⟩ := Database.over_of_fromVersions h
    exact ⟨isOver.nonempty, isOver.keyNonempty, isOver.newer, isOver.bounded, u64⟩

/-! ## The size of the index -/

/-- The bytes of a block's index entry. -/
def entryBytes (lastKey : Bytes) : Nat := indexEntryBytes + lastKey.length

/-- The index entries of the blocks that `entries` fill, after a block that holds `filled` bytes
up to `lastKey`. A block takes entries as long as it stays within its target. -/
def entriesBytes : List Entry → Nat → Bytes → Nat
  | [], filled, lastKey => if filled = 0 then 0 else entryBytes lastKey
  | (key, version) :: rest, filled, lastKey =>
    let size := recordHeaderBytes + key.length + (version.value.getD []).length
    if filled ≠ 0 ∧ filled + size > segmentBlockTargetBytes then
      entryBytes lastKey + entriesBytes rest size key
    else entriesBytes rest (filled + size) key

/-- The footer index that a memtable needs is one that a reader accepts. -/
def IndexFits (table : Memtable) : Prop :=
  indexHeaderBytes + entriesBytes table.flatVersions 0 [] ≤ maxIndexBytes

instance (table : Memtable) : Decidable table.IndexFits := inferInstanceAs (Decidable (_ ≤ _))

/-- `entriesBytes` counts the blocks that the encoder fills. -/
theorem entriesBytes_fillBlocks {entries : List Entry} {current : RawBlock} {total total' : Nat}
    {blocks : List RawBlock} (h : fillBlocks entries current total = .ok (blocks, total')) :
    entriesBytes entries current.records.length current.lastKey =
      (blocks.map fun block => entryBytes block.lastKey).sum := by
  induction entries generalizing current total blocks with
  | nil =>
    rw [fillBlocks, except_pure, Except.ok.injEq, Prod.mk.injEq] at h
    obtain ⟨rfl, -⟩ := h
    by_cases empty : current.records = []
    · simp [entriesBytes, empty]
    · simp [entriesBytes, empty]
  | cons entry rest ih =>
    obtain ⟨key, version⟩ := entry
    rw [fillBlocks, except_bind_ok] at h
    obtain ⟨record, encoded, h⟩ := h
    rw [except_bind_ok] at h
    obtain ⟨next, -, h⟩ := h
    obtain ⟨isRecord, -⟩ := encodeRecord_ok encoded
    have size : record.length = recordHeaderBytes + key.length + (version.value.getD []).length := by
      rw [isRecord, Entry.length_bytes]
      rfl
    have nonempty : current.records.length ≠ 0 ↔ current.records ≠ [] :=
      List.length_eq_zero_iff.not
    simp only [entriesBytes, ← size, nonempty]
    split at h
    · rename_i full
      rw [except_bind_ok] at h
      obtain ⟨⟨later, total''⟩, filled, same⟩ := h
      cases same
      rw [if_pos full, List.map_cons, List.sum_cons, ← ih filled]
    · rename_i room
      rw [if_neg room, ← ih h, List.length_append]

end Memtable

/-! ## Reading the segment back -/

namespace Segment

variable {entries : List Entry} {groups others : VersionGroups}

/-- Groups are determined by their entries. -/
theorem GroupInv.unique (first : GroupInv entries groups) (second : GroupInv entries others) :
    groups = others := by
  have found : ∀ {groups : VersionGroups}, GroupInv entries groups → ∀ key,
      List.lookup key groups =
        if versionsOf key entries = [] then none else some (versionsOf key entries) := by
    intro groups inv key
    have versions : versionsOf key entries = (List.lookup key groups).getD [] := by
      rw [← inv.content, versionsOf_ungroup, filter_key_of_sorted inv.sorted]
      rfl
    rw [versions]
    cases listed : List.lookup key groups with
    | none => simp
    | some stored =>
      have member := ((isGraph_groups inv.sorted).mem key stored).mpr listed
      simp [inv.nonempty _ member]
  apply IsGraph.unique (isGraph_groups first.sorted)
  have same : (fun key => List.lookup key groups) = fun key => List.lookup key others := by
    funext key
    rw [found first, found second]
  rw [same]
  exact isGraph_groups second.sorted

end Segment

namespace Memtable

variable {table : Memtable}

theorem Kept.groupInv (kept : table.Kept) :
    Segment.GroupInv table.flatVersions table.allVersions :=
  { content := rfl
    sorted := (isGraph_toList table.versions).sorted
    nonempty := fun group member => kept.nonempty group.1 group.2
      (((isGraph_toList table.versions).mem group.1 group.2).mp member) }

theorem increasing_of_sorted (sorted : table.flatVersions.Pairwise Entry.Before) :
    table.Increasing := by
  intro key
  rw [← versionsOf_flatVersions, versionsOf, List.pairwise_map, List.pairwise_filter]
  refine sorted.imp fun before isKey isKey' => ?_
  rcases before with less | ⟨-, less⟩
  · simp only [decide_eq_true_eq] at isKey isKey'
    rw [isKey, isKey'] at less
    exact absurd less (lt_irrefl _)
  · exact less

section

variable [Platform] {bytes : Bytes}

/-- What reading an encoded memtable comes to. -/
theorem decodeV3Bytes_encoded {durable : Nat} (isOver : table.Over durable)
    (u64 : table.maximumSequence ≤ u64Max) (encoded : encodeV3 table = .ok bytes) :
    ∃ segment : Segment, segment.Holds table.flatVersions ∧
      decodeV3Bytes bytes = if table.IndexFits then .ok segment
        else .error (.invalidSegment "v3 index exceeds its bounded contract") := by
  obtain ⟨groups, total, filled, divided, rfl⟩ := encodeV3_filled encoded
  have verified := verifyDigest_sealed (segmentContent table groups)
  have footerLength := length_footer (segmentContent table groups)
  generalize sha256Hex (segmentContent table groups) = footer at *
  have index : (indexBytes (layoutOf groups).1).length =
      indexHeaderBytes + entriesBytes table.flatVersions 0 [] := by
    rw [length_index]
    exact congrArg _ (entriesBytes_fillBlocks filled).symm
  have long : ¬ (segmentContent table groups ++ footer).length <
      v3HeaderBytes + indexHeaderBytes + footerBytes := by
    have atLeast := length_index_ge groups
    rw [List.length_append, footerLength, segmentContent, List.length_append, length_v3Header,
      List.length_append]
    omega
  refine ⟨⟨descriptorOf table footer (segmentContent table groups ++ footer).length,
    .blocked (segmentContent table groups ++ footer) (layoutOf groups).1⟩,
    holds_content divided isOver u64, ?_⟩
  rw [decodeV3Bytes, rejectIf_of_not long, except_ok_bind, decodeV3File, verified, except_ok_bind, readV3Metadata_content divided isOver u64 footerLength, index]
  by_cases fits : indexHeaderBytes + entriesBytes table.flatVersions 0 [] ≤ maxIndexBytes
  · have accepted : table.IndexFits := fits
    rw [if_pos fits, if_pos accepted]
    rfl
  · have refused : ¬ table.IndexFits := fits
    rw [if_neg fits, if_neg refused]
    rfl

/-- A segment that reads back as a memtable shows that its sequences increase. -/
theorem increasing_of_read {segment : Segment} (decoded : decodeV3Bytes bytes = .ok segment)
    (all : segment.allVersions = .ok table.allVersions) : table.Increasing := by
  simp only [decodeV3Bytes, except_bind_ok, rejectIf_ok, exists_const] at decoded
  obtain ⟨entries, holds⟩ := decodeV3File_holds decoded.2
  obtain ⟨groups, collected, inv⟩ := holds.allVersions
  rw [all, Except.ok.injEq] at collected
  subst collected
  have content : table.flatVersions = entries := inv.content
  exact increasing_of_sorted (content ▸ holds.sorted)

/-- What the encoder accepts the decoder reads back, exactly if the index fits its bound and no
two versions of a key share a sequence. -/
theorem decodeV3Bytes_encodeV3 (built : table.Built) (encoded : encodeV3 table = .ok bytes) :
    (∃ segment : Segment, decodeV3Bytes bytes = .ok segment ∧
      segment.allVersions = .ok table.allVersions) ↔ table.IndexFits ∧ table.Increasing := by
  have kept := built.kept
  constructor
  · intro ⟨segment, decoded, all⟩
    have increasing := increasing_of_read decoded all
    obtain ⟨_, -, outcome⟩ := decodeV3Bytes_encoded (kept.over increasing) kept.u64 encoded
    refine ⟨?_, increasing⟩
    by_contra large
    rw [decoded, if_neg large] at outcome
    cases outcome
  · intro ⟨fits, increasing⟩
    obtain ⟨segment, holds, outcome⟩ :=
      decodeV3Bytes_encoded (kept.over increasing) kept.u64 encoded
    rw [if_pos fits] at outcome
    obtain ⟨groups, collected, inv⟩ := holds.allVersions
    exact ⟨segment, outcome, by rw [collected, inv.unique kept.groupInv]⟩

end

theorem built_holding {durable : Nat} {operations : List Mutation}
    (valid : ∀ m ∈ operations, m.validate = .ok ()) (room : durable + operations.length < u64Max) :
    (holding durable operations).Built := by
  induction operations using List.reverseRecOn with
  | nil =>
    rw [List.length_nil] at room
    have u64 : durable ≤ u64Max := by omega
    exact .atSequence u64
  | append_singleton rest m ih =>
    rw [List.forall_mem_append] at valid
    rw [List.length_append, List.length_singleton] at room
    have single : WriteBatch.validate ⟨[m]⟩ = .ok () :=
      WriteBatch.validate_ok.mpr ⟨⟨by simp, by simp [maxOperations]⟩, valid.2⟩
    exact .applied (ih valid.1 (by omega)) single
      (applyWriteBatch_holding (by simp) (by simpa [Nat.add_assoc] using room))

/-- A memtable with a version of one key and a tombstone of another. -/
def smallTable : Memtable := holding 0 [.put [1] [7], .delete [2]]

open Reference in
theorem decodeV3Bytes_encodeV3_smallTable :
    ∃ bytes segment, encodeV3 smallTable = .ok bytes ∧ decodeV3Bytes bytes = .ok segment ∧
      segment.allVersions = .ok smallTable.allVersions := by
  have built : smallTable.Built := built_holding (by decide) (by decide)
  have increasing : smallTable.Increasing := (over_holding 0 (by decide)).increasing
  have fits : smallTable.IndexFits := by decide +kernel
  have encodes : (encodeV3 smallTable).isOk = true := by decide +kernel
  cases encoded : encodeV3 smallTable with
  | error e =>
    rw [encoded] at encodes
    cases encodes
  | ok bytes =>
    obtain ⟨segment, decoded, all⟩ := (decodeV3Bytes_encodeV3 built encoded).mpr ⟨fits, increasing⟩
    exact ⟨bytes, segment, rfl, decoded, all⟩

/-! ## A memtable that cannot be read back -/

/-- Records that fill a block each are put into a block of their own. -/
theorem fillBlocks_large {entries : List Entry} {current : RawBlock} {total : Nat}
    (fits : ∀ e ∈ entries, e.Fits) (large : ∀ e ∈ entries, segmentBlockTargetBytes < e.bytes.length)
    (started : current.records ≠ []) (room : total + (recordsOf entries).length ≤ u64Max) :
    fillBlocks entries current total =
      .ok (current :: entries.map fun e => rawBlock [e], total + (recordsOf entries).length) := by
  induction entries generalizing current total with
  | nil => simp [fillBlocks, started]
  | cons entry rest ih =>
    obtain ⟨fitsFirst, fits⟩ := List.forall_mem_cons.mp fits
    obtain ⟨largeFirst, large⟩ := List.forall_mem_cons.mp large
    rw [recordsOf_cons, List.length_append] at room
    have counted : checkedAdd total entry.bytes.length (.invalidSegment "record bytes overflow") =
        .ok (total + entry.bytes.length) := checkedAdd_ok.mpr ⟨by omega, rfl⟩
    have full : current.records ≠ [] ∧
        current.records.length + entry.bytes.length > segmentBlockTargetBytes :=
      ⟨started, by omega⟩
    have single : (⟨entry.bytes, 1, entry.1⟩ : RawBlock) = rawBlock [entry] := by simp [rawBlock]
    have nonempty : (rawBlock [entry]).records ≠ [] := by
      simp [rawBlock, ← List.length_eq_zero_iff, Nat.pos_iff_ne_zero.mp entry.length_bytes_pos]
    rw [fillBlocks, encodeRecord_of_fits fitsFirst, except_ok_bind, counted, except_ok_bind,
      if_pos full, single, ih fits large nonempty (by omega), except_ok_bind, recordsOf_cons,
      List.length_append, List.map_cons, Nat.add_assoc]
    rfl

/-- Entries of one key are numbered in canonical order. -/
theorem sorted_numbered_replicate (m : Mutation) (first n : Nat) :
    (numbered first (List.replicate n m)).Pairwise Entry.Before := by
  have keys : ∀ n first, ∀ e ∈ numbered first (List.replicate n m), e.1 = m.key := by
    intro n
    induction n with
    | zero => simp [numbered]
    | succ n ih => exact fun first => List.forall_mem_cons.mpr ⟨rfl, ih _⟩
  induction n generalizing first with
  | zero => exact List.Pairwise.nil
  | succ n ih =>
    refine List.pairwise_cons.mpr ⟨fun e member => .inr ⟨(keys n _ e member).symm, ?_⟩, ih _⟩
    exact (numbered_bounds member).1

/-- The versions of one key, in the order they were written. -/
theorem flatVersions_replicate {m : Mutation} (nonempty : m.key ≠ []) (durable n : Nat) :
    (holding durable (List.replicate n m)).flatVersions =
      numbered (durable + 1) (List.replicate n m) := by
  have isOver : (holding durable (List.replicate n m)).Over durable :=
    over_holding durable fun other member => by rwa [List.eq_of_mem_replicate member]
  have asymm : ∀ {a b : Entry}, a.Before b → ¬ b.Before a := by
    intro a b before after
    rcases before.trans after with less | ⟨-, less⟩
    · exact lt_irrefl _ less
    · exact lt_irrefl _ less
  have nodup : ∀ {entries : List Entry}, entries.Pairwise Entry.Before → entries.Nodup :=
    fun sorted => sorted.imp fun {a b} before (same : a = b) =>
      asymm before (by rw [same] at before ⊢; exact before)
  have sorted := sorted_numbered_replicate m (durable + 1) n
  have perm : (holding durable (List.replicate n m)).flatVersions.Perm
      (numbered (durable + 1) (List.replicate n m)) := by
    apply (List.perm_ext_iff_of_nodup (nodup isOver.sorted) (nodup sorted)).mpr
    intro e
    rw [mem_flatVersions, versionsAt_holding, mem_versionsOf]
  exact perm.eq_of_pairwise (fun a b _ _ before after => absurd after (asymm before)) isOver.sorted sorted

theorem fillBlocks_large_start {entries : List Entry} (fits : ∀ e ∈ entries, e.Fits)
    (large : ∀ e ∈ entries, segmentBlockTargetBytes < e.bytes.length)
    (room : (recordsOf entries).length ≤ u64Max) :
    fillBlocks entries ⟨[], 0, []⟩ 0 =
      .ok (entries.map fun e => rawBlock [e], (recordsOf entries).length) := by
  cases entries with
  | nil => rfl
  | cons entry rest =>
    obtain ⟨fitsFirst, fits⟩ := List.forall_mem_cons.mp fits
    obtain ⟨-, large⟩ := List.forall_mem_cons.mp large
    rw [recordsOf_cons, List.length_append] at room
    have counted : checkedAdd 0 entry.bytes.length (.invalidSegment "record bytes overflow") =
        .ok (0 + entry.bytes.length) := checkedAdd_ok.mpr ⟨by omega, rfl⟩
    have single : (⟨[] ++ entry.bytes, 0 + 1, entry.1⟩ : RawBlock) = rawBlock [entry] := by
      simp [rawBlock]
    have nonempty : (rawBlock [entry]).records ≠ [] := by
      simp [rawBlock, ← List.length_eq_zero_iff, Nat.pos_iff_ne_zero.mp entry.length_bytes_pos]
    rw [fillBlocks, encodeRecord_of_fits fitsFirst, except_ok_bind, counted, except_ok_bind,
      if_neg (fun full => full.1 rfl), single, fillBlocks_large fits large nonempty (by omega),
      recordsOf_cons, List.length_append, Nat.zero_add]
    rfl

/-- `n` writes of one key, with empty values. -/
def rewrites (key : Bytes) (n : Nat) : Memtable := holding 0 (List.replicate n (.put key []))

section

variable {key : Bytes}

theorem flatVersions_rewrites (nonempty : key ≠ []) (n : Nat) :
    (rewrites key n).flatVersions = numbered 1 (List.replicate n (.put key [])) :=
  flatVersions_replicate (m := .put key []) nonempty 0 n

theorem length_rewrites (nonempty : key ≠ []) (n : Nat) :
    (rewrites key n).flatVersions.length = n := by
  rw [flatVersions_rewrites nonempty, length_numbered, List.length_replicate]

theorem mem_rewrites (nonempty : key ≠ []) (small : key.length ≤ maxKeyBytes) {n : Nat}
    (room : n < u64Max) {e : Entry} (member : e ∈ (rewrites key n).flatVersions) :
    e.Fits ∧ e.1 = key ∧ e.bytes.length = recordHeaderBytes + key.length := by
  have shape : ∀ n first, ∀ e ∈ numbered first (List.replicate n (.put key [])),
      e.1 = key ∧ e.stored = [] := by
    intro n
    induction n with
    | zero => simp [numbered]
    | succ n ih => exact fun first => List.forall_mem_cons.mpr ⟨⟨rfl, rfl⟩, ih _⟩
  rw [flatVersions_rewrites nonempty] at member
  have bounds := (numbered_bounds member).2
  rw [List.length_replicate] at bounds
  obtain ⟨isKey, value⟩ := shape _ _ e member
  refine ⟨⟨?_, ?_, ?_, by omega⟩, isKey, ?_⟩
  · rwa [isKey]
  · rwa [isKey]
  · rw [value]
    exact Nat.zero_le _
  · rw [Entry.length_bytes, isKey, value, List.length_nil, Nat.add_zero]

theorem length_records_rewrites (nonempty : key ≠ []) (small : key.length ≤ maxKeyBytes) {n : Nat}
    (room : n < u64Max) :
    (recordsOf (rewrites key n).flatVersions).length = n * (recordHeaderBytes + key.length) := by
  have each : ∀ entries : List Entry,
      (∀ e ∈ entries, e.bytes.length = recordHeaderBytes + key.length) →
      (recordsOf entries).length = entries.length * (recordHeaderBytes + key.length) := by
    intro entries same
    rw [recordsOf, List.length_flatMap, List.map_congr_left same, List.map_const',
      List.sum_replicate_nat]
  rw [each _ fun e member => (mem_rewrites nonempty small room member).2.2, length_rewrites nonempty]

/-- Every version of a long key has a block of its own. -/
theorem fillBlocks_rewrites (long : segmentBlockTargetBytes ≤ key.length)
    (small : key.length ≤ maxKeyBytes) {n : Nat} (room : n * (recordHeaderBytes + key.length) < u64Max) :
    fillBlocks (rewrites key n).flatVersions ⟨[], 0, []⟩ 0 =
      .ok ((rewrites key n).flatVersions.map fun e => rawBlock [e],
        n * (recordHeaderBytes + key.length)) := by
  have positive : 0 < key.length := lt_of_lt_of_le (by decide) long
  have nonempty : key ≠ [] := List.ne_nil_of_length_pos positive
  have few : n < u64Max := lt_of_le_of_lt (Nat.le_mul_of_pos_right n (by omega)) room
  have total := length_records_rewrites nonempty small few
  rw [← total]
  apply fillBlocks_large_start fun e member => (mem_rewrites nonempty small few member).1
  · intro e member
    have header : recordHeaderBytes = 20 := rfl
    rw [(mem_rewrites nonempty small few member).2.2]
    omega
  · omega

/-- The bytes of the index that the versions of a long key need. -/
theorem entriesBytes_rewrites (long : segmentBlockTargetBytes ≤ key.length)
    (small : key.length ≤ maxKeyBytes) {n : Nat} (room : n * (recordHeaderBytes + key.length) < u64Max) :
    entriesBytes (rewrites key n).flatVersions 0 [] = n * entryBytes key := by
  have positive : 0 < key.length := lt_of_lt_of_le (by decide) long
  have nonempty : key ≠ [] := List.ne_nil_of_length_pos positive
  have few : n < u64Max := lt_of_le_of_lt (Nat.le_mul_of_pos_right n (by omega)) room
  have counted := entriesBytes_fillBlocks (fillBlocks_rewrites long small room)
  have each : ∀ e ∈ (rewrites key n).flatVersions,
      ((fun block => entryBytes block.lastKey) ∘ fun e => rawBlock [e]) e = entryBytes key := by
    intro e member
    have last : (rawBlock [e]).lastKey = key := (mem_rewrites nonempty small few member).2.1
    rw [Function.comp_apply, last]
  rw [List.map_map, List.map_congr_left each, List.map_const', List.sum_replicate_nat,
    length_rewrites nonempty] at counted
  exact counted

open Reference

theorem length_compressPrependSize_le (bytes : Bytes) :
    (compressPrependSize bytes).length ≤ 2 * bytes.length + 6 := by
  have extra : ∀ fuel n, (encodeExtra fuel n).length ≤ fuel + 1 := by
    intro fuel
    induction fuel with
    | zero => simp [encodeExtra]
    | succ fuel ih =>
      intro n
      rw [encodeExtra]
      split
      · simp
      · rw [List.length_cons]
        exact Nat.succ_le_succ (ih _)
  have bound := extra ((bytes.length - 15) / 255) (bytes.length - 15)
  unfold compressPrependSize literalBlock
  split
  · simp
    omega
  · simp
    omega

theorem length_layoutBlocks_le {blocks : List RawBlock} {bound : Nat}
    (small : ∀ block ∈ blocks, (compressPrependSize block.records).length ≤ bound) (offset : Nat) :
    (layoutBlocks blocks offset).2.length ≤ blocks.length * bound := by
  induction blocks generalizing offset with
  | nil => simp [layoutBlocks]
  | cons block rest ih =>
    obtain ⟨first, small⟩ := List.forall_mem_cons.mp small
    have later := ih small (offset + (compressPrependSize block.records).length)
    simp only [layoutBlocks, List.length_append, List.length_cons, Nat.add_mul, Nat.one_mul]
    exact (Nat.add_comm _ _).trans_le (Nat.add_le_add later first)

/-- The encoder accepts many versions of a long key, as long as the file stays within its limit. -/
theorem encodeV3_rewrites (long : segmentBlockTargetBytes ≤ key.length)
    (small : key.length ≤ maxKeyBytes) {n : Nat} (positive : 0 < n)
    (fits : v3HeaderBytes + n * (2 * (recordHeaderBytes + key.length) + 6) +
      (indexHeaderBytes + n * entryBytes key) ≤ maxSegmentBytes - footerBytes) :
    ∃ bytes, encodeV3 (rewrites key n) = .ok bytes := by
  have nonempty : key ≠ [] := List.ne_nil_of_length_pos (lt_of_lt_of_le (by decide) long)
  have expand : n * (2 * (recordHeaderBytes + key.length) + 6) =
      2 * (n * (recordHeaderBytes + key.length)) + n * 6 := by
    rw [Nat.mul_add, Nat.mul_left_comm]
  have limits : maxSegmentBytes - footerBytes < u64Max ∧ maxSegmentBytes - footerBytes ≤ maxSegmentBytes :=
    by decide
  have room : n * (recordHeaderBytes + key.length) < u64Max := by omega
  have few : n < u64Max := by omega
  have filled := fillBlocks_rewrites long small room
  have counted : (rewrites key n).versionCount ≠ 0 := by
    rw [← length_flatVersions, length_rewrites nonempty]
    omega
  generalize blocksIs : (rewrites key n).flatVersions.map (fun e => rawBlock [e]) = blocks at filled
  have count : blocks.length = n := by rw [← blocksIs, List.length_map, length_rewrites nonempty]
  have data : (layoutBlocks blocks v3HeaderBytes).2.length ≤
      n * (2 * (recordHeaderBytes + key.length) + 6) := by
    rw [← count]
    apply length_layoutBlocks_le
    intro block member
    rw [← blocksIs] at member
    obtain ⟨e, listed, rfl⟩ := List.mem_map.mp member
    have length : (rawBlock [e]).records.length = recordHeaderBytes + key.length := by
      rw [rawBlock, recordsOf_cons, recordsOf_nil, List.append_nil,
        (mem_rewrites nonempty small few listed).2.2]
    rw [← length]
    exact length_compressPrependSize_le _
  have index : (indexBytes (layoutBlocks blocks v3HeaderBytes).1).length =
      indexHeaderBytes + n * entryBytes key := by
    have entries := entriesBytes_fillBlocks filled
    rw [List.length_nil, entriesBytes_rewrites long small room] at entries
    rw [indexBytes, List.length_append, length_indexEntries, entries]
    simp [indexV3Magic, indexHeaderBytes, entryBytes]
  have total : ¬ n * (recordHeaderBytes + key.length) > maxSegmentBytes := by omega
  have whole : ∀ header : Bytes, header.length = v3HeaderBytes →
      ¬ (header ++ ((layoutBlocks blocks v3HeaderBytes).2 ++
        indexBytes (layoutBlocks blocks v3HeaderBytes).1)).length > maxSegmentBytes - footerBytes := by
    intro header length
    rw [List.length_append, List.length_append, length, index]
    omega
  unfold encodeV3
  rw [rejectIf_of_not counted, except_ok_bind]
  dsimp only
  rw [filled, except_ok_bind]
  dsimp only
  rw [rejectIf_of_not total, except_ok_bind, rejectIf_of_not (whole _ (length_v3Header ..)),
    except_ok_bind]
  exact ⟨_, rfl⟩

end

/-- Sixty-four writes of one key of the greatest length need an index of more than 64 MiB. -/
theorem decodeV3Bytes_rewrites {key : Bytes} (length : key.length = maxKeyBytes) :
    (rewrites key 64).Built ∧ ∃ bytes, encodeV3 (rewrites key 64) = .ok bytes ∧
      decodeV3Bytes bytes = .error (.invalidSegment "v3 index exceeds its bounded contract") := by
  have nonempty : key ≠ [] := List.ne_nil_of_length_pos (by rw [length]; decide)
  have valid : (Mutation.put key []).validate = .ok () :=
    WriteBatch.mutation_validate_ok.mpr ⟨nonempty, length.le, Nat.zero_le _⟩
  have built : (rewrites key 64).Built := built_holding
    (fun m member => by rwa [List.eq_of_mem_replicate member]) (by rw [List.length_replicate]; decide)
  have long : segmentBlockTargetBytes ≤ key.length := by
    rw [length]
    decide
  have sizes : 64 * (recordHeaderBytes + key.length) < u64Max := by
    rw [length]
    decide
  obtain ⟨bytes, encoded⟩ := encodeV3_rewrites long length.le (n := 64) (by decide)
    (by rw [entryBytes, length]; decide)
  have tooLarge : ¬ (rewrites key 64).IndexFits := by
    rw [IndexFits, entriesBytes_rewrites long length.le sizes, entryBytes, length]
    decide
  have isOver : (rewrites key 64).Over 0 := over_holding 0 fun m member => by
    rwa [List.eq_of_mem_replicate member]
  obtain ⟨_, -, decoded⟩ := decodeV3Bytes_encoded isOver built.kept.u64 encoded
  rw [if_neg tooLarge] at decoded
  exact ⟨built, bytes, encoded, decoded⟩

/-- The longest key a batch may carry. -/
def longestKey : Bytes := List.replicate maxKeyBytes 0

/-- A segment that is written and cannot be read. -/
theorem decodeV3Bytes_refuses_longestKey :
    (rewrites longestKey 64).Built ∧ ∃ bytes, encodeV3 (rewrites longestKey 64) = .ok bytes ∧
      decodeV3Bytes bytes = .error (.invalidSegment "v3 index exceeds its bounded contract") :=
  decodeV3Bytes_rewrites (by rw [longestKey, List.length_replicate])

end Memtable
end Vyrm.Kv
