import Vyrm.Kv.Memtable.Spec

/-!
# Encoded segments open to what was encoded

A segment file that `encode_v3` produced opens to a segment that holds exactly
the versions of the memtable, unless its index is larger than a reader accepts.
-/

namespace Vyrm.Kv
open Lib Mvcc

/-! ## Filling blocks -/

/-- The block that holds a group of entries. -/
def rawBlock (group : List Entry) : RawBlock :=
  ⟨recordsOf group, group.length, (group.getLast?.map Prod.fst).getD []⟩

/-- What the record encoder demands of an entry. -/
structure Entry.Bounded (entry : Entry) : Prop where
  keyNonempty : entry.1 ≠ []
  keySmall : entry.1.length ≤ maxKeyBytes
  valueSmall : entry.stored.length ≤ maxValueBytes

/-- A group of entries that fits into one block. -/
structure FitsBlock (group : List Entry) : Prop where
  nonempty : group ≠ []
  small : (recordsOf group).length ≤ maxDecodedBlockBytes

theorem recordsOf_eq_nil_iff {entries : List Entry} : recordsOf entries = [] ↔ entries = [] := by
  constructor
  · intro h
    have bound := length_le_recordsOf entries
    rw [h] at bound
    exact List.length_eq_zero_iff.mp (Nat.le_zero.mp bound)
  · rintro rfl
    rfl

theorem rawBlock_append (group : List Entry) (key : Bytes) (version : VersionedValue) :
    rawBlock (group ++ [(key, version)]) =
      ⟨recordsOf group ++ Entry.bytes (key, version), group.length + 1, key⟩ := by
  simp [rawBlock]

theorem Entry.Bounded.length_bytes_le {entry : Entry} (bounded : entry.Bounded) :
    entry.bytes.length ≤ maxDecodedBlockBytes := by
  rw [Entry.length_bytes, maxDecodedBlockBytes]
  have := bounded.keySmall
  have := bounded.valueSmall
  omega

/-- The blocks hold the entries in order, each block a group that fits. -/
theorem fillBlocks_ok {entries current : List Entry} {total total' : Nat} {blocks : List RawBlock}
    (small : (recordsOf current).length ≤ maxDecodedBlockBytes)
    (h : fillBlocks entries (rawBlock current) total = .ok (blocks, total')) :
    ∃ groups : List (List Entry), blocks = groups.map rawBlock ∧
      groups.flatten = current ++ entries ∧
      (∀ g ∈ groups, FitsBlock g) ∧ total' = total + (recordsOf entries).length ∧
      ∀ e ∈ entries, e.Bounded := by
  induction entries generalizing current total blocks with
  | nil =>
    rw [fillBlocks, except_pure, Except.ok.injEq, Prod.mk.injEq] at h
    obtain ⟨rfl, rfl⟩ := h
    by_cases empty : current = []
    · refine ⟨[], ?_, by simp [empty], by simp, by simp, by simp⟩
      simp [rawBlock, empty]
    · refine ⟨[current], ?_, by simp, ?_, by simp, by simp⟩
      · simp [rawBlock, recordsOf_eq_nil_iff, empty]
      · intro g member
        rw [List.mem_singleton] at member
        rw [member]
        exact ⟨empty, small⟩
  | cons entry rest ih =>
    obtain ⟨key, version⟩ := entry
    rw [fillBlocks, except_bind_ok] at h
    obtain ⟨record, encoded, h⟩ := h
    rw [except_bind_ok] at h
    obtain ⟨next, added, h⟩ := h
    obtain ⟨-, rfl⟩ := checkedAdd_ok.mp added
    obtain ⟨rfl, keyNonempty, keySmall, valueSmall⟩ := encodeRecord_ok encoded
    have bounded : Entry.Bounded (key, version) := ⟨keyNonempty, keySmall, valueSmall⟩
    split at h
    · rename_i full
      rw [except_bind_ok] at h
      obtain ⟨⟨later, total''⟩, filled, same⟩ := h
      cases same
      have single : (⟨Entry.bytes (key, version), 1, key⟩ : RawBlock) = rawBlock [(key, version)] := by
        simp [rawBlock]
      rw [single] at filled
      obtain ⟨groups, rfl, content, fits, rfl, rest_bounded⟩ :=
        ih (by simpa using bounded.length_bytes_le) filled
      refine ⟨current :: groups, by simp, by simp [content], ?_, ?_, ?_⟩
      · rw [List.forall_mem_cons]
        exact ⟨⟨fun empty => full.1 (by simp [rawBlock, empty]), small⟩, fits⟩
      · rw [recordsOf_cons, List.length_append]
        omega
      · rw [List.forall_mem_cons]
        exact ⟨bounded, rest_bounded⟩
    · rename_i room
      have grown : (⟨(rawBlock current).records ++ Entry.bytes (key, version),
          (rawBlock current).entries + 1, key⟩ : RawBlock) =
          rawBlock (current ++ [(key, version)]) := (rawBlock_append current key version).symm
      rw [grown] at h
      have small' : (recordsOf (current ++ [(key, version)])).length ≤ maxDecodedBlockBytes := by
        rw [recordsOf_append, List.length_append, recordsOf_cons, recordsOf_nil, List.append_nil]
        by_cases empty : current = []
        · have := bounded.length_bytes_le
          simp only [empty, recordsOf_nil, List.length_nil, Nat.zero_add]
          exact this
        · have started : (rawBlock current).records ≠ [] := fun h =>
            empty (recordsOf_eq_nil_iff.mp h)
          have target : (recordsOf current).length + (Entry.bytes (key, version)).length ≤
              segmentBlockTargetBytes := by
            by_contra isOver
            exact room ⟨started, Nat.lt_of_not_le isOver⟩
          have := (by decide : segmentBlockTargetBytes ≤ maxDecodedBlockBytes)
          omega
      obtain ⟨groups, blocks_eq, content, fits, rfl, rest_bounded⟩ := ih small' h
      refine ⟨groups, blocks_eq, by simpa using content, fits, ?_, ?_⟩
      · rw [recordsOf_cons, List.length_append]
        omega
      · rw [List.forall_mem_cons]
        exact ⟨bounded, rest_bounded⟩

variable [Platform]

/-! ## Laying blocks out -/

theorem four_le_compressed {bytes : Bytes} (small : bytes.length < 2 ^ 32) :
    4 ≤ (Platform.compressPrependSize bytes).length := by
  have sized := congrArg List.length (Platform.compress_prefix bytes small)
  rw [List.length_take, length_toLE] at sized
  omega

/-- A compressed block decodes to its records. -/
theorem decodeCompressedBlock_compress {records : Bytes} {block : BlockDescriptor}
    (small : records.length ≤ maxDecodedBlockBytes) (length : block.recordBytes = records.length)
    (digest : block.digest = Platform.sha256 (Platform.compressPrependSize records)) :
    decodeCompressedBlock (Platform.compressPrependSize records) block = .ok records := by
  have width : records.length < 2 ^ 32 :=
    lt_of_le_of_lt small (by decide)
  have sizePrefix : slice? (Platform.compressPrependSize records) 0 4 =
      some (toLE 4 records.length) := by
    rw [slice?_eq_some_iff]
    refine ⟨by omega, four_le_compressed width, ?_⟩
    rw [slice, List.drop_zero]
    exact Platform.compress_prefix records width
  have sized : ofLE (toLE 4 records.length) = records.length := ofLE_toLE_of_lt width
  unfold decodeCompressedBlock
  rw [digest, rejectIf_ne_self, except_ok_bind, sizePrefix, okOr_some, except_ok_bind]
  dsimp only
  rw [sized, length, rejectIf_of_not (by simpa using small), except_ok_bind,
    Platform.decompress_compress records width]
  dsimp only [except_pure]
  rw [except_ok_bind, rejectIf_ne_self, except_ok_bind]

/-- The blocks of the data region hold their groups. -/
theorem layoutBlocks_holds {groups : List (List Entry)} (source before after : Bytes)
    (fits : ∀ g ∈ groups, FitsBlock g)
    (content : source = before ++ ((layoutBlocks (groups.map rawBlock) before.length).2 ++ after)) :
    List.Forall₂ (BlockHolds source) (layoutBlocks (groups.map rawBlock) before.length).1 groups := by
  induction groups generalizing before with
  | nil => exact .nil
  | cons group rest ih =>
    obtain ⟨first, fits⟩ := List.forall_mem_cons.mp fits
    simp only [List.map_cons, layoutBlocks] at content ⊢
    generalize compressed_eq : Platform.compressPrependSize (rawBlock group).records = compressed at *
    refine .cons ⟨⟨compressed, ?_, ?_⟩, ?_, rfl⟩ ?_
    · rw [slice?_eq_some_iff]
      refine ⟨by dsimp only; omega, ?_, ?_⟩
      · rw [content]
        simp only [List.length_append]
        omega
      · exact slice_of_eq _ _ (by rw [content, List.append_assoc]) rfl rfl
    · rw [← compressed_eq]
      exact decodeCompressedBlock_compress first.small rfl (by rw [compressed_eq])
    · obtain ⟨-, last, lastIs⟩ := ends_of_ne_nil first.nonempty
      rw [lastIs]
      simp [rawBlock, lastIs]
    · have again := ih (before ++ compressed) fits
      rw [List.length_append] at again
      exact again (by rw [content]; simp only [List.append_assoc])

/-! ## The index -/

omit [Platform] in
theorem decodeHexNibble_hexNibble : ∀ n < 16, decodeHexNibble (hexNibble n) = .ok (UInt8.ofNat n) := by
  decide

omit [Platform] in
theorem nibbles_or (byte : UInt8) :
    (UInt8.ofNat (byte.toNat / 16) <<< 4) ||| UInt8.ofNat (byte.toNat % 16) = byte := by
  have all : ∀ n < 256, (UInt8.ofNat (n / 16) <<< 4) ||| UInt8.ofNat (n % 16) = UInt8.ofNat n := by
    decide +kernel
  have this := all byte.toNat byte.toNat_lt
  rwa [UInt8.ofNat_toNat] at this

omit [Platform] in
theorem decodeHexPairs_hex (digest : Bytes) : decodeHexPairs (hex digest) = .ok digest := by
  induction digest with
  | nil => rfl
  | cons byte rest ih =>
    have bound := byte.toNat_lt
    have unfolded : hex (byte :: rest) =
        hexNibble (byte.toNat / 16) :: hexNibble (byte.toNat % 16) :: hex rest := rfl
    rw [unfolded, decodeHexPairs, decodeHexNibble_hexNibble _ (by omega), except_ok_bind,
      decodeHexNibble_hexNibble _ (by omega), except_ok_bind, ih, except_ok_bind, nibbles_or]
    rfl

omit [Platform] in
theorem hex_injective {a b : Bytes} (same : hex a = hex b) : a = b := by
  have decoded := decodeHexPairs_hex a
  rw [same, decodeHexPairs_hex, Except.ok.injEq] at decoded
  exact decoded.symm

omit [Platform] in
theorem decodeSha256Hex_hex {digest : Bytes} (length : digest.length = 32) :
    decodeSha256Hex (hex digest) = .ok digest := by
  unfold decodeSha256Hex
  rw [rejectIf_of_not (by rw [length_hex, length]; decide), except_ok_bind, decodeHexPairs_hex]

/-- A block descriptor that the index reader accepts at `start`. -/
structure Indexable (start indexOffset : Nat) (prior : Option Bytes) (block : BlockDescriptor) :
    Prop where
  offset : block.offset = start
  physical : 4 ≤ block.physicalBytes
  records : 0 < block.recordBytes ∧ block.recordBytes ≤ maxDecodedBlockBytes
  entries : 0 < block.entries ∧ block.entries < 256 ^ 8
  key : block.lastKey ≠ [] ∧ block.lastKey.length ≤ maxKeyBytes
  inside : block.offset + block.physicalBytes ≤ indexOffset
  digest : block.digest.length = 32
  order : ∀ p ∈ prior, p ≤ block.lastKey

omit [Platform] in
theorem length_indexEntry {block : BlockDescriptor} (digest : block.digest.length = 32) :
    (indexEntry block).length = indexEntryBytes + block.lastKey.length := by
  simp only [indexEntry, indexEntryBytes, List.length_append, length_toBE, length_hex, digest]

omit [Platform] in
/-- One entry of the index, read back from wherever it stands. -/
theorem readIndexEntries_cons {index before after : Bytes} {indexOffset count start : Nat}
    {prior : Option Bytes} {block : BlockDescriptor} (ok : Indexable start indexOffset prior block)
    (width : indexOffset < 256 ^ 8) (content : index = before ++ (indexEntry block ++ after)) :
    readIndexEntries index indexOffset (count + 1) before.length start prior =
      (do
        let (blocks, cursor, priorEnd) ← readIndexEntries index indexOffset count
          (before ++ indexEntry block).length (start + block.physicalBytes) (some block.lastKey)
        return (block :: blocks, cursor, priorEnd)) := by
  have keyWidth : block.lastKey.length < 256 ^ 4 := lt_of_le_of_lt ok.key.2 (by decide)
  have recordWidth : block.recordBytes < 256 ^ 8 := lt_of_le_of_lt ok.records.2 (by decide)
  have offsetWidth : block.offset < 256 ^ 8 := by have := ok.inside; omega
  have physicalWidth : block.physicalBytes < 256 ^ 8 := by have := ok.inside; omega
  have length := length_indexEntry ok.digest
  let fields := [toBE 8 block.offset, toBE 8 block.physicalBytes, toBE 8 block.recordBytes,
    toBE 8 block.entries, toBE 4 block.lastKey.length, toBE 4 0, hex block.digest]
  have fixedLength : fields.flatten.length = indexEntryBytes := by
    simp [fields, indexEntryBytes, ok.digest]
  have whole : indexEntry block = fields.flatten ++ block.lastKey := by
    simp [indexEntry, fields]
  have fixedRead : slice? index before.length (before.length + indexEntryBytes) =
      some fields.flatten := by
    rw [slice?_eq_some_iff]
    refine ⟨by omega, ?_, ?_⟩
    · rw [content, List.length_append, List.length_append, length]
      omega
    · apply slice_of_eq before (block.lastKey ++ after)
      · rw [content, whole, List.append_assoc]
      · rfl
      · rw [fixedLength]
  have keyRead : slice? index (before.length + indexEntryBytes)
      (before.length + indexEntryBytes + block.lastKey.length) = some block.lastKey := by
    rw [slice?_eq_some_iff]
    refine ⟨by omega, ?_, ?_⟩
    · rw [content, List.length_append, List.length_append, length]
      omega
    · apply slice_of_eq (before ++ fields.flatten) after
      · rw [content, whole]
        simp only [List.append_assoc]
      · rw [List.length_append, fixedLength]
      · rw [List.length_append, fixedLength]
  have offsetField : slice fields.flatten 0 8 = toBE 8 block.offset :=
    slice_flatten (i := 0) rfl rfl rfl (by simp)
  have physicalField : slice fields.flatten 8 16 = toBE 8 block.physicalBytes :=
    slice_flatten (i := 1) rfl rfl (by simp [fields]) (by simp)
  have recordField : slice fields.flatten 16 24 = toBE 8 block.recordBytes :=
    slice_flatten (i := 2) rfl rfl (by simp [fields]) (by simp)
  have entriesField : slice fields.flatten 24 32 = toBE 8 block.entries :=
    slice_flatten (i := 3) rfl rfl (by simp [fields]) (by simp)
  have keyField : slice fields.flatten 32 36 = toBE 4 block.lastKey.length :=
    slice_flatten (i := 4) rfl rfl (by simp [fields]) (by simp)
  have flags : slice fields.flatten 36 40 = [0, 0, 0, 0] :=
    slice_flatten (i := 5) rfl rfl (by simp [fields]) (by simp)
  have digestField : slice fields.flatten 40 104 = hex block.digest :=
    slice_flatten (i := 6) rfl rfl (by simp [fields]) (by simp [ok.digest])
  have keyPos : 0 < block.lastKey.length := List.length_pos_iff.mpr ok.key.1
  have accepted : ¬ ([0, 0, 0, 0] ≠ ([0, 0, 0, 0] : Bytes) ∨ block.physicalBytes < 4 ∨
      block.recordBytes = 0 ∨ block.recordBytes > maxDecodedBlockBytes ∨ block.entries = 0 ∨
      block.lastKey.length = 0 ∨ block.lastKey.length > maxKeyBytes ∨ block.offset ≠ start ∨
      block.offset + block.physicalBytes > indexOffset) := by
    have := ok.physical
    have := ok.records
    have := ok.entries
    have := ok.key.2
    have := ok.inside
    have := ok.offset
    simp only [ne_eq, not_true_eq_false, false_or]
    omega
  have ordered : ¬ ∃ p ∈ prior, p > block.lastKey := by
    rintro ⟨p, member, less⟩
    exact absurd (ok.order p member) (not_le.mpr less)
  have next : before.length + indexEntryBytes + block.lastKey.length =
      (before ++ indexEntry block).length := by
    rw [List.length_append, length]
    omega
  rw [readIndexEntries]
  simp only [fixedRead, okOr_some, except_ok_bind, offsetField, physicalField, recordField,
    entriesField, keyField, flags, digestField, decodeSha256Hex_hex ok.digest,
    ofBE_toBE_of_lt offsetWidth, ofBE_toBE_of_lt physicalWidth, ofBE_toBE_of_lt recordWidth,
    ofBE_toBE_of_lt ok.entries.2, ofBE_toBE_of_lt keyWidth, keyRead, rejectIf_of_not accepted,
    rejectIf_of_not ordered]
  rw [next, ← ok.offset]

theorem length_layoutBlocks (blocks : List RawBlock) (offset : Nat) :
    (layoutBlocks blocks offset).1.length = blocks.length := by
  induction blocks generalizing offset with
  | nil => rfl
  | cons block rest ih =>
    simp only [layoutBlocks, List.length_cons]
    rw [ih]

/-- The index lists the blocks as they were laid out. -/
theorem readIndexEntries_layout {groups : List (List Entry)} (index before after : Bytes)
    (indexOffset start : Nat) (prior : Option Bytes) (fits : ∀ g ∈ groups, FitsBlock g)
    (bounded : ∀ e ∈ groups.flatten, e.Bounded) (sorted : groups.flatten.Pairwise Entry.Before)
    (after_ : ∀ p ∈ prior, ∀ e ∈ groups.flatten, p ≤ e.1)
    (inside : start + (layoutBlocks (groups.map rawBlock) start).2.length ≤ indexOffset)
    (width : indexOffset < 256 ^ 8)
    (content : index = before ++
      ((layoutBlocks (groups.map rawBlock) start).1.flatMap indexEntry ++ after)) :
    readIndexEntries index indexOffset groups.length before.length start prior =
      .ok ((layoutBlocks (groups.map rawBlock) start).1,
        before.length +
          ((layoutBlocks (groups.map rawBlock) start).1.flatMap indexEntry).length,
        start + (layoutBlocks (groups.map rawBlock) start).2.length) := by
  induction groups generalizing before start prior with
  | nil => simp [readIndexEntries, layoutBlocks]
  | cons group rest ih =>
    obtain ⟨first, fits⟩ := List.forall_mem_cons.mp fits
    rw [List.flatten_cons] at bounded sorted after_
    obtain ⟨sortedGroup, sortedRest, across⟩ := List.pairwise_append.mp sorted
    obtain ⟨-, lastKey, lastIs⟩ := ends_of_ne_nil first.nonempty
    obtain ⟨last, lastEntry, rfl⟩ := Option.map_eq_some_iff.mp lastIs
    have lastMem : last ∈ group := List.mem_of_getLast? lastEntry
    have width' : (recordsOf group).length < 2 ^ 32 := lt_of_le_of_lt first.small (by decide)
    simp only [List.map_cons, layoutBlocks, List.flatMap_cons, List.length_cons,
      List.length_append] at inside content ⊢
    generalize compressed_eq : Platform.compressPrependSize (rawBlock group).records = compressed at *
    have compressedLong : 4 ≤ compressed.length := by
      rw [← compressed_eq]
      exact four_le_compressed width'
    have keyOf : (rawBlock group).lastKey = last.1 := by simp [rawBlock, lastEntry]
    have lastBounded := bounded last (List.mem_append_left _ lastMem)
    have count : group.length ≤ (recordsOf group).length := length_le_recordsOf group
    have records : 0 < group.length := List.length_pos_iff.mpr first.nonempty
    have small := first.small
    have decoded : maxDecodedBlockBytes < 256 ^ 8 := by decide
    have ok : Indexable start indexOffset prior
        ⟨start, compressed.length, (rawBlock group).records.length, (rawBlock group).entries,
          Platform.sha256 compressed, (rawBlock group).lastKey⟩ :=
      { offset := rfl
        physical := compressedLong
        records := ⟨by change 0 < (recordsOf group).length; omega, first.small⟩
        entries := ⟨records, by change group.length < _; omega⟩
        key := by rw [keyOf]; exact ⟨lastBounded.keyNonempty, lastBounded.keySmall⟩
        inside := by dsimp only; omega
        digest := Platform.length_sha256 _
        order := by
          intro p member
          rw [keyOf]
          exact after_ p member last (List.mem_append_left _ lastMem) }
    rw [List.append_assoc] at content
    rw [readIndexEntries_cons ok width content,
      ih _ (start + compressed.length) _ fits
        (fun e h => bounded e (List.mem_append_right _ h)) sortedRest ?_ (by omega) ?_]
    · simp only [except_ok_bind, except_pure, List.length_append, Nat.add_assoc]
    · intro p member e inRest
      cases member
      rw [keyOf]
      exact (across last lastMem e inRest).key_le
    · rw [content]
      simp only [List.append_assoc]

/-! ## Whole files -/

/-- The least sequence of a memtable's versions, as the encoder computes it. -/
def Memtable.minimumSequence (table : Memtable) : Nat :=
  ((table.flatVersions.map (·.2.sequence)).min?).getD 0

/-- The table of blocks and the data region of groups of entries. -/
def layoutOf (groups : List (List Entry)) : List BlockDescriptor × Bytes :=
  layoutBlocks (groups.map rawBlock) v3HeaderBytes

/-- Everything before the footer of a segment whose blocks hold `groups`. -/
def segmentContent (table : Memtable) (groups : List (List Entry)) : Bytes :=
  v3Header table.versionCount table.minimumSequence table.maximumSequence
    (recordsOf table.flatVersions).length (v3HeaderBytes + (layoutOf groups).2.length)
    groups.length ++ ((layoutOf groups).2 ++ indexBytes (layoutOf groups).1)

/-- How the versions of a memtable were divided into blocks. -/
structure Divided (table : Memtable) (groups : List (List Entry)) : Prop where
  content : groups.flatten = table.flatVersions
  fits : ∀ g ∈ groups, FitsBlock g
  bounded : ∀ e ∈ table.flatVersions, Entry.Bounded e
  nonempty : table.versionCount ≠ 0
  fewRecords : (recordsOf table.flatVersions).length ≤ maxSegmentBytes
  small : (segmentContent table groups).length ≤ maxSegmentBytes - footerBytes

/-- What an encoded segment is made of, and the run of the block-filling loops that made it. -/
theorem encodeV3_filled {table : Memtable} {bytes : Bytes} (h : encodeV3 table = .ok bytes) :
    ∃ groups total, fillBlocks table.flatVersions ⟨[], 0, []⟩ 0 = .ok (groups.map rawBlock, total) ∧
      Divided table groups ∧
      bytes = segmentContent table groups ++ sha256Hex (segmentContent table groups) := by
  simp only [encodeV3, except_bind_ok, rejectIf_ok, exists_const] at h
  obtain ⟨nonempty, ⟨blocks, total⟩, filled, few, small, same⟩ := h
  have start : (⟨[], 0, []⟩ : RawBlock) = rawBlock [] := rfl
  rw [start] at filled ⊢
  obtain ⟨groups, rfl, content, fits, rfl, bounded⟩ := fillBlocks_ok (by simp) filled
  rw [List.nil_append] at content
  rw [Nat.zero_add] at few small same
  have whole : ∀ {P : Bytes → Prop}, P (v3Header table.versionCount table.minimumSequence
      table.maximumSequence (recordsOf table.flatVersions).length
      (v3HeaderBytes + (layoutOf groups).2.length) (layoutOf groups).1.length ++
      ((layoutOf groups).2 ++ indexBytes (layoutOf groups).1)) → P (segmentContent table groups) := by
    intro P holds
    unfold segmentContent
    rwa [layoutOf, length_layoutBlocks, List.length_map, ← layoutOf] at holds
  refine ⟨groups, _, filled, ⟨content, fits, bounded, nonempty, not_lt.mp few, ?_⟩, ?_⟩
  · exact whole (P := fun content => content.length ≤ maxSegmentBytes - footerBytes) (not_lt.mp small)
  · exact (whole (P := fun content => bytes = content ++ sha256Hex content)
      (by cases same; rfl))

theorem encodeV3_ok {table : Memtable} {bytes : Bytes} (h : encodeV3 table = .ok bytes) :
    ∃ groups, Divided table groups ∧
      bytes = segmentContent table groups ++ sha256Hex (segmentContent table groups) := by
  obtain ⟨groups, _, -, divided, same⟩ := encodeV3_filled h
  exact ⟨groups, divided, same⟩

omit [Platform] in
@[simp] theorem length_v3Header (a b c d e f : Nat) :
    (v3Header a b c d e f).length = v3HeaderBytes := by
  simp [v3Header, segmentV3Magic, v3HeaderBytes]

omit [Platform] in
theorem mem_min?_getD {xs : List Nat} (nonempty : xs ≠ []) : (xs.min?).getD 0 ∈ xs := by
  cases least : xs.min? with
  | none => exact absurd (List.min?_eq_none_iff.mp least) nonempty
  | some n => exact List.min?_mem least

omit [Platform] in
theorem min?_getD_le {xs : List Nat} {n : Nat} (member : n ∈ xs) : (xs.min?).getD 0 ≤ n := by
  cases least : xs.min? with
  | none =>
    rw [List.min?_eq_none_iff.mp least] at member
    cases member
  | some m => exact (List.min?_eq_some_iff.mp least).2 n member

/-- The descriptor of the segment that a memtable is written to. -/
def descriptorOf (table : Memtable) (actual : Bytes) (length : Nat) : SegmentDescriptor :=
  { id := actual
    level := 0
    firstKey := (table.flatVersions.head?.map Prod.fst).getD []
    lastKey := (table.flatVersions.getLast?.map Prod.fst).getD []
    minimumSequence := table.minimumSequence
    maximumSequence := table.maximumSequence
    entries := table.versionCount
    bytes := length
    checksum := actual }

section File

variable {table : Memtable} {durable : Nat} {groups : List (List Entry)}

theorem Divided.groups_ne_nil (divided : Divided table groups) : groups ≠ [] := by
  rintro rfl
  have empty := divided.content
  rw [List.flatten_nil] at empty
  exact divided.nonempty ((Memtable.flatVersions_eq_nil_iff table).mp empty.symm)

theorem Divided.inRange (divided : Divided table groups) (isOver : table.Over durable)
    (u64 : table.maximumSequence ≤ u64Max) :
    InRange table.minimumSequence table.maximumSequence table.flatVersions := by
  refine ⟨?_, ?_, fun e h => (isOver.entry_bounds h).2⟩
  · intro e member
    have bounded := divided.bounded e member
    exact ⟨bounded.keyNonempty, bounded.keySmall, bounded.valueSmall,
      (isOver.entry_bounds member).2.trans u64⟩
  · intro e member
    exact min?_getD_le (List.mem_map_of_mem member)

theorem Divided.minimumSequence (divided : Divided table groups) (isOver : table.Over durable) :
    durable < table.minimumSequence ∧ table.minimumSequence ≤ table.maximumSequence := by
  have nonempty : table.flatVersions.map (fun e : Entry => e.2.sequence) ≠ [] := by
    intro empty
    rw [List.map_eq_nil_iff] at empty
    exact divided.nonempty ((Memtable.flatVersions_eq_nil_iff table).mp empty)
  obtain ⟨e, member, least⟩ := List.mem_map.mp (mem_min?_getD nonempty)
  have bounds := isOver.entry_bounds member
  have least : e.2.sequence = table.minimumSequence := least
  rw [← least]
  exact bounds

/-- The blocks of an encoded file hold the groups of its entries. -/
theorem Divided.held (divided : Divided table groups) (footer : Bytes) :
    List.Forall₂ (BlockHolds (segmentContent table groups ++ footer)) (layoutOf groups).1 groups := by
  have placed := layoutBlocks_holds (segmentContent table groups ++ footer)
    (v3Header table.versionCount table.minimumSequence table.maximumSequence
      (recordsOf table.flatVersions).length (v3HeaderBytes + (layoutOf groups).2.length)
      groups.length) (indexBytes (layoutOf groups).1 ++ footer) divided.fits
  rw [length_v3Header] at placed
  exact placed (by simp only [segmentContent, layoutOf, List.append_assoc])

/-- The block traversal of an encoded file reads back the memtable's versions. -/
theorem validateV3Blocks_content (divided : Divided table groups) (isOver : table.Over durable)
    (u64 : table.maximumSequence ≤ u64Max) (footer actual : Bytes) (length : Nat) :
    validateV3Blocks (segmentContent table groups ++ footer)
      { id := actual, level := 0, firstKey := [], lastKey := [],
        minimumSequence := table.minimumSequence, maximumSequence := table.maximumSequence,
        entries := table.versionCount, bytes := length, checksum := actual }
      (layoutOf groups).1 (recordsOf table.flatVersions).length =
      .ok (descriptorOf table actual length, (layoutOf groups).1) := by
  have few : (recordsOf table.flatVersions).length ≤ u64Max :=
    divided.fewRecords.trans (by decide)
  have counted := length_le_recordsOf table.flatVersions
  have scanned := scanBlocks_holds ⟨none, none, none, 0, 0⟩ (divided.held footer)
    (by rw [divided.content]; exact divided.inRange isOver u64)
    (by rw [divided.content]; exact ⟨isOver.sorted, by simp⟩)
    (by rw [divided.content]; dsimp only; omega) (by rw [divided.content]; dsimp only; omega)
  unfold validateV3Blocks
  dsimp only
  rw [scanned, except_ok_bind, divided.content]
  have agrees : ¬ ((BlocksScan.through ⟨none, none, none, 0, 0⟩ table.flatVersions).entries ≠
      table.versionCount ∨
      (BlocksScan.through ⟨none, none, none, 0, 0⟩ table.flatVersions).bytes ≠
        (recordsOf table.flatVersions).length) := by
    simp [BlocksScan.through, Memtable.length_flatVersions]
  rw [rejectIf_of_not agrees, except_ok_bind]
  simp [BlocksScan.through, descriptorOf]

/-- The index of an encoded segment. -/
theorem readIndexEntries_content (divided : Divided table groups) (isOver : table.Over durable)
    {indexOffset : Nat} (offset : indexOffset = v3HeaderBytes + (layoutOf groups).2.length)
    (width : indexOffset < 256 ^ 8) :
    readIndexEntries (indexBytes (layoutOf groups).1) indexOffset groups.length indexHeaderBytes
      v3HeaderBytes none =
      .ok ((layoutOf groups).1, (indexBytes (layoutOf groups).1).length, indexOffset) := by
  have read := readIndexEntries_layout (indexBytes (layoutOf groups).1)
    (indexV3Magic ++ toBE 4 (layoutOf groups).1.length ++ toBE 4 0) [] indexOffset v3HeaderBytes
    none divided.fits
    (by rw [divided.content]; exact divided.bounded)
    (by rw [divided.content]; exact isOver.sorted) (by simp) (by rw [offset]; rfl) width
    (by rw [List.append_nil]; rfl)
  rw [← layoutOf] at read
  have headerLength : (indexV3Magic ++ toBE 4 (layoutOf groups).1.length ++ toBE 4 0).length =
      indexHeaderBytes := by simp [indexV3Magic, indexHeaderBytes]
  rw [headerLength] at read
  rw [read, offset]
  have total : (indexBytes (layoutOf groups).1).length =
      indexHeaderBytes + ((layoutOf groups).1.flatMap indexEntry).length := by
    rw [indexBytes, List.length_append, headerLength]
  rw [total]

theorem length_indexEntries (blocks : List RawBlock) (offset : Nat) :
    ((layoutBlocks blocks offset).1.flatMap indexEntry).length =
      (blocks.map fun block => indexEntryBytes + block.lastKey.length).sum := by
  induction blocks generalizing offset with
  | nil => rfl
  | cons block rest ih =>
    simp only [layoutBlocks, List.flatMap_cons, List.length_append, List.map_cons, List.sum_cons]
    rw [length_indexEntry (Platform.length_sha256 _), ih]

/-- The index of a segment by its blocks. -/
theorem length_index (groups : List (List Entry)) :
    (indexBytes (layoutOf groups).1).length = indexHeaderBytes +
      ((groups.map rawBlock).map fun block => indexEntryBytes + block.lastKey.length).sum := by
  have headerLength : (indexV3Magic ++ toBE 4 (layoutOf groups).1.length ++ toBE 4 0).length =
      indexHeaderBytes := by simp [indexV3Magic, indexHeaderBytes]
  rw [indexBytes, List.length_append, headerLength, layoutOf, length_indexEntries]

theorem length_index_ge (groups : List (List Entry)) :
    indexHeaderBytes + groups.length * indexEntryBytes ≤ (indexBytes (layoutOf groups).1).length := by
  rw [length_index]
  apply Nat.add_le_add_left
  induction groups with
  | nil => simp
  | cons group rest ih =>
    simp only [List.map_cons, List.sum_cons, List.length_cons, Nat.add_mul]
    omega

/-- The metadata of an encoded file, unless the index is larger than a reader accepts. -/
theorem readV3Metadata_content (divided : Divided table groups) (isOver : table.Over durable)
    (u64 : table.maximumSequence ≤ u64Max) {footer actual : Bytes}
    (footerLength : footer.length = footerBytes) :
    readV3Metadata (segmentContent table groups ++ footer) actual =
      if (indexBytes (layoutOf groups).1).length ≤ maxIndexBytes then
        .ok (descriptorOf table actual (segmentContent table groups ++ footer).length,
          (layoutOf groups).1)
      else .error (.invalidSegment "v3 index exceeds its bounded contract") := by
  generalize source_eq : segmentContent table groups ++ footer = source
  generalize index_eq : indexBytes (layoutOf groups).1 = index
  generalize data_eq : (layoutOf groups).2 = data
  generalize offset_eq : v3HeaderBytes + data.length = indexOffset
  have atLeast : 16 + groups.length * 104 ≤ index.length := by
    rw [← index_eq]
    exact length_index_ge groups
  have some_ : 0 < groups.length := List.length_pos_iff.mpr divided.groups_ne_nil
  -- the parts of the file
  let fields := [segmentV3Magic, toBE 2 segmentFormatVersion, toBE 2 v3HeaderBytes, toBE 4 1,
    toBE 8 table.versionCount, toBE 8 table.minimumSequence, toBE 8 table.maximumSequence,
    toBE 8 (recordsOf table.flatVersions).length, toBE 8 indexOffset, toBE 4 groups.length,
    toBE 4 segmentBlockTargetBytes]
  have header : v3Header table.versionCount table.minimumSequence table.maximumSequence
      (recordsOf table.flatVersions).length indexOffset groups.length = fields.flatten := by
    simp [v3Header, fields]
  have headerLength : fields.flatten.length = v3HeaderBytes := by rw [← header, length_v3Header]
  have content : segmentContent table groups = fields.flatten ++ (data ++ index) := by
    rw [segmentContent, data_eq, index_eq, offset_eq, header]
  have contentLength : (segmentContent table groups).length = indexOffset + index.length := by
    rw [content, List.length_append, List.length_append, headerLength, ← offset_eq]
    omega
  have sourceLength : source.length = indexOffset + index.length + footerBytes := by
    rw [← source_eq, List.length_append, contentLength, footerLength]
  have contentEnd : source.length - footerBytes = indexOffset + index.length := by omega
  have headerRead : slice? source 0 v3HeaderBytes = some fields.flatten := by
    rw [slice?_eq_some_iff]
    refine ⟨by omega, by rw [sourceLength, ← offset_eq]; omega, ?_⟩
    apply slice_of_eq [] (data ++ index ++ footer)
    · rw [← source_eq, content]
      simp only [List.nil_append, List.append_assoc]
    · rfl
    · rw [headerLength]
      simp
  have indexRead : slice? source indexOffset (indexOffset + index.length) = some index := by
    rw [slice?_eq_some_iff]
    refine ⟨by omega, by omega, ?_⟩
    apply slice_of_eq (fields.flatten ++ data) footer
    · rw [← source_eq, content]
      simp only [List.append_assoc]
    · rw [List.length_append, headerLength, offset_eq]
    · rw [List.length_append, headerLength, offset_eq]
  -- the fields of the header
  have magicField : slice fields.flatten 0 8 = segmentV3Magic :=
    slice_flatten (i := 0) rfl rfl rfl rfl
  have versionField : slice fields.flatten 8 10 = toBE 2 segmentFormatVersion :=
    slice_flatten (i := 1) rfl rfl rfl rfl
  have lengthField : slice fields.flatten 10 12 = toBE 2 v3HeaderBytes :=
    slice_flatten (i := 2) rfl rfl rfl rfl
  have flagField : slice fields.flatten 12 16 = toBE 4 1 := slice_flatten (i := 3) rfl rfl rfl rfl
  have entriesField : slice fields.flatten 16 24 = toBE 8 table.versionCount :=
    slice_flatten (i := 4) rfl rfl rfl (by simp)
  have minimumField : slice fields.flatten 24 32 = toBE 8 table.minimumSequence :=
    slice_flatten (i := 5) rfl rfl (by simp [fields, segmentV3Magic]) (by simp)
  have maximumField : slice fields.flatten 32 40 = toBE 8 table.maximumSequence :=
    slice_flatten (i := 6) rfl rfl (by simp [fields, segmentV3Magic]) (by simp)
  have recordField : slice fields.flatten 40 48 = toBE 8 (recordsOf table.flatVersions).length :=
    slice_flatten (i := 7) rfl rfl (by simp [fields, segmentV3Magic]) (by simp)
  have offsetField : slice fields.flatten 48 56 = toBE 8 indexOffset :=
    slice_flatten (i := 8) rfl rfl (by simp [fields, segmentV3Magic]) (by simp)
  have countField : slice fields.flatten 56 60 = toBE 4 groups.length :=
    slice_flatten (i := 9) rfl rfl (by simp [fields, segmentV3Magic]) (by simp)
  have targetField : slice fields.flatten 60 64 = toBE 4 segmentBlockTargetBytes :=
    slice_flatten (i := 10) rfl rfl (by simp [fields, segmentV3Magic]) (by simp)
  -- every field is in the range of its width
  have small := divided.small
  rw [contentLength] at small
  have few := divided.fewRecords
  have counted := length_le_recordsOf table.flatVersions
  rw [Memtable.length_flatVersions] at counted
  have minimum := divided.minimumSequence isOver
  have segmentBound : maxSegmentBytes = 1073741824 := rfl
  have indexHeader : indexHeaderBytes = 16 := rfl
  have indexEntry_ : indexEntryBytes = 104 := rfl
  have footer_ : footerBytes = 64 := rfl
  have u64_ : u64Max = 18446744073709551615 := rfl
  have entriesWidth : table.versionCount < 256 ^ 8 := by omega
  have minimumWidth : table.minimumSequence < 256 ^ 8 := by omega
  have maximumWidth : table.maximumSequence < 256 ^ 8 := by omega
  have recordWidth : (recordsOf table.flatVersions).length < 256 ^ 8 := by omega
  have offsetWidth : indexOffset < 256 ^ 8 := by omega
  have countWidth : groups.length < 256 ^ 4 := by omega
  have layoutLength : (layoutOf groups).1.length = groups.length := by
    rw [layoutOf, length_layoutBlocks, List.length_map]
  have indexMagic : slice index 0 8 = indexV3Magic :=
    slice_of_eq [] (toBE 4 (layoutOf groups).1.length ++ toBE 4 0 ++
      (layoutOf groups).1.flatMap indexEntry) (by simp [← index_eq, indexBytes]) rfl rfl
  have indexCount : slice index 8 12 = toBE 4 groups.length := by
    rw [← layoutLength]
    exact slice_of_eq indexV3Magic (toBE 4 0 ++
      (layoutOf groups).1.flatMap indexEntry) (by simp [← index_eq, indexBytes]) rfl (by simp; rfl)
  have indexFlags : slice index 12 16 = [0, 0, 0, 0] :=
    slice_of_eq (indexV3Magic ++ toBE 4 (layoutOf groups).1.length) ((layoutOf groups).1.flatMap indexEntry)
      (by simp [← index_eq, indexBytes]; rfl) (by simp; rfl) (by simp; rfl)
  have constants : ofBE (toBE 2 segmentFormatVersion) = segmentFormatVersion ∧
      ofBE (toBE 2 v3HeaderBytes) = v3HeaderBytes ∧ ofBE (toBE 4 1) = 1 ∧
      ofBE (toBE 4 segmentBlockTargetBytes) = segmentBlockTargetBytes := by decide
  have contract : ¬ (table.versionCount = 0 ∨ table.minimumSequence = 0 ∨
      table.minimumSequence > table.maximumSequence ∨ groups.length = 0 ∨
      segmentBlockTargetBytes ≠ segmentBlockTargetBytes ∨ indexOffset < v3HeaderBytes ∨
      indexOffset ≥ indexOffset + index.length ∨
      (recordsOf table.flatVersions).length > maxSegmentBytes) := by
    have := divided.nonempty
    omega
  have indexLength : indexOffset + index.length - indexOffset = index.length := by omega
  have blockCount : ¬ groups.length > (index.length - indexHeaderBytes) / indexEntryBytes := by
    rw [not_lt, Nat.le_div_iff_mul_le (by decide), indexHeader, indexEntry_]
    omega
  have entries := readIndexEntries_content divided isOver (by rw [← offset_eq, ← data_eq]) offsetWidth
  rw [index_eq] at entries
  have blocks := validateV3Blocks_content divided isOver u64 footer actual source.length
  rw [source_eq] at blocks
  simp only [ne_eq, not_true_eq_false] at contract
  unfold readV3Metadata
  simp only [headerRead, okOr_some, except_ok_bind, magicField, versionField, lengthField, flagField,
    entriesField, minimumField, maximumField, recordField, offsetField, countField, targetField,
    constants, ofBE_toBE_of_lt entriesWidth, ofBE_toBE_of_lt minimumWidth,
    ofBE_toBE_of_lt maximumWidth, ofBE_toBE_of_lt recordWidth, ofBE_toBE_of_lt offsetWidth,
    ofBE_toBE_of_lt countWidth, contentEnd, rejectIf_of_not contract, indexLength,
    rejectIf_of_not blockCount, indexRead, indexMagic, indexCount, indexFlags, entries, ne_eq,
    not_true_eq_false, or_self, rejectIf_false, blocks]
  split
  · rename_i fits
    have accepted : ¬ (index.length < indexHeaderBytes ∨ index.length > maxIndexBytes) := by omega
    rw [rejectIf_of_not accepted, except_ok_bind]
  · rename_i large
    have refused : index.length < indexHeaderBytes ∨ index.length > maxIndexBytes := by omega
    rw [rejectIf_of refused, except_error_bind]

theorem holds_content (divided : Divided table groups) (isOver : table.Over durable)
    (u64 : table.maximumSequence ≤ u64Max) {footer actual : Bytes} {length : Nat} :
    Segment.Holds ⟨descriptorOf table actual length,
      .blocked (segmentContent table groups ++ footer) (layoutOf groups).1⟩ table.flatVersions := by
  have nonempty : table.flatVersions ≠ [] := fun empty =>
    divided.nonempty ((Memtable.flatVersions_eq_nil_iff table).mp empty)
  obtain ⟨⟨first, firstIs⟩, last, lastIs⟩ := ends_of_ne_nil nonempty
  have positive := (divided.minimumSequence isOver).1
  refine ⟨?_, divided.inRange isOver u64, isOver.sorted, ?_, ?_, ?_, table.length_flatVersions⟩
  · exact ⟨groups, divided.content.symm, divided.held footer⟩
  · change 1 ≤ table.minimumSequence
    omega
  · rw [firstIs]
    simp [descriptorOf, firstIs]
  · rw [lastIs]
    simp [descriptorOf, lastIs]

theorem length_footer (content : Bytes) : (sha256Hex content).length = footerBytes := by
  rw [sha256Hex, length_hex, Platform.length_sha256]
  rfl

/-- The footer check accepts a text with the digest of its own content. -/
theorem verifyDigest_sealed (content : Bytes) :
    verifyDigest (content ++ sha256Hex content) = .ok (sha256Hex content) := by
  have split : (content ++ sha256Hex content).length - footerBytes = content.length := by
    rw [List.length_append, length_footer]
    omega
  unfold verifyDigest
  rw [split]
  dsimp only
  rw [List.take_left, List.drop_left, if_pos rfl]
  rfl

/-- A segment file opens to what was encoded into it, unless its index is too large. -/
theorem openBytes_encodeV3 {bytes : Bytes} (isOver : table.Over durable)
    (u64 : table.maximumSequence ≤ u64Max) (encoded : encodeV3 table = .ok bytes) :
    ∃ segment : Segment, segment.Holds table.flatVersions ∧
      segment.descriptor = descriptorOf table (segmentDigest bytes) bytes.length ∧
      (Segment.openBytes bytes = .ok segment ∨
        maxIndexBytes < bytes.length ∧ ∃ e, Segment.openBytes bytes = .error e) := by
  obtain ⟨groups, divided, rfl⟩ := encodeV3_ok encoded
  have verified := verifyDigest_sealed (segmentContent table groups)
  have footerLength := length_footer (segmentContent table groups)
  generalize footer_eq : sha256Hex (segmentContent table groups) = footer at *
  have lengths : (segmentContent table groups ++ footer).length - footerBytes =
      (segmentContent table groups).length := by
    rw [List.length_append, footerLength]
    omega
  have digest : segmentDigest (segmentContent table groups ++ footer) = footer := by
    rw [segmentDigest, lengths, List.take_left, footer_eq]
  obtain ⟨rest, headerFirst⟩ : ∃ rest, segmentContent table groups ++ footer =
      segmentV3Magic ++ (toBE 2 segmentFormatVersion ++ rest) := by
    simp only [segmentContent, v3Header, List.append_assoc]
    exact ⟨_, rfl⟩
  have magic : slice (segmentContent table groups ++ footer) 0 8 = segmentV3Magic :=
    slice_of_eq [] _ (by rw [headerFirst]; rfl) rfl rfl
  have version : slice (segmentContent table groups ++ footer) 8 10 =
      toBE 2 segmentFormatVersion := slice_of_eq _ _ headerFirst rfl rfl
  have isVersion3 : ofBE (toBE 2 segmentFormatVersion) = segmentFormatVersion := by decide
  have small := divided.small
  have long : v3HeaderBytes + indexHeaderBytes ≤ (segmentContent table groups).length := by
    have atLeast := length_index_ge groups
    rw [segmentContent, List.length_append, length_v3Header, List.length_append]
    omega
  have constants : maxSegmentBytes = 1073741824 ∧ footerBytes = 64 ∧ v3HeaderBytes = 64 ∧
      v1HeaderBytes = 40 ∧ indexHeaderBytes = 16 := by decide
  have total : (segmentContent table groups ++ footer).length =
      (segmentContent table groups).length + footerBytes := by
    rw [List.length_append, footerLength]
  have notLarge : ¬ (segmentContent table groups ++ footer).length > maxSegmentBytes := by omega
  have notShort : ¬ (segmentContent table groups ++ footer).length < v1HeaderBytes + footerBytes := by
    omega
  refine ⟨⟨descriptorOf table footer (segmentContent table groups ++ footer).length,
    .blocked (segmentContent table groups ++ footer) (layoutOf groups).1⟩,
    holds_content divided isOver u64, by rw [digest], ?_⟩
  have opened : Segment.openBytes (segmentContent table groups ++ footer) =
      (do
        let read ← readV3Metadata (segmentContent table groups ++ footer) footer
        return ⟨read.1, .blocked (segmentContent table groups ++ footer) read.2⟩) := by
    unfold Segment.openBytes decodeV3File
    rw [rejectIf_of_not notLarge, except_ok_bind, rejectIf_of_not notShort, except_ok_bind]
    dsimp only
    rw [version, magic, isVersion3, if_pos ⟨rfl, rfl⟩, verified, except_ok_bind]
  rw [opened, readV3Metadata_content divided isOver u64 footerLength]
  by_cases fits : (indexBytes (layoutOf groups).1).length ≤ maxIndexBytes
  · left
    rw [if_pos fits]
    rfl
  · right
    rw [if_neg fits]
    refine ⟨?_, _, rfl⟩
    have part : (indexBytes (layoutOf groups).1).length ≤ (segmentContent table groups).length := by
      rw [segmentContent, List.length_append, List.length_append]
      omega
    omega

end File

end Vyrm.Kv
