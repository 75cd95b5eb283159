import Vyrm.Kv.Segment.Records

/-!
# What an opened segment holds

`Segment.Holds segment entries` says that the storage of a segment is a faithful
encoding of a list of entries in canonical order, and that its descriptor
describes them. Every segment that any of the readers accepts holds some list of
entries, whatever bytes it was opened from.
-/

namespace Vyrm.Kv
open Lib

/-! ## The canonical order -/

namespace Entry

/-- Key order, and sequence order inside a key. -/
def Before (a b : Entry) : Prop := a.1 < b.1 ∨ a.1 = b.1 ∧ a.2.sequence < b.2.sequence

theorem Before.trans {a b c : Entry} (h : Before a b) (h' : Before b c) : Before a c := by
  rcases h with less | ⟨same, less⟩ <;> rcases h' with less' | ⟨same', less'⟩
  · exact .inl (less.trans less')
  · exact .inl (same' ▸ less)
  · exact .inl (same ▸ less')
  · exact .inr ⟨same.trans same', less.trans less'⟩

theorem Before.key_le {a b : Entry} (h : Before a b) : a.1 ≤ b.1 := by
  rcases h with less | ⟨same, -⟩
  · exact le_of_lt less
  · exact le_of_eq same

end Entry

/-- The position after an entry, as `validate_order` remembers it. -/
def Entry.position (entry : Entry) : Bytes × Nat := (entry.1, entry.2.sequence)

/-- A remembered position lies before an entry. -/
def PositionBefore (position : Bytes × Nat) (entry : Entry) : Prop :=
  position.1 < entry.1 ∨ position.1 = entry.1 ∧ position.2 < entry.2.sequence

/-- The position that remains after reading `entries` from `previous` on. -/
def lastPosition (previous : Option (Bytes × Nat)) (entries : List Entry) : Option (Bytes × Nat) :=
  (entries.getLast?.map Entry.position).or previous

/-- `entries` continue a canonical order after `previous`. -/
structure Continues (previous : Option (Bytes × Nat)) (entries : List Entry) : Prop where
  sorted : entries.Pairwise Entry.Before
  after : ∀ position ∈ previous, ∀ entry ∈ entries, PositionBefore position entry

theorem validateOrder_ok {previous : Option (Bytes × Nat)} {entry : Entry} {next : Nat}
    {position : Option (Bytes × Nat)} :
    validateOrder previous (entry.record next) = .ok position ↔
      position = some entry.position ∧ ∀ p ∈ previous, PositionBefore p entry := by
  simp only [validateOrder, except_bind_ok, rejectIf_ok, except_pure, Except.ok.injEq]
  change (∃ _ : Unit, (¬ ∃ p ∈ previous, entry.1 < p.1 ∨
    (entry.1 = p.1 ∧ entry.2.sequence ≤ p.2)) ∧ some entry.position = position) ↔ _
  constructor
  · rintro ⟨_, ordered, rfl⟩
    refine ⟨rfl, ?_⟩
    intro p member
    by_contra notBefore
    refine ordered ⟨p, member, ?_⟩
    simp only [PositionBefore, not_or, not_and, not_lt] at notBefore
    rcases lt_or_eq_of_le notBefore.1 with less | same
    · exact .inl less
    · exact .inr ⟨same, notBefore.2 same.symm⟩
  · rintro ⟨rfl, ordered⟩
    refine ⟨(), ?_, rfl⟩
    rintro ⟨p, member, less | ⟨same, le⟩⟩
    · rcases ordered p member with before | ⟨same, -⟩
      · exact absurd less (lt_asymm before)
      · exact absurd same.symm (ne_of_lt less)
    · rcases ordered p member with before | ⟨-, before⟩
      · exact absurd same.symm (ne_of_lt before)
      · exact absurd before (not_lt.mpr le)

theorem continues_cons {previous : Option (Bytes × Nat)} {entry : Entry} {rest : List Entry} :
    Continues previous (entry :: rest) ↔
      (∀ p ∈ previous, PositionBefore p entry) ∧ Continues (some entry.position) rest := by
  constructor
  · intro ⟨sorted, after⟩
    obtain ⟨first, sorted⟩ := List.pairwise_cons.mp sorted
    refine ⟨fun p member => after p member entry List.mem_cons_self, sorted, ?_⟩
    intro p member e inRest
    cases member
    exact first e inRest
  · intro ⟨before, sorted, after⟩
    refine ⟨List.pairwise_cons.mpr ⟨fun e member => after _ rfl e member, sorted⟩, ?_⟩
    intro p member e inside
    rcases List.mem_cons.mp inside with rfl | inside
    · exact before p member
    · have step : Entry.Before entry e := after _ rfl e inside
      exact Entry.Before.trans (a := (p.1, ⟨p.2, none⟩)) (before p member) step

theorem continues_append {previous : Option (Bytes × Nat)} {xs ys : List Entry} :
    Continues previous (xs ++ ys) ↔
      Continues previous xs ∧ Continues (lastPosition previous xs) ys := by
  induction xs generalizing previous with
  | nil =>
    simp only [List.nil_append, lastPosition, List.getLast?_nil, Option.map_none, Option.none_or]
    exact ⟨fun h => ⟨⟨List.Pairwise.nil, by simp⟩, h⟩, fun h => h.2⟩
  | cons entry rest ih =>
    have last : lastPosition previous (entry :: rest) = lastPosition (some entry.position) rest := by
      simp only [lastPosition, List.getLast?_cons]
      cases rest.getLast? <;> rfl
    rw [List.cons_append, continues_cons, ih, continues_cons, last, and_assoc]

theorem lastPosition_append (previous : Option (Bytes × Nat)) (xs ys : List Entry) :
    lastPosition previous (xs ++ ys) = lastPosition (lastPosition previous xs) ys := by
  simp only [lastPosition, List.getLast?_append, Option.map_or, Option.or_assoc]

/-! ## Blocks -/

/-- Entries whose sequences lie in a descriptor's range. -/
structure InRange (low high : Nat) (entries : List Entry) : Prop where
  fits : ∀ e ∈ entries, e.Fits
  low : ∀ e ∈ entries, low ≤ e.2.sequence
  high : ∀ e ∈ entries, e.2.sequence ≤ high

theorem inRange_cons {low high : Nat} {entry : Entry} {rest : List Entry} :
    InRange low high (entry :: rest) ↔
      (entry.Fits ∧ low ≤ entry.2.sequence ∧ entry.2.sequence ≤ high) ∧ InRange low high rest := by
  constructor
  · intro ⟨fits, lows, highs⟩
    exact ⟨⟨fits _ List.mem_cons_self, lows _ List.mem_cons_self, highs _ List.mem_cons_self⟩,
      fun e h => fits e (List.mem_cons_of_mem _ h), fun e h => lows e (List.mem_cons_of_mem _ h),
      fun e h => highs e (List.mem_cons_of_mem _ h)⟩
  · rintro ⟨⟨fits, low, high⟩, rest⟩
    exact ⟨List.forall_mem_cons.mpr ⟨fits, rest.fits⟩, List.forall_mem_cons.mpr ⟨low, rest.low⟩,
      List.forall_mem_cons.mpr ⟨high, rest.high⟩⟩

theorem inRange_append {low high : Nat} {xs ys : List Entry} :
    InRange low high (xs ++ ys) ↔ InRange low high xs ∧ InRange low high ys := by
  induction xs with
  | nil => exact ⟨fun h => ⟨⟨by simp, by simp, by simp⟩, h⟩, fun h => h.2⟩
  | cons e rest ih => rw [List.cons_append, inRange_cons, inRange_cons, ih, ← and_assoc]

/-- The state of a record loop after it has read `entries`. -/
def BlockScan.through (scan : BlockScan) (entries : List Entry) : BlockScan :=
  ⟨lastPosition scan.previous entries, scan.firstKey.or (entries.head?.map Prod.fst),
    scan.blockEntries + entries.length, (entries.getLast?.map Prod.fst).or scan.blockLast⟩

theorem BlockScan.through_cons (scan : BlockScan) (entry : Entry) (rest : List Entry) :
    scan.through (entry :: rest) =
      BlockScan.through ⟨some entry.position, scan.firstKey.or (some entry.1),
        scan.blockEntries + 1, some entry.1⟩ rest := by
  simp only [BlockScan.through, lastPosition, List.getLast?_cons, List.head?_cons, Option.map_some,
    List.length_cons, BlockScan.mk.injEq]
  refine ⟨?_, ?_, by omega, ?_⟩
  · cases rest.getLast? <;> rfl
  · cases scan.firstKey <;> rfl
  · cases rest.getLast? <;> rfl

section Scan

variable {low high fuel : Nat} {records before : Bytes} {scan : BlockScan}

/-- The record loop accepts canonical entries. -/
theorem scanBlock_recordsOf {entries : List Entry} (content : records = before ++ recordsOf entries)
    (range : InRange low high entries) (order : Continues scan.previous entries)
    (enough : entries.length ≤ fuel) :
    scanBlock records low high fuel before.length scan = .ok (scan.through entries) := by
  induction entries generalizing fuel before scan with
  | nil =>
    have whole : scan.through [] = scan := by
      simp [BlockScan.through, lastPosition]
    rw [whole]
    cases fuel with
    | zero => rfl
    | succ fuel =>
      rw [scanBlock, if_neg (by rw [content]; simp)]
      rfl
  | cons entry rest ih =>
    obtain ⟨⟨fits, low', high'⟩, range⟩ := inRange_cons.mp range
    obtain ⟨first, order⟩ := continues_cons.mp order
    obtain ⟨fuel, rfl⟩ : ∃ n, fuel = n + 1 := ⟨fuel - 1, by rw [List.length_cons] at enough; omega⟩
    have positive := entry.length_bytes_pos
    rw [scanBlock, if_pos (by rw [content, recordsOf_cons]; simp only [List.length_append]; omega)]
    have cut : records = before ++ (entry.bytes ++ recordsOf rest) := by
      rw [content, recordsOf_cons]
    rw [parseRecord_bytes cut fits low' high']
    rw [except_ok_bind, validateOrder_ok.mpr ⟨rfl, first⟩, except_ok_bind, BlockScan.through_cons]
    have left : records = (before ++ entry.bytes) ++ recordsOf rest := by
      rw [cut, List.append_assoc]
    let next : BlockScan := ⟨some entry.position, scan.firstKey.or (some entry.1),
      scan.blockEntries + 1, some entry.1⟩
    have tail : scanBlock records low high fuel (before ++ entry.bytes).length next =
        .ok (next.through rest) :=
      ih left range order (by rw [List.length_cons] at enough; omega)
    rw [List.length_append] at tail
    rw [Option.orElse_eq_orElse, Option.orElse_eq_or]
    exact tail

/-- The record loop accepts nothing else. -/
theorem scanBlock_ok {cursor : Nat} {result : BlockScan} (inside : cursor ≤ records.length)
    (enough : records.length - cursor ≤ fuel)
    (h : scanBlock records low high fuel cursor scan = .ok result) :
    ∃ entries, records.drop cursor = recordsOf entries ∧ InRange low high entries ∧
      Continues scan.previous entries ∧ result = scan.through entries := by
  induction fuel generalizing cursor scan with
  | zero =>
    rw [scanBlock, except_pure, Except.ok.injEq] at h
    refine ⟨[], ?_, ⟨by simp, by simp, by simp⟩, ⟨List.Pairwise.nil, by simp⟩, ?_⟩
    · rw [recordsOf_nil]
      exact List.drop_eq_nil_of_le (by omega)
    · rw [← h]
      simp [BlockScan.through, lastPosition]
  | succ fuel ih =>
    rw [scanBlock] at h
    split at h
    · simp only [except_bind_ok] at h
      obtain ⟨record, parsed, previous, ordered, h⟩ := h
      obtain ⟨entry, rest, content, -, fits, low', high', rfl⟩ := parseRecord_ok parsed
      obtain ⟨rfl, first⟩ := validateOrder_ok.mp ordered
      have positive := entry.length_bytes_pos
      have dropped : records.drop cursor = entry.bytes ++ rest := by
        rw [content, List.drop_left' (by rw [List.length_take]; omega)]
      have lengths : records.length - cursor = entry.bytes.length + rest.length := by
        rw [← List.length_drop, dropped, List.length_append]
      obtain ⟨entries, rest', range, order, rfl⟩ :=
        ih (Nat.le_of_lt_succ (by omega) : cursor + entry.bytes.length ≤ records.length) (by omega) h
      refine ⟨entry :: entries, ?_, inRange_cons.mpr ⟨⟨fits, low', high'⟩, range⟩,
        continues_cons.mpr ⟨first, order⟩, ?_⟩
      · rw [recordsOf_cons, dropped, ← rest', ← List.drop_drop, dropped, List.drop_left]
      · rw [BlockScan.through_cons, Option.orElse_eq_orElse, Option.orElse_eq_or]
    · rw [except_pure, Except.ok.injEq] at h
      refine ⟨[], ?_, ⟨by simp, by simp, by simp⟩, ⟨List.Pairwise.nil, by simp⟩, ?_⟩
      · rw [recordsOf_nil]
        exact List.drop_eq_nil_of_le (by omega)
      · rw [← h]
        simp [BlockScan.through, lastPosition]

end Scan

variable [Platform]

/-- A block whose decompressed content is the records of `entries`. -/
structure BlockHolds (source : Bytes) (block : BlockDescriptor) (entries : List Entry) : Prop where
  decodes : ∃ compressed,
    slice? source block.offset (block.offset + block.physicalBytes) = some compressed ∧
      decodeCompressedBlock compressed block = .ok (recordsOf entries)
  lastKey : entries.getLast?.map Prod.fst = some block.lastKey
  count : entries.length = block.entries

/-- The state of the block loop after it has read `entries`. -/
def BlocksScan.through (scan : BlocksScan) (entries : List Entry) : BlocksScan :=
  ⟨lastPosition scan.previous entries, scan.firstKey.or (entries.head?.map Prod.fst),
    (entries.getLast?.map Prod.fst).or scan.lastKey, scan.entries + entries.length,
    scan.bytes + (recordsOf entries).length⟩

omit [Platform] in
theorem BlocksScan.through_append (scan : BlocksScan) (xs ys : List Entry) :
    scan.through (xs ++ ys) = (scan.through xs).through ys := by
  simp only [BlocksScan.through, lastPosition_append, List.getLast?_append, List.head?_append,
    Option.map_or, Option.or_assoc, List.length_append, recordsOf_append, Nat.add_assoc]

section Blocks

variable {source : Bytes} {low high : Nat} {blocks : List BlockDescriptor} {scan : BlocksScan}

/-- The block loop accepts blocks that hold canonical entries. -/
theorem scanBlocks_holds (scan : BlocksScan) {groups : List (List Entry)}
    (holds : List.Forall₂ (BlockHolds source) blocks groups)
    (range : InRange low high groups.flatten) (order : Continues scan.previous groups.flatten)
    (fewEntries : scan.entries + groups.flatten.length ≤ u64Max)
    (fewBytes : scan.bytes + (recordsOf groups.flatten).length ≤ u64Max) :
    scanBlocks source low high blocks scan = .ok (scan.through groups.flatten) := by
  induction holds generalizing scan with
  | nil =>
    simp [scanBlocks, BlocksScan.through, lastPosition]
  | @cons block entries blocks groups block_holds _ ih =>
    obtain ⟨compressed, found, decoded⟩ := block_holds.decodes
    rw [List.flatten_cons] at range order fewEntries fewBytes ⊢
    obtain ⟨range, range'⟩ := inRange_append.mp range
    obtain ⟨order, order'⟩ := continues_append.mp order
    rw [List.length_append] at fewEntries
    rw [recordsOf_append, List.length_append] at fewBytes
    let start : BlockScan := ⟨scan.previous, scan.firstKey, 0, none⟩
    have whole : recordsOf entries = [] ++ recordsOf entries := rfl
    have inner : scanBlock (recordsOf entries) low high (recordsOf entries).length 0 start =
        .ok (start.through entries) :=
      scanBlock_recordsOf whole range order (length_le_recordsOf entries)
    have agrees : ¬ ((BlockScan.through ⟨scan.previous, scan.firstKey, 0, none⟩ entries).blockEntries ≠
        block.entries ∨ (BlockScan.through ⟨scan.previous, scan.firstKey, 0, none⟩ entries).blockLast ≠
        some block.lastKey) := by
      simp [BlockScan.through, block_holds.count, block_holds.lastKey]
    have addEntries : ∀ e, checkedAdd scan.entries
        (BlockScan.through ⟨scan.previous, scan.firstKey, 0, none⟩ entries).blockEntries e =
          .ok (scan.entries + entries.length) := by
      intro e
      refine checkedAdd_ok.mpr ⟨?_, ?_⟩ <;> simp only [BlockScan.through] <;> omega
    have addBytes : ∀ e, checkedAdd scan.bytes (recordsOf entries).length e =
        .ok (scan.bytes + (recordsOf entries).length) :=
      fun e => checkedAdd_ok.mpr ⟨by omega, rfl⟩
    rw [scanBlocks, found, okOr_some, except_ok_bind, decoded, except_ok_bind, inner,
      except_ok_bind, rejectIf_of_not agrees, except_ok_bind, addEntries, except_ok_bind,
      addBytes, except_ok_bind, BlocksScan.through_append]
    have next : (⟨(BlockScan.through ⟨scan.previous, scan.firstKey, 0, none⟩ entries).previous,
        (BlockScan.through ⟨scan.previous, scan.firstKey, 0, none⟩ entries).firstKey,
        (BlockScan.through ⟨scan.previous, scan.firstKey, 0, none⟩ entries).blockLast <|>
          scan.lastKey,
        scan.entries + entries.length, scan.bytes + (recordsOf entries).length⟩ : BlocksScan) =
          scan.through entries := by
      simp [BlockScan.through, BlocksScan.through]
    rw [next]
    apply ih _ range' order'
    · simp only [BlocksScan.through]
      omega
    · simp only [BlocksScan.through]
      omega

/-- The block loop accepts nothing else. -/
theorem scanBlocks_ok {result : BlocksScan}
    (h : scanBlocks source low high blocks scan = .ok result) :
    ∃ groups, List.Forall₂ (BlockHolds source) blocks groups ∧ InRange low high groups.flatten ∧
      Continues scan.previous groups.flatten ∧ result = scan.through groups.flatten := by
  induction blocks generalizing scan with
  | nil =>
    rw [scanBlocks, except_pure, Except.ok.injEq] at h
    refine ⟨[], .nil, ⟨by simp, by simp, by simp⟩, ⟨List.Pairwise.nil, by simp⟩, ?_⟩
    rw [← h]
    simp [BlocksScan.through, lastPosition]
  | cons block blocks ih =>
    simp only [scanBlocks, except_bind_ok, okOr_ok, rejectIf_ok, checkedAdd_ok] at h
    obtain ⟨compressed, found, records, decoded, inner, scanned, _, agrees, entries, ⟨_, rfl⟩,
      bytes, ⟨_, rfl⟩, h⟩ := h
    obtain ⟨es, content, range, order, rfl⟩ := scanBlock_ok (Nat.zero_le _) (by omega) scanned
    rw [List.drop_zero] at content
    subst content
    obtain ⟨groups, holds, range', order', rfl⟩ := ih h
    rw [not_or, not_not, not_not] at agrees
    have lastKey : es.getLast?.map Prod.fst = some block.lastKey := by
      have := agrees.2
      simpa [BlockScan.through] using this
    have count : es.length = block.entries := by
      have := agrees.1
      simpa [BlockScan.through] using this
    refine ⟨es :: groups, .cons ⟨⟨compressed, found, decoded⟩, lastKey, count⟩ holds, ?_, ?_, ?_⟩
    · rw [List.flatten_cons]
      exact inRange_append.mpr ⟨range, range'⟩
    · rw [List.flatten_cons]
      exact continues_append.mpr ⟨order, order'⟩
    · rw [List.flatten_cons, BlocksScan.through_append]
      simp [BlockScan.through, BlocksScan.through]

end Blocks

/-! ## Sparse indexes -/

/-- Where a sparse entry points: at the first record of its key. -/
def SparseAt (entries : List Entry) (sparse : SparseEntry) : Prop :=
  ∃ pre entry post, entries = pre ++ entry :: post ∧ sparse.offset = (recordsOf pre).length ∧
    sparse.key = entry.1 ∧ ∀ e ∈ pre, e.1 < entry.1

omit [Platform] in
theorem SparseAt.append {entries : List Entry} {sparse : SparseEntry}
    (h : SparseAt entries sparse) (more : List Entry) : SparseAt (entries ++ more) sparse := by
  obtain ⟨pre, entry, post, rfl, offset, key, before⟩ := h
  exact ⟨pre, entry, post ++ more, by simp, offset, key, before⟩

/-- The sparse index of a legacy segment. -/
structure SparseIndex (entries : List Entry) (sparse : List SparseEntry) : Prop where
  at_ : ∀ s ∈ sparse, SparseAt entries s
  first : ∀ entry ∈ entries.head?, sparse.head? = some ⟨0, entry.1⟩

/-- What the record loop of a legacy segment has established after reading `entries`. -/
structure LegacyInv (records : Bytes) (low high : Nat) (entries : List Entry) (scan : LegacyScan) :
    Prop where
  prefix_ : records.take scan.cursor = recordsOf entries
  cursor : scan.cursor = (recordsOf entries).length
  inside : scan.cursor ≤ records.length
  range : InRange low high entries
  sorted : entries.Pairwise Entry.Before
  previous : scan.previous = lastPosition none entries
  sparse : SparseIndex entries scan.sparseIndex
  start : entries = [] → scan.keysSinceIndex = sparseIndexStride ∧ scan.sparseIndex = []
  firstKey : scan.firstKey = entries.head?.map Prod.fst
  lastKey : scan.lastKey = entries.getLast?.map Prod.fst

omit [Platform] in
theorem lastPosition_of_getLast {entries : List Entry} (entry : Entry)
    (last : entries.getLast? = some entry) : lastPosition none entries = some entry.position := by
  simp [lastPosition, last]

omit [Platform] in
/-- A key different from that of the last entry is a new one, beyond all earlier keys. -/
theorem lt_of_new_key {entries : List Entry} {entry : Entry}
    (order : Continues none (entries ++ [entry]))
    (new : ∀ p ∈ lastPosition none entries, p.1 ≠ entry.1) : ∀ e ∈ entries, e.1 < entry.1 := by
  obtain ⟨_, order'⟩ := continues_append.mp order
  intro e member
  obtain ⟨last, lastIs⟩ : ∃ last, entries.getLast? = some last := by
    cases h : entries.getLast? with
    | none => rw [List.getLast?_eq_none_iff.mp h] at member; cases member
    | some last => exact ⟨last, rfl⟩
  have position := lastPosition_of_getLast _ lastIs
  have before : PositionBefore last.position entry :=
    order'.after _ (by rw [position]; rfl) entry (by simp)
  have lastLess : last.1 < entry.1 := by
    rcases before with less | ⟨same, -⟩
    · exact less
    · exact absurd same (new _ (by rw [position]; rfl))
  have eLe : e.1 ≤ last.1 := by
    obtain ⟨front, rfl⟩ := List.getLast?_eq_some_iff.mp lastIs
    rcases List.mem_append.mp member with inFront | isLast
    · have sorted := (continues_append.mp order).1.sorted
      exact ((List.pairwise_append.mp sorted).2.2 e inFront last (by simp)).key_le
    · rw [List.mem_singleton] at isLast
      rw [isLast]
  exact lt_of_le_of_lt eLe lastLess

omit [Platform] in
theorem head?_append_singleton (entries : List Entry) (entry : Entry) :
    (entries ++ [entry]).head? = entries.head?.or (some entry) := by
  cases entries <;> rfl

omit [Platform] in
/-- One record of a legacy segment. -/
theorem LegacyInv.step {records : Bytes} {low high : Nat} {entries : List Entry}
    {scan : LegacyScan} (inv : LegacyInv records low high entries scan) {record : Record}
    {previous : Option (Bytes × Nat)}
    (parsed : parseRecord records scan.cursor low high = .ok record)
    (ordered : validateOrder scan.previous record = .ok previous) :
    let newKey : Bool := scan.previous.all fun p => p.1 != record.key
    let indexed : Bool := newKey && decide (scan.keysSinceIndex ≥ sparseIndexStride)
    ∃ entry : Entry, LegacyInv records low high (entries ++ [entry])
      { cursor := record.next
        previous
        sparseIndex :=
          if indexed then scan.sparseIndex ++ [⟨scan.cursor, record.key⟩] else scan.sparseIndex
        keysSinceIndex :=
          if newKey then (if indexed then 0 else scan.keysSinceIndex) + 1
          else scan.keysSinceIndex
        firstKey := if newKey then scan.firstKey <|> some record.key else scan.firstKey
        lastKey := if newKey then some record.key else scan.lastKey } := by
  intro newKey indexed
  obtain ⟨entry, rest, content, inside, fits, low', high', rfl⟩ := parseRecord_ok parsed
  obtain ⟨rfl, before⟩ := validateOrder_ok.mp ordered
  have cursorIs : (records.take scan.cursor).length = scan.cursor := by
    rw [List.length_take]
    omega
  have total : scan.cursor + entry.bytes.length ≤ records.length := by
    have := congrArg List.length content
    rw [List.length_append, List.length_append, cursorIs] at this
    omega
  have order : Continues none (entries ++ [entry]) := by
    refine continues_append.mpr ⟨⟨inv.sorted, by simp⟩, continues_cons.mpr ⟨?_, ?_⟩⟩
    · rw [← inv.previous]
      exact before
    · exact ⟨List.Pairwise.nil, by simp⟩
  have newKeyIff : newKey = true ↔ ∀ p ∈ lastPosition none entries, p.1 ≠ entry.1 := by
    simp only [newKey, inv.previous]
    cases lastPosition none entries <;> simp
  -- at the first record every key is new and the index is due
  have atStart : entries = [] → newKey = true ∧ indexed = true := by
    intro empty
    have isNew : newKey = true := newKeyIff.mpr (by simp [empty, lastPosition])
    refine ⟨isNew, ?_⟩
    simp [indexed, isNew, (inv.start empty).1]
  refine ⟨entry,
    { prefix_ := ?_
      cursor := ?_
      inside := total
      range := inRange_append.mpr ⟨inv.range, inRange_cons.mpr ⟨⟨fits, low', high'⟩,
        ⟨by simp, by simp, by simp⟩⟩⟩
      sorted := order.sorted
      previous := by rw [lastPosition_of_getLast entry (by simp)]
      sparse := ?_
      start := by simp
      firstKey := ?_
      lastKey := ?_ }⟩
  · dsimp only
    rw [List.take_add, inv.prefix_, recordsOf_append, recordsOf_cons, recordsOf_nil,
      List.append_nil]
    congr 1
    have dropped : records.drop scan.cursor = entry.bytes ++ rest := by
      rw [content, List.drop_left' cursorIs]
    rw [dropped, List.take_left]
  · dsimp only
    rw [recordsOf_append, List.length_append, inv.cursor]
    simp
  · refine ⟨?_, ?_⟩
    · intro s member
      have old : ∀ s ∈ scan.sparseIndex, SparseAt (entries ++ [entry]) s :=
        fun s h => (inv.sparse.at_ s h).append _
      dsimp only at member
      split at member
      · rename_i isIndexed
        have isNew : newKey = true := (Bool.and_eq_true_iff.mp isIndexed).1
        rcases List.mem_append.mp member with h | h
        · exact old s h
        · rw [List.mem_singleton] at h
          exact ⟨entries, entry, [], rfl, by rw [h]; exact inv.cursor, by rw [h],
            lt_of_new_key order (newKeyIff.mp isNew)⟩
      · exact old s member
    · intro first member
      rw [head?_append_singleton] at member
      cases h : entries.head? with
      | some e =>
        rw [h] at member
        cases member
        have oldHead := inv.sparse.first first (by rw [h]; rfl)
        dsimp only
        split
        · rw [List.head?_append, oldHead]
          rfl
        · exact oldHead
      | none =>
        have empty : entries = [] := List.head?_eq_none_iff.mp h
        rw [h] at member
        cases member
        dsimp only
        rw [if_pos (atStart empty).2, (inv.start empty).2, inv.cursor, empty]
        rfl
  · dsimp only
    rw [head?_append_singleton]
    cases h : entries.head? with
    | some e =>
      have : scan.firstKey = some e.1 := by rw [inv.firstKey, h]; rfl
      rw [this]
      split <;> rfl
    | none =>
      have empty : entries = [] := List.head?_eq_none_iff.mp h
      have : scan.firstKey = none := by rw [inv.firstKey, h]; rfl
      rw [if_pos (atStart empty).1, this]
      rfl
  · dsimp only
    rw [List.getLast?_append_of_ne_nil _ (by simp)]
    split
    · rfl
    · rename_i notNew
      have old : ¬ ∀ p ∈ lastPosition none entries, p.1 ≠ entry.1 :=
        fun h => notNew (newKeyIff.mpr h)
      rw [inv.lastKey]
      cases h : entries.getLast? with
      | none => exact absurd (by simp [lastPosition, h]) old
      | some last =>
        rw [lastPosition_of_getLast _ h] at old
        have same : last.1 = entry.1 := by
          by_contra different
          exact old (by intro p hp; cases hp; exact different)
        simp [same]

omit [Platform] in
/-- The record loop of a legacy segment. -/
theorem scanLegacy_inv {records : Bytes} {low high count : Nat} {entries : List Entry}
    {scan result : LegacyScan} (inv : LegacyInv records low high entries scan)
    (h : scanLegacy records low high count scan = .ok result) :
    ∃ all, LegacyInv records low high all result ∧ all.length = entries.length + count := by
  induction count generalizing entries scan with
  | zero =>
    rw [scanLegacy, except_pure, Except.ok.injEq] at h
    exact ⟨entries, h ▸ inv, rfl⟩
  | succ count ih =>
    simp only [scanLegacy, except_bind_ok] at h
    obtain ⟨record, parsed, previous, ordered, h⟩ := h
    obtain ⟨entry, inv'⟩ := inv.step parsed ordered
    obtain ⟨all, inv, length⟩ := ih inv' h
    refine ⟨all, inv, ?_⟩
    rw [length, List.length_append, List.length_singleton]
    omega

/-! ## Segments -/

/-- The storage of a segment is an encoding of `entries`. -/
def SegmentStorage.Holds (entries : List Entry) : SegmentStorage → Prop
  | .legacy records sparse => records = recordsOf entries ∧ SparseIndex entries sparse
  | .blocked source blocks => ∃ groups, entries = groups.flatten ∧
    List.Forall₂ (BlockHolds source) blocks groups

/-- The segment is a faithful encoding of `entries`. -/
structure Segment.Holds (segment : Segment) (entries : List Entry) : Prop where
  storage : segment.storage.Holds entries
  range : InRange segment.descriptor.minimumSequence segment.descriptor.maximumSequence entries
  sorted : entries.Pairwise Entry.Before
  positive : 1 ≤ segment.descriptor.minimumSequence
  firstKey : entries.head?.map Prod.fst = some segment.descriptor.firstKey
  lastKey : entries.getLast?.map Prod.fst = some segment.descriptor.lastKey
  count : entries.length = segment.descriptor.entries

theorem Segment.Holds.setLevel {segment : Segment} {entries : List Entry}
    (h : segment.Holds entries) (level : Nat) : (segment.setLevel level).Holds entries :=
  ⟨h.storage, h.range, h.sorted, h.positive, h.firstKey, h.lastKey, h.count⟩

omit [Platform] in
/-- The ends of a list of entries that is not empty. -/
theorem ends_of_ne_nil {entries : List Entry} (nonempty : entries ≠ []) :
    (∃ first, entries.head?.map Prod.fst = some first) ∧
      ∃ last, entries.getLast?.map Prod.fst = some last := by
  cases entries with
  | nil => exact absurd rfl nonempty
  | cons e rest => exact ⟨⟨e.1, rfl⟩, by simp [List.getLast?_cons]⟩

theorem validateV3Blocks_holds {source : Bytes} {descriptor : SegmentDescriptor}
    {blocks : List BlockDescriptor} {declared : Nat}
    {result : SegmentDescriptor × List BlockDescriptor} (positive : 1 ≤ descriptor.minimumSequence)
    (nonempty : descriptor.entries ≠ 0)
    (h : validateV3Blocks source descriptor blocks declared = .ok result) :
    ∃ entries, Segment.Holds ⟨result.1, .blocked source result.2⟩ entries := by
  simp only [validateV3Blocks, except_bind_ok, rejectIf_ok, except_pure, Except.ok.injEq] at h
  obtain ⟨scan, scanned, _, counts, rfl⟩ := h
  obtain ⟨groups, holds, range, order, rfl⟩ := scanBlocks_ok scanned
  simp only [BlocksScan.through, Option.none_or, Option.or_none, Nat.zero_add, not_or,
    not_not] at counts ⊢
  have notNil : groups.flatten ≠ [] := by
    intro empty
    rw [empty] at counts
    exact nonempty counts.1.symm
  obtain ⟨⟨first, firstIs⟩, ⟨last, lastIs⟩⟩ := ends_of_ne_nil notNil
  refine ⟨groups.flatten, ⟨groups, rfl, holds⟩, range, order.sorted, positive, ?_, ?_, counts.1⟩
  · simp [firstIs]
  · simp [lastIs]

theorem decodeV3File_holds {bytes : Bytes} {segment : Segment}
    (h : decodeV3File bytes = .ok segment) : ∃ entries, segment.Holds entries := by
  simp only [decodeV3File, except_bind_ok, except_pure, Except.ok.injEq] at h
  obtain ⟨actual, -, ⟨descriptor, blocks⟩, metadata, rfl⟩ := h
  simp only [readV3Metadata, except_bind_ok, okOr_ok, rejectIf_ok] at metadata
  obtain ⟨header, -, _, -, _, -, _, contract, _, -, _, -, index, -, _, -, table, -, _, -, valid⟩ :=
    metadata
  simp only [not_or] at contract
  exact validateV3Blocks_holds (by dsimp only; omega) (by dsimp only; omega) valid

theorem decodeLegacy_holds {bytes : Bytes} {segment : Segment}
    (h : decodeLegacy bytes = .ok segment) : ∃ entries, segment.Holds entries := by
  simp only [decodeLegacy, except_bind_ok, rejectIf_ok, except_pure, Except.ok.injEq] at h
  obtain ⟨_, -, ⟨headerBytes, compressed⟩, -, _, contract, actual, -, records, -,
    ⟨firstKey, lastKey, sparse⟩, validated, rfl⟩ := h
  simp only [validateLegacyRecords, except_bind_ok, rejectIf_ok, except_pure, Except.ok.injEq,
    Prod.mk.injEq] at validated
  obtain ⟨scan, scanned, _, covered, rfl, rfl, rfl⟩ := validated
  rw [not_not] at covered
  have start : LegacyInv records (ofBE (slice bytes 24 32)) (ofBE (slice bytes 32 40)) []
      ⟨0, none, [], sparseIndexStride, none, none⟩ :=
    { prefix_ := rfl
      cursor := rfl
      inside := Nat.zero_le _
      range := ⟨by simp, by simp, by simp⟩
      sorted := List.Pairwise.nil
      previous := rfl
      sparse := ⟨by simp, by simp⟩
      start := fun _ => ⟨rfl, rfl⟩
      firstKey := rfl
      lastKey := rfl }
  obtain ⟨entries, inv, length⟩ := scanLegacy_inv start scanned
  rw [List.length_nil, Nat.zero_add] at length
  have notNil : entries ≠ [] := by
    intro empty
    rw [empty] at length
    exact contract (.inl length.symm)
  obtain ⟨⟨first, firstIs⟩, ⟨last, lastIs⟩⟩ := ends_of_ne_nil notNil
  have content : records = recordsOf entries := by
    rw [← inv.prefix_, covered, List.take_length]
  refine ⟨entries, ⟨content, inv.sparse⟩, inv.range, inv.sorted, ?_, ?_, ?_, length⟩
  · dsimp only
    omega
  · simp [inv.firstKey, firstIs]
  · simp [inv.lastKey, lastIs]

/-- Every segment that opens is a faithful encoding of some entries. -/
theorem Segment.openBytes_holds {bytes : Bytes} {segment : Segment}
    (h : Segment.openBytes bytes = .ok segment) : ∃ entries, segment.Holds entries := by
  simp only [Segment.openBytes, except_bind_ok, rejectIf_ok] at h
  obtain ⟨_, -, _, -, h⟩ := h
  split at h
  · exact decodeV3File_holds h
  · exact decodeLegacy_holds h

theorem Segment.validateSnapshotBytes_holds {expected : SegmentDescriptor} {bytes : Bytes}
    {segment : Segment} (h : Segment.validateSnapshotBytes expected bytes = .ok segment) :
    segment.descriptor = expected ∧ ∃ entries, segment.Holds entries := by
  have finish : ∀ {decoded : Segment}, (∃ entries, decoded.Holds entries) →
      (do
        let segment := decoded.setLevel expected.level
        rejectIf (segment.descriptor ≠ expected) (.invalidSegment
          s!"snapshot segment {text expected.id} differs from its descriptor")
        return segment) = Except.ok segment →
      segment.descriptor = expected ∧ ∃ entries, segment.Holds entries := by
    rintro decoded ⟨entries, holds⟩ checked
    simp only [except_bind_ok, rejectIf_ok, except_pure, Except.ok.injEq, not_not] at checked
    obtain ⟨_, same, rfl⟩ := checked
    exact ⟨same, entries, holds.setLevel _⟩
  simp only [Segment.validateSnapshotBytes, except_bind_ok] at h
  obtain ⟨_, -, h⟩ := h
  split at h
  · obtain ⟨decoded, opened, h⟩ := except_bind_ok.mp h
    simp only [decodeV3Bytes, except_bind_ok] at opened
    obtain ⟨_, -, opened⟩ := opened
    exact finish (decodeV3File_holds opened) h
  · obtain ⟨decoded, opened, h⟩ := except_bind_ok.mp h
    exact finish (decodeLegacy_holds opened) h

end Vyrm.Kv
