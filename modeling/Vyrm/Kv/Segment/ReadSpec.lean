import Vyrm.Kv.Segment.Spec

/-!
# What the segment readers return

Point reads, batched point reads, range reads and the full traversal of a
segment, each in terms of the entries the segment holds. The binary searches,
the block selection, the reuse of a loaded block and the early exits of the
loops only ever skip entries that cannot contribute.
-/

namespace Vyrm.Kv
open Lib Mvcc

/-! ## Reads of sorted entries -/

@[simp] theorem sequence_eq (version : VersionedValue) :
    Sequenced.sequence version = version.sequence := rfl

@[simp] theorem newest_nil (key : Bytes) (s : Nat) : newest ([] : List Entry) key s = none := rfl

theorem newest_cons (entry : Entry) (rest : List Entry) (key : Bytes) (s : Nat) :
    newest (entry :: rest) key s =
      if entry.1 = key then
        keep (if entry.2.sequence ≤ s then some entry.2 else none) (newest rest key s)
      else newest rest key s := by
  unfold newest versionsOf
  by_cases same : entry.1 = key
  · simp [same, select]
  · simp [same]

theorem newest_eq_none_of_ne (entries : List Entry) {key : Bytes} {s : Nat}
    (other : ∀ e ∈ entries, e.1 ≠ key) : newest entries key s = none := by
  induction entries with
  | nil => rfl
  | cons e rest ih =>
    rw [newest_cons, if_neg (other e List.mem_cons_self)]
    exact ih fun e h => other e (List.mem_cons_of_mem _ h)

theorem newest_eq_none_of_newer {entries : List Entry} {key : Bytes} {s : Nat}
    (newer : ∀ e ∈ entries, s < e.2.sequence) : newest entries key s = none := by
  apply select_eq_none_iff.mpr
  intro v member
  exact not_le.mpr (newer _ (mem_versionsOf.mp member))

/-- In canonical order later entries of a key are newer. -/
theorem newest_cons_of_sorted {entry : Entry} {rest : List Entry} {s : Nat}
    (sorted : (entry :: rest).Pairwise Entry.Before) (visible : entry.2.sequence ≤ s) :
    newest (entry :: rest) entry.1 s = (newest rest entry.1 s).or (some entry.2) := by
  rw [newest_cons, if_pos rfl, if_pos visible]
  cases h : newest rest entry.1 s with
  | none => rfl
  | some v =>
    have member := mem_versionsOf.mp (select_isNewest h).mem
    have newer : entry.2.sequence < v.sequence := by
      rcases (List.pairwise_cons.mp sorted).1 _ member with less | ⟨-, less⟩
      · exact absurd less (lt_irrefl _)
      · exact less
    simp [keep, newer]

theorem keepNewer_eq_keep (selected version : Option SegmentVersion) :
    keepNewer selected version = keep selected version := by
  cases version with
  | none => cases selected <;> rfl
  | some v =>
    cases selected with
    | none => rfl
    | some prior => simp [keepNewer, keep]

theorem key_le_of_sorted {xs ys : List Entry} (sorted : (xs ++ ys).Pairwise Entry.Before)
    {x y : Entry} (hx : x ∈ xs) (hy : y ∈ ys) : x.1 ≤ y.1 :=
  ((List.pairwise_append.mp sorted).2.2 x hx y hy).key_le

/-! ## Decoded blocks -/

/-- The positions of consecutive records, the first at `offset`. -/
def offsetsFrom : Nat → List Entry → List Nat
  | _, [] => []
  | offset, entry :: rest => offset :: offsetsFrom (offset + entry.bytes.length) rest

/-- The decoded block that holds `entries`. -/
def decodedOf (entries : List Entry) : DecodedBlock := ⟨recordsOf entries, offsetsFrom 0 entries⟩

theorem drop_offsetsFrom (n offset : Nat) (entries : List Entry) :
    (offsetsFrom offset entries).drop n =
      offsetsFrom (offset + (recordsOf (entries.take n)).length) (entries.drop n) := by
  induction entries generalizing n offset with
  | nil => simp [offsetsFrom]
  | cons e rest ih =>
    cases n with
    | zero => simp
    | succ n =>
      rw [offsetsFrom, List.drop_succ_cons, ih, List.take_succ_cons, List.drop_succ_cons,
        recordsOf_cons, List.length_append, Nat.add_assoc]

@[simp] theorem length_offsetsFrom (offset : Nat) (entries : List Entry) :
    (offsetsFrom offset entries).length = entries.length := by
  induction entries generalizing offset with
  | nil => rfl
  | cons e rest ih => simp [offsetsFrom, ih]

/-- Entries that a reader accepts whatever the descriptor says. -/
abbrev Readable (entries : List Entry) : Prop := InRange 1 u64Max entries

theorem InRange.readable {low high : Nat} {entries : List Entry} (range : InRange low high entries)
    (positive : 1 ≤ low) : Readable entries :=
  ⟨range.fits, fun e h => positive.trans (range.low e h), fun e h => (range.fits e h).sequenceU64⟩

theorem Readable.append {xs ys : List Entry} (h : Readable (xs ++ ys)) :
    Readable xs ∧ Readable ys := inRange_append.mp h

namespace DecodedBlock

variable {entries : List Entry} {before bytes : Bytes} {fuel : Nat}

theorem parseRecord_head {entry : Entry} {rest : List Entry}
    (content : bytes = before ++ recordsOf (entry :: rest)) (readable : Readable (entry :: rest)) :
    parseRecord bytes before.length 1 u64Max =
      .ok (entry.record (before ++ entry.bytes).length) := by
  obtain ⟨⟨fits, low, high⟩, -⟩ := inRange_cons.mp readable
  rw [parseRecord_bytes (by rw [content, recordsOf_cons]) fits low high, List.length_append]

theorem parseOffsets_recordsOf (content : bytes = before ++ recordsOf entries)
    (readable : Readable entries) (small : bytes.length < 2 ^ 32) (enough : entries.length ≤ fuel) :
    parseOffsets bytes fuel before.length = .ok (offsetsFrom before.length entries) := by
  induction entries generalizing before fuel with
  | nil =>
    cases fuel with
    | zero => rfl
    | succ fuel =>
      rw [parseOffsets, if_neg (by rw [content]; simp)]
      rfl
  | cons entry rest ih =>
    obtain ⟨fuel, rfl⟩ : ∃ n, fuel = n + 1 := ⟨fuel - 1, by rw [List.length_cons] at enough; omega⟩
    have positive := entry.length_bytes_pos
    have inside : before.length < bytes.length := by
      rw [content, recordsOf_cons]
      simp only [List.length_append]
      omega
    have left : bytes = (before ++ entry.bytes) ++ recordsOf rest := by
      rw [content, recordsOf_cons, List.append_assoc]
    have fewer : rest.length ≤ fuel := by
      rw [List.length_cons] at enough
      omega
    have tail := ih left (inRange_cons.mp readable).2 fewer
    rw [parseOffsets, if_pos inside, u32TryFrom_ok.mpr ⟨by omega, rfl⟩, except_ok_bind,
      parseRecord_head content readable, except_ok_bind]
    rw [tail, except_ok_bind, offsetsFrom, List.length_append]
    rfl

theorem parse_recordsOf (readable : Readable entries) (small : (recordsOf entries).length < 2 ^ 32) :
    parse (recordsOf entries) = .ok (decodedOf entries) := by
  have whole : recordsOf entries = [] ++ recordsOf entries := rfl
  have offsets := parseOffsets_recordsOf whole readable small (length_le_recordsOf entries)
  rw [List.length_nil] at offsets
  rw [parse, offsets]
  rfl

/-- The record at the `i`-th offset of a block is its `i`-th entry. -/
theorem parseRecord_offset (readable : Readable entries) {i : Nat} (inside : i < entries.length) :
    ∃ next, parseRecord (decodedOf entries).bytes ((decodedOf entries).recordOffsets.getD i 0) 1
      u64Max = .ok ((entries.get ⟨i, inside⟩).record next) := by
  have split : entries = entries.take i ++ entries.get ⟨i, inside⟩ :: entries.drop (i + 1) := by
    rw [List.get_eq_getElem, List.getElem_cons_drop, List.take_append_drop]
  have offset : (offsetsFrom 0 entries).getD i 0 = (recordsOf (entries.take i)).length := by
    have dropped := drop_offsetsFrom i 0 entries
    rw [← List.getElem_cons_drop (h := inside), offsetsFrom, Nat.zero_add] at dropped
    rw [List.getD_eq_getElem?_getD, ← List.head?_drop, dropped]
    rfl
  have content : recordsOf entries = recordsOf (entries.take i) ++
      recordsOf (entries.get ⟨i, inside⟩ :: entries.drop (i + 1)) := by
    rw [← recordsOf_append, ← split]
  have readable' : Readable (entries.get ⟨i, inside⟩ :: entries.drop (i + 1)) := by
    rw [split] at readable
    exact readable.append.2
  simp only [decodedOf, offset]
  exact ⟨_, parseRecord_head content readable'⟩

/-- The binary search stops where the keys reach `key`. -/
theorem lowerBoundLoop_spec (readable : Readable entries)
    (sorted : entries.Pairwise Entry.Before) {key : Bytes} {left right : Nat}
    (bounds : left ≤ right) (inside : right ≤ entries.length) (enough : right - left ≤ fuel)
    (below : ∀ e ∈ entries.take left, e.1 < key) (above : ∀ e ∈ entries.drop right, key ≤ e.1) :
    ∃ n, lowerBoundLoop (decodedOf entries) key fuel left right = .ok n ∧
      (∀ e ∈ entries.take n, e.1 < key) ∧ ∀ e ∈ entries.drop n, key ≤ e.1 := by
  induction fuel generalizing left right with
  | zero =>
    have same : left = right := by omega
    exact ⟨left, rfl, below, same ▸ above⟩
  | succ fuel ih =>
    rw [lowerBoundLoop]
    split
    · rename_i less
      generalize middleIs : left + (right - left) / 2 = middle
      have middleLow : left ≤ middle := by omega
      have middleHigh : middle < right := by omega
      have middleIn : middle < entries.length := by omega
      obtain ⟨next, parsed⟩ := parseRecord_offset readable middleIn
      have split : entries = entries.take middle ++ entries.get ⟨middle, middleIn⟩ ::
          entries.drop (middle + 1) := by
        rw [List.get_eq_getElem, List.getElem_cons_drop, List.take_append_drop]
      generalize entries.get ⟨middle, middleIn⟩ = probe at parsed split
      dsimp only
      rw [parsed, except_ok_bind]
      by_cases probeLess : probe.1 < key
      · rw [if_pos (show (probe.record next).key < key from probeLess)]
        apply ih (by omega) inside (by omega) _ above
        intro e member
        rw [List.take_succ_eq_append_getElem middleIn] at member
        rcases List.mem_append.mp member with earlier | isProbe
        · rw [split] at sorted
          exact lt_of_le_of_lt (key_le_of_sorted sorted earlier List.mem_cons_self) probeLess
        · have probeIs : probe = entries[middle] := by
            have := congrArg (·[middle]?) split
            simp only [List.getElem?_append_right (List.length_take_le _ _),
              List.length_take, Nat.min_eq_left (Nat.le_of_lt middleIn), Nat.sub_self,
              List.getElem?_cons_zero, List.getElem?_eq_getElem middleIn, Option.some.injEq] at this
            exact this.symm
          rw [List.mem_singleton] at isProbe
          rw [isProbe, ← probeIs]
          exact probeLess
      · rw [if_neg (show ¬ (probe.record next).key < key from probeLess)]
        apply ih middleLow (by omega) (by omega) below
        intro e member
        have reached := not_lt.mp probeLess
        have dropped : entries.drop middle = probe :: entries.drop (middle + 1) := by
          have := congrArg (List.drop middle) split
          rwa [List.drop_left' (by rw [List.length_take]; omega)] at this
        rw [dropped] at member
        rcases List.mem_cons.mp member with rfl | later
        · exact reached
        · rw [split] at sorted
          have ordered := (List.pairwise_append.mp sorted).2.1
          exact reached.trans ((List.pairwise_cons.mp ordered).1 e later).key_le
    · have same : left = right := by omega
      exact ⟨left, rfl, below, same ▸ above⟩

theorem lowerBound_spec (readable : Readable entries) (sorted : entries.Pairwise Entry.Before)
    (key : Bytes) :
    ∃ n, (decodedOf entries).lowerBound key = .ok n ∧
      (∀ e ∈ entries.take n, e.1 < key) ∧ ∀ e ∈ entries.drop n, key ≤ e.1 := by
  have count : (decodedOf entries).recordOffsets.length = entries.length := by
    simp [decodedOf]
  rw [lowerBound, count]
  exact lowerBoundLoop_spec readable sorted (Nat.zero_le _) le_rfl (by omega) (by simp) (by simp)

/-- The selection loop from the first record of a key on. -/
theorem selectFrom_spec {block : DecodedBlock} {key : Bytes} {s : Nat}
    {selected : Option SegmentVersion} (content : block.bytes = before ++ recordsOf entries)
    (readable : Readable entries) (sorted : entries.Pairwise Entry.Before)
    (reached : ∀ e ∈ entries, key ≤ e.1) :
    block.selectFrom key s (offsetsFrom before.length entries) selected =
      .ok ((newest entries key s).or selected) := by
  induction entries generalizing before selected with
  | nil => rfl
  | cons entry rest ih =>
    have sorted' := (List.pairwise_cons.mp sorted).2
    have tail : ∀ selected, block.selectFrom key s
        (offsetsFrom (before.length + entry.bytes.length) rest) selected =
          .ok ((newest rest key s).or selected) := by
      intro selected
      rw [← List.length_append]
      exact ih (by rw [content, recordsOf_cons, List.append_assoc]) (inRange_cons.mp readable).2
        sorted' fun e h => reached e (List.mem_cons_of_mem _ h)
    rw [offsetsFrom, selectFrom, parseRecord_head content readable, except_ok_bind]
    by_cases same : entry.1 = key
    · rw [if_pos same]
      by_cases visible : entry.2.sequence ≤ s
      · rw [if_pos visible, tail]
        subst same
        rw [newest_cons_of_sorted sorted visible, Option.or_assoc]
        rfl
      · rw [if_neg visible, tail, newest_cons, if_pos same, if_neg visible, none_keep]
    · have beyond : key < entry.1 :=
        lt_of_le_of_ne (reached entry List.mem_cons_self) (Ne.symm same)
      have nothing : newest (entry :: rest) key s = none := by
        apply newest_eq_none_of_ne _
        intro e member
        rcases List.mem_cons.mp member with rfl | later
        · exact same
        · have := ((List.pairwise_cons.mp sorted).1 e later).key_le
          exact ne_of_gt (lt_of_lt_of_le beyond this)
      rw [if_neg same, nothing]
      rfl

theorem selectVersion_spec (readable : Readable entries) (sorted : entries.Pairwise Entry.Before)
    (key : Bytes) (s : Nat) :
    (decodedOf entries).selectVersion key s = .ok (newest entries key s) := by
  obtain ⟨n, found, below, above⟩ := lowerBound_spec readable sorted key
  have split : entries = entries.take n ++ entries.drop n := (List.take_append_drop n entries).symm
  have content : (decodedOf entries).bytes =
      recordsOf (entries.take n) ++ recordsOf (entries.drop n) := by
    rw [← recordsOf_append, List.take_append_drop]
    rfl
  have readable' := readable
  rw [split] at readable'
  have sorted' := sorted
  rw [split] at sorted'
  rw [selectVersion, found, except_ok_bind]
  have offsets : (decodedOf entries).recordOffsets.drop n =
      offsetsFrom (recordsOf (entries.take n)).length (entries.drop n) := by
    rw [decodedOf, drop_offsetsFrom, Nat.zero_add]
  rw [offsets, selectFrom_spec content readable'.append.2 (List.pairwise_append.mp sorted').2.1
    above, Option.or_none]
  congr 1
  have skipped : newest (entries.take n) key s = none :=
    newest_eq_none_of_ne _ fun e h => ne_of_lt (below e h)
  conv_rhs => rw [split, newest_append, skipped, none_keep]

end DecodedBlock

/-! ## Traversals -/

section Visit

variable {σ : Type} {collect : σ → Record → σ}

/-- A visitor that does not look at the position after a record. -/
def Blind (collect : σ → Record → σ) : Prop :=
  ∀ state (entry : Entry) n m, collect state (entry.record n) = collect state (entry.record m)

/-- A visitor's effect of one entry. -/
def visitEntry (collect : σ → Record → σ) (state : σ) (entry : Entry) : σ := collect state (entry.record 0)

theorem visit_spec (block : DecodedBlock) {entries : List Entry} (before : Bytes) (state : σ)
    (blind : Blind collect) (content : block.bytes = before ++ recordsOf entries)
    (readable : Readable entries) :
    block.visit collect (offsetsFrom before.length entries) state =
      .ok (entries.foldl (visitEntry collect) state) := by
  induction entries generalizing before state with
  | nil => rfl
  | cons entry rest ih =>
    rw [offsetsFrom, DecodedBlock.visit, DecodedBlock.parseRecord_head content readable,
      except_ok_bind, List.foldl_cons, ← List.length_append]
    rw [ih _ _ (by rw [content, recordsOf_cons, List.append_assoc]) (inRange_cons.mp readable).2]
    rw [visitEntry, blind state entry _ 0]

theorem visitRecords_spec {bytes : Bytes} (before : Bytes) {entries : List Entry} (fuel : Nat) (state : σ)
    (blind : Blind collect) (content : bytes = before ++ recordsOf entries)
    (readable : Readable entries) (enough : entries.length ≤ fuel) :
    visitRecords bytes collect fuel before.length state =
      .ok (entries.foldl (visitEntry collect) state) := by
  induction entries generalizing before state fuel with
  | nil =>
    cases fuel with
    | zero => rfl
    | succ fuel =>
      rw [visitRecords, if_neg (by rw [content]; simp)]
      rfl
  | cons entry rest ih =>
    obtain ⟨fuel, rfl⟩ : ∃ n, fuel = n + 1 := ⟨fuel - 1, by rw [List.length_cons] at enough; omega⟩
    have positive := entry.length_bytes_pos
    have inside : before.length < bytes.length := by
      rw [content, recordsOf_cons]
      simp only [List.length_append]
      omega
    rw [visitRecords, if_pos inside, DecodedBlock.parseRecord_head content readable,
      except_ok_bind, List.foldl_cons]
    rw [ih _ _ _ (by rw [content, recordsOf_cons, List.append_assoc]) (inRange_cons.mp readable).2
      (by rw [List.length_cons] at enough; omega)]
    rw [visitEntry, blind state entry _ 0]

/-- Entries that a visitor ignores leave its state alone. -/
theorem foldl_ignored {entries : List Entry} {state : σ}
    (ignored : ∀ e ∈ entries, ∀ state, visitEntry collect state e = state) :
    entries.foldl (visitEntry collect) state = state := by
  induction entries generalizing state with
  | nil => rfl
  | cons e rest ih =>
    rw [List.foldl_cons, ignored e List.mem_cons_self]
    exact ih fun e h => ignored e (List.mem_cons_of_mem _ h)

end Visit

/-! ## Blocks of a segment -/

section Blocks

variable [Platform] {source key start : Bytes} {stop : Option Bytes} {s : Nat}
  {blocks : List BlockDescriptor} {groups : List (List Entry)}

theorem decodeCompressedBlock_small {compressed decoded : Bytes} {block : BlockDescriptor}
    (h : decodeCompressedBlock compressed block = .ok decoded) :
    decoded.length ≤ maxDecodedBlockBytes := by
  simp only [decodeCompressedBlock, except_bind_ok, rejectIf_ok, okOr_ok] at h
  obtain ⟨_, -, sizePrefix, -, _, declared, h⟩ := h
  split at h
  · simp only [except_bind_ok, rejectIf_ok, except_pure, Except.ok.injEq, not_not] at h
    obtain ⟨_, rfl, _, length, rfl⟩ := h
    omega
  · simp only [except_throw, except_error_bind] at h
    cases h

theorem loadBlock_spec {block : BlockDescriptor} {entries : List Entry}
    (holds : BlockHolds source block entries) (readable : Readable entries) :
    loadBlock source block = .ok (decodedOf entries) := by
  obtain ⟨compressed, found, decoded⟩ := holds.decodes
  have small := decodeCompressedBlock_small decoded
  rw [loadBlock, found, okOr_some, except_ok_bind, decoded, except_ok_bind]
  apply DecodedBlock.parse_recordsOf readable
  unfold maxDecodedBlockBytes recordHeaderBytes maxKeyBytes maxValueBytes at small
  omega

theorem BlockHolds.last {block : BlockDescriptor} {entries : List Entry}
    (holds : BlockHolds source block entries) :
    ∃ last ∈ entries, last.1 = block.lastKey ∧ entries.getLast? = some last := by
  have h := holds.lastKey
  cases lastIs : entries.getLast? with
  | none => rw [lastIs] at h; cases h
  | some last =>
    rw [lastIs] at h
    exact ⟨last, List.mem_of_getLast? lastIs, Option.some.inj h, rfl⟩

theorem BlockHolds.key_le {block : BlockDescriptor} {entries : List Entry}
    (holds : BlockHolds source block entries) (sorted : entries.Pairwise Entry.Before)
    {e : Entry} (member : e ∈ entries) : e.1 ≤ block.lastKey := by
  obtain ⟨last, -, key, lastIs⟩ := holds.last
  obtain ⟨front, rfl⟩ := List.getLast?_eq_some_iff.mp lastIs
  rw [← key]
  rcases List.mem_append.mp member with earlier | isLast
  · exact key_le_of_sorted sorted earlier (by simp)
  · rw [List.mem_singleton] at isLast
    rw [isLast]

/-- The entries after a block have keys at or beyond its last key. -/
theorem BlockHolds.le_key {block : BlockDescriptor} {entries later : List Entry}
    (holds : BlockHolds source block entries) (sorted : (entries ++ later).Pairwise Entry.Before)
    {e : Entry} (member : e ∈ later) : block.lastKey ≤ e.1 := by
  obtain ⟨last, isMember, key, -⟩ := holds.last
  rw [← key]
  exact key_le_of_sorted sorted isMember member

/-- The blocks before the first whose last key reaches `key` hold only smaller keys. -/
theorem skipped_blocks (holds : List.Forall₂ (BlockHolds source) blocks groups)
    (sorted : groups.flatten.Pairwise Entry.Before) (key : Bytes) :
    let n := partitionPoint (fun block : BlockDescriptor => block.lastKey < key) blocks
    List.Forall₂ (BlockHolds source) (blocks.drop n) (groups.drop n) ∧
      ∀ e ∈ (groups.take n).flatten, e.1 < key := by
  induction holds with
  | nil => exact ⟨.nil, by simp⟩
  | @cons block entries blocks groups block_holds holds ih =>
    rw [List.flatten_cons] at sorted
    obtain ⟨sorted₁, sorted₂, -⟩ := List.pairwise_append.mp sorted
    by_cases less : block.lastKey < key
    · obtain ⟨rest, below⟩ := ih sorted₂
      simp only [partitionPoint, List.takeWhile_cons, less, decide_true, if_true,
        List.length_cons, List.drop_succ_cons, List.take_succ_cons, List.flatten_cons]
      refine ⟨rest, ?_⟩
      intro e member
      rcases List.mem_append.mp member with inside | later
      · exact lt_of_le_of_lt (block_holds.key_le sorted₁ inside) less
      · exact below e later
    · simp only [partitionPoint, List.takeWhile_cons, less, decide_false, Bool.false_eq_true,
        if_false, List.length_nil, List.drop_zero, List.take_zero, List.flatten_nil]
      exact ⟨.cons block_holds holds, by simp⟩

omit [Platform] in
theorem flatten_take_drop (groups : List (List Entry)) (n : Nat) :
    groups.flatten = (groups.take n).flatten ++ (groups.drop n).flatten := by
  rw [← List.flatten_append, List.take_append_drop]

theorem selectBlocks_spec {selected : Option SegmentVersion}
    (holds : List.Forall₂ (BlockHolds source) blocks groups) (readable : Readable groups.flatten)
    (sorted : groups.flatten.Pairwise Entry.Before) :
    selectBlocks source key s blocks selected =
      .ok (keep selected (newest groups.flatten key s)) := by
  induction holds generalizing selected with
  | nil => simp [selectBlocks]
  | @cons block entries blocks groups block_holds holds ih =>
    rw [List.flatten_cons] at readable sorted ⊢
    obtain ⟨sorted₁, sorted₂, -⟩ := List.pairwise_append.mp sorted
    rw [selectBlocks, loadBlock_spec block_holds readable.append.1, except_ok_bind,
      DecodedBlock.selectVersion_spec readable.append.1 sorted₁, except_ok_bind,
      keepNewer_eq_keep, newest_append]
    dsimp only
    split
    · rename_i beyond
      have nothing : newest groups.flatten key s = none :=
        newest_eq_none_of_ne _ fun e h =>
          ne_of_gt (lt_of_lt_of_le beyond (block_holds.le_key sorted h))
      rw [nothing, keep_none]
      rfl
    · rw [ih readable.append.2 sorted₂, keep_assoc]

/-- One block of a range traversal, once the position of its first record is known. -/
theorem visitBlocks_cons {σ : Type} {collect : σ → Record → σ} {state : σ} {isFirst : Bool}
    {block : BlockDescriptor} {decoded : DecodedBlock} {n : Nat}
    (loaded : loadBlock source block = .ok decoded)
    (found : (if isFirst then decoded.lowerBound start else pure 0) = Except.ok n) :
    visitBlocks source start stop collect (block :: blocks) isFirst state = (do
      let state ← decoded.visit collect (decoded.recordOffsets.drop n) state
      if ∃ bound ∈ stop, block.lastKey ≥ bound then return state
      else visitBlocks source start stop collect blocks false state) := by
  rw [visitBlocks, loaded, except_ok_bind]
  cases isFirst with
  | true =>
    rw [if_pos rfl] at found
    simp only [if_true, found, except_ok_bind]
  | false =>
    rw [if_neg (by simp), except_pure, Except.ok.injEq] at found
    subst found
    rfl

theorem visitBlocks_spec {σ : Type} {collect : σ → Record → σ} {state : σ} {isFirst : Bool}
    (blind : Blind collect)
    (ignores : ∀ e : Entry, Segment.outside start stop e.1 → ∀ state, visitEntry collect state e = state)
    (holds : List.Forall₂ (BlockHolds source) blocks groups) (readable : Readable groups.flatten)
    (sorted : groups.flatten.Pairwise Entry.Before) :
    visitBlocks source start stop collect blocks isFirst state =
      .ok (groups.flatten.foldl (visitEntry collect) state) := by
  induction holds generalizing state isFirst with
  | nil => rfl
  | @cons block entries blocks groups block_holds holds ih =>
    rw [List.flatten_cons] at readable sorted ⊢
    obtain ⟨sorted₁, sorted₂, -⟩ := List.pairwise_append.mp sorted
    obtain ⟨readable₁, readable₂⟩ := readable.append
    -- the records before `start` in the first block are ones the visitor ignores
    have first : ∃ n, (if isFirst then (decodedOf entries).lowerBound start else pure 0) =
        Except.ok n ∧ ∀ e ∈ entries.take n, e.1 < start := by
      cases isFirst with
      | true =>
        obtain ⟨n, found, below, -⟩ := DecodedBlock.lowerBound_spec readable₁ sorted₁ start
        exact ⟨n, found, below⟩
      | false => exact ⟨0, rfl, by simp⟩
    obtain ⟨n, found, below⟩ := first
    have visited : (decodedOf entries).visit collect ((decodedOf entries).recordOffsets.drop n)
        state = .ok (entries.foldl (visitEntry collect) state) := by
      have split : entries = entries.take n ++ entries.drop n := (List.take_append_drop n _).symm
      have content : (decodedOf entries).bytes =
          recordsOf (entries.take n) ++ recordsOf (entries.drop n) := by
        rw [← recordsOf_append, List.take_append_drop]
        rfl
      have offsets : (decodedOf entries).recordOffsets.drop n =
          offsetsFrom (recordsOf (entries.take n)).length (entries.drop n) := by
        rw [decodedOf, drop_offsetsFrom, Nat.zero_add]
      have readable' := readable₁
      rw [split] at readable'
      rw [offsets, visit_spec _ _ _ blind content readable'.append.2]
      conv_rhs => rw [split, List.foldl_append]
      rw [foldl_ignored fun e h => ignores e (.inl (below e h))]
    rw [visitBlocks_cons (loadBlock_spec block_holds readable₁) found, visited, except_ok_bind,
      List.foldl_append]
    split
    · rename_i reached
      obtain ⟨bound, isBound, reached⟩ := reached
      have nothing : ∀ state, groups.flatten.foldl (visitEntry collect) state = state := fun state =>
        foldl_ignored fun e h =>
          ignores e (.inr ⟨bound, isBound, reached.trans (block_holds.le_key sorted h)⟩)
      rw [nothing]
      rfl
    · exact ih readable₂ sorted₂

theorem visitAllBlocks_spec {σ : Type} {collect : σ → Record → σ} {state : σ}
    (blind : Blind collect) (holds : List.Forall₂ (BlockHolds source) blocks groups)
    (readable : Readable groups.flatten) :
    Segment.visitAllBlocks source collect blocks state =
      .ok (groups.flatten.foldl (visitEntry collect) state) := by
  induction holds generalizing state with
  | nil => rfl
  | @cons block entries blocks groups block_holds holds ih =>
    rw [List.flatten_cons] at readable ⊢
    have visited := visit_spec (decodedOf entries) [] state blind
      (by simp [decodedOf]) readable.append.1
    rw [List.length_nil] at visited
    rw [Segment.visitAllBlocks, loadBlock_spec block_holds readable.append.1, except_ok_bind,
      decodedOf] at *
    rw [visited, except_ok_bind, List.foldl_append]
    exact ih readable.append.2

end Blocks
end Vyrm.Kv
