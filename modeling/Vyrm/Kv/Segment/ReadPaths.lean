import Mathlib.Data.List.TakeWhile
import Vyrm.Kv.Segment.ReadSpec

/-!
# The read paths of a segment

For a segment that holds a list of entries, every public reader returns what
`newest` says of these entries: the point read, the batched point read in any
order of keys, the range reads of both storage forms, and the full traversal.
-/

namespace Vyrm.Kv
open Lib Mvcc

/-! ## Ordered maps -/

theorem compare_eq_iff' {k a : Bytes} : (compare k a = .eq) ↔ k = a := compare_eq_iff k a

theorem getElem?_insert_eq {K β : Type} [LinearOrder K] (t : Std.TreeMap K β) (k a : K) (v : β) :
    (t.insert k v)[a]? = if k = a then some v else t[a]? := by
  rw [Std.TreeMap.getElem?_insert]
  simp only [compare_eq_iff_eq]

theorem isGraph_toList {K β : Type} [LinearOrder K] (t : Std.TreeMap K β) :
    IsGraph t.toList (fun k => t[k]?) := by
  constructor
  · exact Std.TreeMap.ordered_keys_toList.imp fun less => compare_lt_iff_lt.mp less
  · intro k v
    exact Std.TreeMap.mem_toList_iff_getElem?_eq_some

/-! ## Point reads -/

section Legacy

variable {bytes before key : Bytes} {entries : List Entry} {s fuel : Nat}

theorem selectVersionLoop_spec {selected : Option SegmentVersion}
    (content : bytes = before ++ recordsOf entries) (readable : Readable entries)
    (sorted : entries.Pairwise Entry.Before) (enough : entries.length ≤ fuel) :
    selectVersionLoop bytes key s fuel before.length selected =
      .ok ((newest entries key s).or selected) := by
  induction entries generalizing before fuel selected with
  | nil =>
    cases fuel with
    | zero => rfl
    | succ fuel =>
      rw [selectVersionLoop, if_neg (by rw [content]; simp)]
      rfl
  | cons entry rest ih =>
    obtain ⟨fuel, rfl⟩ : ∃ n, fuel = n + 1 := ⟨fuel - 1, by rw [List.length_cons] at enough; omega⟩
    have positive := entry.length_bytes_pos
    have inside : before.length < bytes.length := by
      rw [content, recordsOf_cons]
      simp only [List.length_append]
      omega
    have tail : ∀ selected, selectVersionLoop bytes key s fuel (before ++ entry.bytes).length
        selected = .ok ((newest rest key s).or selected) := fun selected =>
      ih (by rw [content, recordsOf_cons, List.append_assoc]) (inRange_cons.mp readable).2
        (List.pairwise_cons.mp sorted).2 (by rw [List.length_cons] at enough; omega)
    rw [selectVersionLoop, if_pos inside, DecodedBlock.parseRecord_head content readable,
      except_ok_bind]
    by_cases less : entry.1 < key
    · rw [if_pos less, tail, newest_cons, if_neg (ne_of_lt less)]
    · rw [if_neg less]
      by_cases same : entry.1 = key
      · rw [if_pos same]
        by_cases visible : entry.2.sequence ≤ s
        · rw [if_pos visible, tail]
          subst same
          rw [newest_cons_of_sorted sorted visible, Option.or_assoc]
          rfl
        · rw [if_neg visible, tail, newest_cons, if_pos same, if_neg visible, none_keep]
      · have beyond : key < entry.1 := lt_of_le_of_ne (not_lt.mp less) (Ne.symm same)
        have nothing : newest (entry :: rest) key s = none := by
          apply newest_eq_none_of_ne _
          intro e member
          rcases List.mem_cons.mp member with rfl | later
          · exact same
          · have := ((List.pairwise_cons.mp sorted).1 e later).key_le
            exact ne_of_gt (lt_of_lt_of_le beyond this)
        rw [if_neg same, nothing]
        rfl

/-- The sparse seek lands on a record before which all keys are smaller. -/
theorem legacySeek_spec {sparse : List SparseEntry} (index : SparseIndex entries sparse)
    (reached : ∀ e ∈ entries.head?, e.1 ≤ key) :
    ∃ pre post, entries = pre ++ post ∧
      legacySeek (recordsOf entries) sparse key = (recordsOf pre).length ∧ ∀ e ∈ pre, e.1 < key := by
  unfold legacySeek
  dsimp only
  cases found : sparse[partitionPoint (fun entry : SparseEntry => entry.key ≤ key) sparse - 1]? with
  | none => exact ⟨[], entries, rfl, rfl, by simp⟩
  | some chosen =>
    have member : chosen ∈ sparse := List.mem_of_getElem? found
    have small : chosen.key ≤ key := by
      cases sparse with
      | nil => cases member
      | cons head rest =>
        have headSmall : head.key ≤ key := by
          cases entries with
          | nil =>
            obtain ⟨pre, entry, post, impossible, -⟩ := index.at_ head List.mem_cons_self
            simp at impossible
          | cons e _ =>
            have first := index.first e rfl
            rw [List.head?_cons, Option.some.injEq] at first
            rw [first]
            exact reached e rfl
        -- the run of small keys is not empty, so its last element is the one found
        have run : partitionPoint (fun entry : SparseEntry => entry.key ≤ key) (head :: rest) =
            partitionPoint (fun entry : SparseEntry => entry.key ≤ key) rest + 1 := by
          simp [partitionPoint, headSmall]
        have inRun : chosen ∈ (head :: rest).takeWhile fun entry => decide (entry.key ≤ key) := by
          rw [run, Nat.add_sub_cancel] at found
          have bound : partitionPoint (fun entry : SparseEntry => entry.key ≤ key) rest <
              ((head :: rest).takeWhile fun entry => decide (entry.key ≤ key)).length := by
            simp [partitionPoint, headSmall]
          rw [← List.takeWhile_append_dropWhile (p := fun entry => decide (entry.key ≤ key))
            (l := head :: rest), List.getElem?_append_left bound] at found
          exact List.mem_of_getElem? found
        have passes := List.mem_takeWhile_imp inRun
        exact of_decide_eq_true passes
    obtain ⟨pre, entry, post, rfl, offset, chosenKey, below⟩ := index.at_ chosen member
    refine ⟨pre, entry :: post, rfl, ?_, ?_⟩
    · dsimp only
      rw [offset, recordsOf_append, List.length_append]
      omega
    · intro e h
      exact lt_of_lt_of_le (below e h) (chosenKey ▸ small)

end Legacy

namespace Segment

section Answers

variable {entries : List Entry} {s : Nat}

/-- The answers collected after the keys at `done` were read. -/
structure Answers (entries : List Entry) (keys : List Bytes) (s : Nat) (done : List Nat)
    (output : List (Option SegmentVersion)) : Prop where
  length : output.length = keys.length
  read : ∀ i (inside : i < keys.length), i ∈ done →
    output[i]? = some (newest entries (keys.get ⟨i, inside⟩) s)
  unread : ∀ i, i < keys.length → i ∉ done → output[i]? = some none

theorem Answers.set {keys : List Bytes} {done : List Nat} {output : List (Option SegmentVersion)}
    (answers : Answers entries keys s done output) {i : Nat} (inside : i < keys.length) :
    Answers entries keys s (i :: done)
      (output.set i (newest entries (keys.get ⟨i, inside⟩) s)) := by
  refine ⟨by rw [List.length_set, answers.length], ?_, ?_⟩
  · intro j inside' member
    by_cases same : i = j
    · subst same
      rw [List.getElem?_set_self (by rw [answers.length]; exact inside)]
    · rw [List.getElem?_set_ne same]
      rcases List.mem_cons.mp member with rfl | member
      · exact absurd rfl same
      · exact answers.read j inside' member
  · intro j inside' notMember
    rw [List.mem_cons, not_or] at notMember
    rw [List.getElem?_set_ne (Ne.symm notMember.1)]
    exact answers.unread j inside' notMember.2

theorem Answers.skip {keys : List Bytes} {done : List Nat} {output : List (Option SegmentVersion)}
    (answers : Answers entries keys s done output) {i : Nat} (inside : i < keys.length)
    (nothing : newest entries (keys.get ⟨i, inside⟩) s = none) :
    Answers entries keys s (i :: done) output := by
  refine ⟨answers.length, ?_, ?_⟩
  · intro j inside' member
    by_cases old : j ∈ done
    · exact answers.read j inside' old
    · rcases List.mem_cons.mp member with rfl | member
      · rw [nothing]
        exact answers.unread j inside' old
      · exact absurd member old
  · intro j inside' notMember
    exact answers.unread j inside' fun h => notMember (List.mem_cons_of_mem _ h)

theorem Answers.complete {keys : List Bytes} {done : List Nat}
    {output : List (Option SegmentVersion)} (answers : Answers entries keys s done output)
    (all : ∀ i < keys.length, i ∈ done) : output = keys.map (newest entries · s) := by
  apply List.ext_getElem?
  intro i
  by_cases inside : i < keys.length
  · rw [answers.read i inside (all i inside), List.getElem?_map,
      List.getElem?_eq_getElem inside]
    rfl
  · rw [List.getElem?_eq_none (by rw [answers.length]; omega),
      List.getElem?_eq_none (by rw [List.length_map]; omega)]

theorem getD_eq_get {keys : List Bytes} {i : Nat} (inside : i < keys.length) :
    keys.getD i [] = keys.get ⟨i, inside⟩ := by
  simp [List.getD_eq_getElem?_getD, List.getElem?_eq_getElem inside]

theorem mem_keyOrder {keys : List Bytes} {i : Nat} : i ∈ keyOrder keys ↔ i < keys.length := by
  unfold keyOrder
  rw [(List.mergeSort_perm _ _).mem_iff, List.mem_range]

end Answers

variable [Platform] {segment : Segment} {entries : List Entry} {key : Bytes} {s : Nat}

theorem Holds.readable (holds : segment.Holds entries) : Readable entries :=
  holds.range.readable holds.positive

theorem Holds.firstKey_le (holds : segment.Holds entries) {e : Entry} (member : e ∈ entries) :
    segment.descriptor.firstKey ≤ e.1 := by
  have first := holds.firstKey
  have sorted := holds.sorted
  cases entries with
  | nil => cases member
  | cons head rest =>
    rw [List.head?_cons, Option.map_some, Option.some.injEq] at first
    rw [← first]
    rcases List.mem_cons.mp member with rfl | later
    · exact le_refl _
    · exact ((List.pairwise_cons.mp sorted).1 e later).key_le

theorem Holds.le_lastKey (holds : segment.Holds entries) {e : Entry} (member : e ∈ entries) :
    e.1 ≤ segment.descriptor.lastKey := by
  have lastKey := holds.lastKey
  have sorted := holds.sorted
  cases lastIs : entries.getLast? with
  | none => rw [lastIs] at lastKey; cases lastKey
  | some last =>
    rw [lastIs, Option.map_some, Option.some.injEq] at lastKey
    obtain ⟨front, rfl⟩ := List.getLast?_eq_some_iff.mp lastIs
    rw [← lastKey]
    rcases List.mem_append.mp member with earlier | isLast
    · exact key_le_of_sorted sorted earlier (by simp)
    · rw [List.mem_singleton] at isLast
      rw [isLast]

/-- What the descriptor rules out is not there. -/
theorem Holds.newest_excluded (holds : segment.Holds entries) (out : segment.excludes key s) :
    newest entries key s = none := by
  rcases out with below | above | early
  · exact newest_eq_none_of_ne _ fun e h => ne_of_gt (lt_of_lt_of_le below (holds.firstKey_le h))
  · exact newest_eq_none_of_ne _ fun e h => ne_of_lt (lt_of_le_of_lt (holds.le_lastKey h) above)
  · exact newest_eq_none_of_newer fun e h => lt_of_lt_of_le early (holds.range.low e h)

/-- The point read returns the newest visible version. -/
theorem Holds.getVersion (holds : segment.Holds entries) (key : Bytes) (s : Nat) :
    segment.getVersion key s = .ok (newest entries key s) := by
  unfold Segment.getVersion
  split
  · rename_i out
    rw [holds.newest_excluded out]
    rfl
  · rename_i inside
    have reached : ∀ e ∈ entries.head?, e.1 ≤ key := by
      intro e member
      have first := holds.firstKey
      rw [Option.mem_def.mp member, Option.map_some, Option.some.injEq] at first
      rw [first]
      exact not_lt.mp fun less => inside (.inl less)
    have readable := holds.readable
    have sorted := holds.sorted
    have storage := holds.storage
    unfold SegmentStorage.Holds at storage
    cases form : segment.storage with
    | legacy records sparse =>
      rw [form] at storage
      obtain ⟨rfl, index⟩ := storage
      obtain ⟨pre, post, rfl, seek, below⟩ := legacySeek_spec index reached
      dsimp only
      rw [seek, selectVersionLoop_spec (recordsOf_append pre post)
        readable.append.2 (List.pairwise_append.mp sorted).2.1
        ((length_le_recordsOf post).trans (by simp)), Option.or_none, newest_append,
        newest_eq_none_of_ne _ (fun e h => ne_of_lt (below e h)), none_keep]
    | blocked source blocks =>
      rw [form] at storage
      obtain ⟨groups, rfl, held⟩ := storage
      obtain ⟨held', below⟩ := skipped_blocks held sorted key
      dsimp only at held' below ⊢
      generalize partitionPoint (fun block : BlockDescriptor => block.lastKey < key) blocks = n at *
      have split := flatten_take_drop groups n
      have readable' := readable
      have sorted' := sorted
      rw [split] at readable' sorted'
      rw [selectBlocks_spec held' readable'.append.2 (List.pairwise_append.mp sorted').2.1,
        none_keep]
      conv_rhs => rw [split, newest_append,
        newest_eq_none_of_ne _ (fun e h => ne_of_lt (below e h)), none_keep]

/-! ## Batched point reads -/

/-- A loaded block is the decoded block at its index. -/
def LoadedOk (groups : List (List Entry)) (loaded : Option (Nat × DecodedBlock)) : Prop :=
  ∀ index decoded, loaded = some (index, decoded) →
    ∃ group, groups[index]? = some group ∧ decoded = decodedOf group

theorem forall₂_zipIdx {source : Bytes} {blocks : List BlockDescriptor}
    {groups : List (List Entry)} (all : List (List Entry)) (first : Nat)
    (holds : List.Forall₂ (BlockHolds source) blocks groups)
    (placed : ∀ i, all[first + i]? = groups[i]?) :
    List.Forall₂ (fun (numbered : BlockDescriptor × Nat) group =>
      BlockHolds source numbered.1 group ∧ all[numbered.2]? = some group)
      (blocks.zipIdx first) groups := by
  induction holds generalizing first with
  | nil => exact .nil
  | cons head _ ih =>
    refine .cons ⟨head, ?_⟩ (ih _ ?_)
    · have := placed 0
      simpa using this
    · intro i
      have := placed (i + 1)
      rw [List.getElem?_cons_succ] at this
      rw [← this]
      congr 1
      omega

theorem selectBlocksLoaded_spec {source : Bytes} {numbered : List (BlockDescriptor × Nat)}
    {groups all : List (List Entry)} {loaded : Option (Nat × DecodedBlock)} (key : Bytes) (s : Nat)
    (selected : Option SegmentVersion)
    (holds : List.Forall₂ (fun (numbered : BlockDescriptor × Nat) group =>
      BlockHolds source numbered.1 group ∧ all[numbered.2]? = some group) numbered groups)
    (readable : Readable groups.flatten) (sorted : groups.flatten.Pairwise Entry.Before)
    (loadedOk : LoadedOk all loaded) :
    ∃ loaded', selectBlocksLoaded source key s numbered loaded selected =
      .ok (keep selected (newest groups.flatten key s), loaded') ∧ LoadedOk all loaded' := by
  induction holds generalizing loaded selected with
  | nil => exact ⟨loaded, by simp [selectBlocksLoaded], loadedOk⟩
  | @cons head group numbered groups head_holds holds ih =>
    obtain ⟨block, index⟩ := head
    obtain ⟨block_holds, placed⟩ := head_holds
    rw [List.flatten_cons] at readable sorted ⊢
    obtain ⟨sorted₁, sorted₂, -⟩ := List.pairwise_append.mp sorted
    obtain ⟨readable₁, readable₂⟩ := readable.append
    have load := loadBlock_spec block_holds readable₁
    have freshOk : LoadedOk all (some (index, decodedOf group)) := by
      intro i d same
      cases same
      exact ⟨group, placed, rfl⟩
    -- whether the block is reused or loaded, the loop goes on with the decoded group
    have continue_ : ∀ loaded', LoadedOk all loaded' → ∃ loaded'',
        (do
          let version ← (decodedOf group).selectVersion key s
          let selected := keepNewer selected version
          if block.lastKey > key then return (selected, loaded')
          else selectBlocksLoaded source key s numbered loaded' selected :
            Except Error (Option SegmentVersion × Option (Nat × DecodedBlock))) =
          .ok (keep selected (newest (group ++ groups.flatten) key s), loaded'') ∧
        LoadedOk all loaded'' := by
      intro loaded' ok
      rw [DecodedBlock.selectVersion_spec readable₁ sorted₁, except_ok_bind]
      dsimp only
      rw [keepNewer_eq_keep, newest_append]
      split
      · rename_i beyond
        have nothing : newest groups.flatten key s = none :=
          newest_eq_none_of_ne _ fun e h =>
            ne_of_gt (lt_of_lt_of_le beyond (block_holds.le_key sorted h))
        rw [nothing, keep_none]
        exact ⟨loaded', rfl, ok⟩
      · obtain ⟨loaded'', run, ok'⟩ := ih (keep selected (newest group key s))
          readable₂ sorted₂ ok
        exact ⟨loaded'', by rw [run, keep_assoc], ok'⟩
    cases loaded with
    | none =>
      simp only [selectBlocksLoaded, load, except_ok_bind, except_pure]
      exact continue_ _ freshOk
    | some pair =>
      obtain ⟨loadedIndex, decoded⟩ := pair
      by_cases same : loadedIndex = index
      · obtain ⟨group', found, rfl⟩ := loadedOk loadedIndex decoded rfl
        rw [same, placed, Option.some.injEq] at found
        subst found
        simp only [selectBlocksLoaded, same, if_true, except_ok_bind, except_pure]
        exact continue_ _ freshOk
      · simp only [selectBlocksLoaded, same, if_false, load, except_ok_bind, except_pure]
        exact continue_ _ freshOk

theorem getVersionsBlocked_spec {source : Bytes} {blocks : List BlockDescriptor}
    {groups : List (List Entry)} {keys : List Bytes} {order done : List Nat}
    (loaded : Option (Nat × DecodedBlock)) {output : List (Option SegmentVersion)}
    (holds : segment.Holds groups.flatten)
    (held : List.Forall₂ (BlockHolds source) blocks groups)
    (inside : ∀ i ∈ order, i < keys.length) (loadedOk : LoadedOk groups loaded)
    (answers : Answers groups.flatten keys s done output) :
    ∃ output', segment.getVersionsBlocked source blocks keys s order loaded output = .ok output' ∧
      Answers groups.flatten keys s (order.reverse ++ done) output' := by
  induction order generalizing loaded output done with
  | nil => exact ⟨output, rfl, answers⟩
  | cons i rest ih =>
    have bound := inside i List.mem_cons_self
    have later : ∀ j ∈ rest, j < keys.length := fun j h => inside j (List.mem_cons_of_mem _ h)
    have reorder : (i :: rest).reverse ++ done = rest.reverse ++ (i :: done) := by simp
    rw [getVersionsBlocked, getD_eq_get bound, reorder]
    split
    · rename_i out
      exact ih _ later loadedOk (answers.skip bound (holds.newest_excluded out))
    · obtain ⟨-, below⟩ := skipped_blocks held holds.sorted (keys.get ⟨i, bound⟩)
      have numbered := forall₂_zipIdx groups 0 held (by simp)
      generalize partitionPoint
        (fun block : BlockDescriptor => block.lastKey < keys.get ⟨i, bound⟩) blocks = n at *
      have split := flatten_take_drop groups n
      have readable' := holds.readable
      have sorted' := holds.sorted
      rw [split] at readable' sorted'
      obtain ⟨loaded', run, ok⟩ := selectBlocksLoaded_spec (keys.get ⟨i, bound⟩) s none
        (List.forall₂_drop n numbered) readable'.append.2
        (List.pairwise_append.mp sorted').2.1 loadedOk
      have answer : keep none (newest (groups.drop n).flatten (keys.get ⟨i, bound⟩) s) =
          newest groups.flatten (keys.get ⟨i, bound⟩) s := by
        conv_rhs => rw [split, newest_append,
          newest_eq_none_of_ne _ (fun e h => ne_of_lt (below e h))]
      rw [answer] at run
      dsimp only
      rw [run, except_ok_bind]
      exact ih _ later ok (answers.set bound)

theorem getVersionsLegacy_spec {keys : List Bytes} {order done : List Nat}
    {output : List (Option SegmentVersion)} (holds : segment.Holds entries)
    (inside : ∀ i ∈ order, i < keys.length) (answers : Answers entries keys s done output) :
    ∃ output', segment.getVersionsLegacy keys s order output = .ok output' ∧
      Answers entries keys s (order.reverse ++ done) output' := by
  induction order generalizing output done with
  | nil => exact ⟨output, rfl, answers⟩
  | cons i rest ih =>
    have bound := inside i List.mem_cons_self
    have reorder : (i :: rest).reverse ++ done = rest.reverse ++ (i :: done) := by simp
    rw [getVersionsLegacy, getD_eq_get bound, holds.getVersion, except_ok_bind, reorder]
    exact ih (fun j h => inside j (List.mem_cons_of_mem _ h)) (answers.set bound)

/-- The batched read is the point read of every key, whatever their order. -/
theorem Holds.getVersions (holds : segment.Holds entries) (keys : List Bytes) (s : Nat) :
    segment.getVersions keys s = .ok (keys.map (newest entries · s)) := by
  have start : Answers entries keys s [] (List.replicate keys.length none) :=
    ⟨by simp, by simp, by
      intro i inside _
      rw [List.getElem?_replicate, if_pos inside]⟩
  have finish : ∀ output, Answers entries keys s ((keyOrder keys).reverse ++ []) output →
      output = keys.map (newest entries · s) := fun output answers =>
    answers.complete fun i inside => by simpa using mem_keyOrder.mpr inside
  have bounds : ∀ i ∈ keyOrder keys, i < keys.length := fun i h => mem_keyOrder.mp h
  have storage := holds.storage
  unfold SegmentStorage.Holds at storage
  unfold Segment.getVersions
  cases form : segment.storage with
  | legacy records sparse =>
    obtain ⟨output, run, answers⟩ := getVersionsLegacy_spec holds bounds start
    dsimp only
    rw [run, finish output answers]
  | blocked source blocks =>
    rw [form] at storage
    obtain ⟨groups, rfl, held⟩ := storage
    obtain ⟨output, run, answers⟩ := getVersionsBlocked_spec none holds held bounds
      (by intro _ _ impossible; cases impossible) start
    dsimp only
    rw [run, finish output answers]

/-! ## Range reads -/

/-- What a range read at `s` has to say about a key. -/
def visibleIn (entries : List Entry) (start : Bytes) (stop : Option Bytes) (s : Nat)
    (key : Bytes) : Option VersionedValue :=
  if outside start stop key then none else newest entries key s

omit [Platform] in
theorem blind_collectVisible (start : Bytes) (stop : Option Bytes) (s : Nat) :
    Blind (collectVisible start stop s) := fun _ _ _ _ => rfl

omit [Platform] in
theorem collectVisible_outside {start : Bytes} {stop : Option Bytes} (entry : Entry)
    (out : outside start stop entry.1) (grouped : Std.TreeMap Bytes SegmentVersion) :
    visitEntry (collectVisible start stop s) grouped entry = grouped := if_pos out

omit [Platform] in
/-- The grouping map after a traversal, key by key. -/
theorem foldl_collectVisible (start : Bytes) (stop : Option Bytes) (s : Nat) (entries : List Entry)
    (grouped : Std.TreeMap Bytes SegmentVersion) (k : Bytes) :
    (entries.foldl (visitEntry (collectVisible start stop s)) grouped)[k]? =
      keep grouped[k]? (visibleIn entries start stop s k) := by
  induction entries generalizing grouped with
  | nil => simp [visibleIn]
  | cons entry rest ih =>
    rw [List.foldl_cons, ih]
    simp only [visibleIn, newest_cons]
    by_cases out : outside start stop entry.1
    · rw [collectVisible_outside entry out]
      by_cases same : entry.1 = k
      · subst same
        rw [if_pos out, if_pos out]
      · rw [if_neg same]
    · have effect : (visitEntry (collectVisible start stop s) grouped entry)[k]? =
          if entry.1 = k then
            keep grouped[k]? (if entry.2.sequence ≤ s then some entry.2 else none)
          else grouped[k]? := by
        simp only [visitEntry, collectVisible, if_neg out]
        by_cases visible : entry.2.sequence ≤ s
        · simp only [visible, if_true]
          by_cases same : entry.1 = k
          · subst same
            rw [if_pos rfl]
            cases prior : grouped[entry.1]? with
            | none => simp
            | some old =>
              by_cases newer : old.sequence < entry.2.sequence
              · simp [keep, newer]
              · simp [keep, newer, prior]
          · rw [if_neg same]
            split
            · rw [getElem?_insert_eq, if_neg same]
            · rfl
        · simp [visible]
      rw [effect]
      by_cases same : entry.1 = k
      · subst same
        rw [if_pos rfl, if_pos rfl, if_neg out, if_neg out, keep_assoc]
      · rw [if_neg same, if_neg same]

/-- The traversal of a range visits every entry the visitor does not ignore. -/
theorem Holds.visibleFrom (holds : segment.Holds entries) (start : Bytes) (stop : Option Bytes)
    (s : Nat) :
    ∃ pairs, segment.visibleFrom start stop s = .ok pairs ∧
      IsGraph pairs (visibleIn entries start stop s) := by
  have graph : ∀ grouped, grouped = entries.foldl (visitEntry (collectVisible start stop s)) ∅ →
      IsGraph grouped.toList (visibleIn entries start stop s) := by
    rintro grouped rfl
    have listed := isGraph_toList (entries.foldl (visitEntry (collectVisible start stop s)) ∅)
    have answers : (fun k => (entries.foldl (visitEntry (collectVisible start stop s)) ∅)[k]?) =
        visibleIn entries start stop s := by
      funext k
      rw [foldl_collectVisible]
      simp
    rw [answers] at listed
    exact listed
  have readable := holds.readable
  have storage := holds.storage
  unfold SegmentStorage.Holds at storage
  unfold Segment.visibleFrom
  cases form : segment.storage with
  | legacy records sparse =>
    rw [form] at storage
    obtain ⟨rfl, -⟩ := storage
    have visited := visitRecords_spec [] ((recordsOf entries).length) ∅
      (blind_collectVisible start stop s) rfl readable (length_le_recordsOf entries)
    rw [List.nil_append, List.length_nil] at visited
    dsimp only
    rw [visited, except_ok_bind]
    exact ⟨_, rfl, graph _ rfl⟩
  | blocked source blocks =>
    rw [form] at storage
    obtain ⟨groups, rfl, held⟩ := storage
    obtain ⟨held', below⟩ := skipped_blocks held holds.sorted start
    dsimp only at held' below ⊢
    generalize partitionPoint (fun block : BlockDescriptor => block.lastKey < start) blocks = n at *
    have split := flatten_take_drop groups n
    have readable' := readable
    have sorted' := holds.sorted
    rw [split] at readable' sorted'
    rw [visitBlocks_spec (blind_collectVisible start stop s) collectVisible_outside held'
      readable'.append.2 (List.pairwise_append.mp sorted').2.1, except_ok_bind]
    refine ⟨_, rfl, graph _ ?_⟩
    conv_rhs => rw [split, List.foldl_append]
    rw [foldl_ignored fun e h => collectVisible_outside e (.inl (below e h))]

/-! ## The single-segment scan -/

section ScanState

variable {start : Bytes} {stop : Option Bytes} {done : List Entry} {entry : Entry}
  {state : ScanState}

omit [Platform] in
theorem visibleIn_append_outside (out : outside start stop entry.1) (k : Bytes) :
    visibleIn (done ++ [entry]) start stop s k = visibleIn done start stop s k := by
  unfold visibleIn
  split
  · rfl
  · rename_i inside
    have different : entry.1 ≠ k := by
      rintro rfl
      exact inside out
    rw [newest_append, newest_eq_none_of_ne [entry] (by simpa using different),
      keep_none]

omit [Platform] in
theorem visibleIn_append_of_ne {k : Bytes} (different : entry.1 ≠ k) :
    visibleIn (done ++ [entry]) start stop s k = visibleIn done start stop s k := by
  unfold visibleIn
  rw [newest_append, newest_eq_none_of_ne [entry] (by simpa using different), keep_none]

omit [Platform] in
theorem visibleIn_append_self (inside : ¬ outside start stop entry.1) :
    visibleIn (done ++ [entry]) start stop s entry.1 =
      keep (visibleIn done start stop s entry.1)
        (if entry.2.sequence ≤ s then some entry.2 else none) := by
  unfold visibleIn
  rw [if_neg inside, if_neg inside, newest_append, newest_cons, if_pos rfl, newest_nil, keep_none]

/-- What the scan has established after reading the entries `done`: finished keys are in the
output, the current key's answer is selected. -/
structure ScanInv (start : Bytes) (stop : Option Bytes) (s : Nat) (done : List Entry)
    (state : ScanState) : Prop where
  selected : state.selected = visibleIn done start stop s state.currentKey
  bound : ∀ e ∈ done, ¬ outside start stop e.1 → e.1 ≤ state.currentKey
  current : state.currentKey = [] ∨ ∃ e ∈ done, e.1 = state.currentKey
  sorted : state.output.Pairwise fun a b => a.1 < b.1
  mem : ∀ k v, (k, v) ∈ state.output ↔
    k < state.currentKey ∧ (visibleIn done start stop s k).bind (·.value) = some v

omit [Platform] in
/-- Beyond the current key nothing has been seen. -/
theorem ScanInv.beyond (inv : ScanInv start stop s done state) {k : Bytes}
    (beyond : state.currentKey < k) : visibleIn done start stop s k = none := by
  unfold visibleIn
  split
  · rfl
  · rename_i inside
    apply newest_eq_none_of_ne _
    rintro e member rfl
    exact absurd (inv.bound e member inside) (not_le.mpr beyond)

omit [Platform] in
theorem ScanInv.mem_flush (inv : ScanInv start stop s done state) (k v : Bytes) :
    (k, v) ∈ state.flush ↔ (visibleIn done start stop s k).bind (·.value) = some v := by
  unfold ScanState.flush
  rw [inv.selected]
  rcases lt_trichotomy k state.currentKey with less | same | greater
  · cases live : (visibleIn done start stop s state.currentKey).bind (·.value) with
    | none => simp [inv.mem, less]
    | some value =>
      have different : k ≠ state.currentKey := ne_of_lt less
      simp [inv.mem, less, different]
  · subst same
    cases live : (visibleIn done start stop s state.currentKey).bind (·.value) with
    | none => simp [inv.mem]
    | some value => simp [inv.mem, eq_comm]
  · have notLess : ¬ k < state.currentKey := not_lt.mpr (le_of_lt greater)
    have different : k ≠ state.currentKey := ne_of_gt greater
    cases live : (visibleIn done start stop s state.currentKey).bind (·.value) with
    | none => simp [inv.mem, notLess, inv.beyond greater]
    | some value => simp [inv.mem, notLess, different, inv.beyond greater]

omit [Platform] in
theorem ScanInv.sorted_flush (inv : ScanInv start stop s done state) :
    state.flush.Pairwise fun a b => a.1 < b.1 := by
  unfold ScanState.flush
  split
  · apply List.pairwise_append.mpr
    refine ⟨inv.sorted, List.pairwise_singleton _ _, ?_⟩
    rintro ⟨k, v⟩ member b isLast
    rw [List.mem_singleton] at isLast
    rw [isLast]
    exact ((inv.mem k v).mp member).1
  · exact inv.sorted

omit [Platform] in
theorem ScanInv.step (inv : ScanInv start stop s done state)
    (order : ∀ e ∈ done, e.1 ≤ entry.1) :
    ScanInv start stop s (done ++ [entry]) (visitEntry (collectScan start stop s) state entry) := by
  by_cases out : outside start stop entry.1
  · have same : visitEntry (collectScan start stop s) state entry = state := if_pos out
    rw [same]
    exact
      { selected := by rw [visibleIn_append_outside out]; exact inv.selected
        bound := by
          intro e member inside
          rcases List.mem_append.mp member with old | new
          · exact inv.bound e old inside
          · rw [List.mem_singleton] at new
            exact absurd out (new ▸ inside)
        current := inv.current.imp_right fun ⟨e, member, key⟩ =>
          ⟨e, List.mem_append_left _ member, key⟩
        sorted := inv.sorted
        mem := by
          intro k v
          rw [visibleIn_append_outside out]
          exact inv.mem k v }
  · have currentLe : state.currentKey ≤ entry.1 := by
      rcases inv.current with empty | ⟨e, member, key⟩
      · rw [empty]
        exact List.nil_le _
      · rw [← key]
        exact order e member
    -- the state after a possible change of key
    let moved : ScanState :=
      if state.currentKey ≠ entry.1 then ⟨state.flush, entry.1, none⟩ else state
    have movedKey : moved.currentKey = entry.1 := by
      simp only [moved]
      split
      · rfl
      · rename_i same
        exact not_not.mp same
    have movedSelected : moved.selected = visibleIn done start stop s entry.1 := by
      simp only [moved]
      split
      · rename_i different
        exact (inv.beyond (lt_of_le_of_ne currentLe different)).symm
      · rename_i same
        rw [← not_not.mp same]
        exact inv.selected
    have movedSorted : moved.output.Pairwise fun a b => a.1 < b.1 := by
      simp only [moved]
      split
      · exact inv.sorted_flush
      · exact inv.sorted
    have movedMem : ∀ k v, (k, v) ∈ moved.output ↔
        k < entry.1 ∧ (visibleIn done start stop s k).bind (·.value) = some v := by
      intro k v
      simp only [moved]
      split
      · rename_i different
        have less := lt_of_le_of_ne currentLe different
        dsimp only
        rw [inv.mem_flush]
        constructor
        · intro live
          refine ⟨?_, live⟩
          by_contra notLess
          rw [inv.beyond (lt_of_lt_of_le less (not_lt.mp notLess))] at live
          cases live
        · exact fun h => h.2
      · rename_i same
        rw [← not_not.mp same]
        exact inv.mem k v
    have result : visitEntry (collectScan start stop s) state entry =
        ⟨moved.output, moved.currentKey,
          keep moved.selected (if entry.2.sequence ≤ s then some entry.2 else none)⟩ := by
      simp only [visitEntry, collectScan, if_neg out]
      change (if entry.2.sequence ≤ s ∧
        moved.selected.all (fun version => entry.2.sequence > version.sequence) then
          ⟨moved.output, moved.currentKey, some entry.2⟩ else moved) = _
      clear_value moved
      obtain ⟨output, currentKey, selected⟩ := moved
      by_cases visible : entry.2.sequence ≤ s
      · cases selected with
        | none => simp [visible]
        | some old =>
          by_cases newer : old.sequence < entry.2.sequence
          · simp [visible, newer, keep]
          · simp [visible, newer, keep]
      · simp [visible]
    rw [result]
    exact
      { selected := by
          dsimp only
          rw [movedKey, movedSelected, visibleIn_append_self out]
        bound := by
          intro e member inside
          dsimp only
          rw [movedKey]
          rcases List.mem_append.mp member with old | new
          · exact order e old
          · rw [List.mem_singleton] at new
            rw [new]
        current := .inr ⟨entry, by simp, movedKey.symm⟩
        sorted := movedSorted
        mem := by
          intro k v
          dsimp only
          rw [movedKey, movedMem]
          constructor
          · rintro ⟨less, live⟩
            exact ⟨less, by rw [visibleIn_append_of_ne (ne_of_gt less)]; exact live⟩
          · rintro ⟨less, live⟩
            exact ⟨less, by rw [visibleIn_append_of_ne (ne_of_gt less)] at live; exact live⟩ }

omit [Platform] in
theorem ScanInv.run (inv : ScanInv start stop s done state) {rest : List Entry}
    (sorted : (done ++ rest).Pairwise Entry.Before) :
    ScanInv start stop s (done ++ rest) (rest.foldl (visitEntry (collectScan start stop s)) state) := by
  induction rest generalizing done state with
  | nil => simpa using inv
  | cons entry rest ih =>
    have order : ∀ e ∈ done, e.1 ≤ entry.1 := fun e member =>
      key_le_of_sorted sorted member List.mem_cons_self
    have next := ih (inv.step order) (by simpa using sorted)
    simpa using next

end ScanState

omit [Platform] in
theorem blind_collectScan (start : Bytes) (stop : Option Bytes) (s : Nat) :
    Blind (collectScan start stop s) := fun _ _ _ _ => rfl

omit [Platform] in
theorem collectScan_outside {start : Bytes} {stop : Option Bytes} (entry : Entry)
    (out : outside start stop entry.1) (state : ScanState) :
    visitEntry (collectScan start stop s) state entry = state := if_pos out

omit [Platform] in
/-- The start of a scan: no key is current, and no key is empty. -/
theorem scanInv_start (start : Bytes) (stop : Option Bytes) (s : Nat) :
    ScanInv start stop s [] ⟨[], [], none⟩ :=
  { selected := by simp [visibleIn]
    bound := by simp
    current := .inl rfl
    sorted := List.Pairwise.nil
    mem := by simp [visibleIn] }

/-- The scan of a segment lists the live answers of its range. -/
theorem Holds.scan (holds : segment.Holds entries) (start : Bytes) (stop : Option Bytes) (s : Nat) :
    ∃ pairs, segment.scan start stop s = .ok pairs ∧
      IsGraph pairs (fun k => (visibleIn entries start stop s k).bind (·.value)) := by
  have readable := holds.readable
  have sorted := holds.sorted
  have storage := holds.storage
  unfold SegmentStorage.Holds at storage
  unfold Segment.scan
  cases form : segment.storage with
  | legacy records sparse =>
    obtain ⟨pairs, found, graph⟩ := holds.visibleFrom start stop s
    dsimp only
    rw [found, except_ok_bind]
    exact ⟨_, rfl, graph.filterMap _⟩
  | blocked source blocks =>
    rw [form] at storage
    obtain ⟨groups, rfl, held⟩ := storage
    obtain ⟨held', below⟩ := skipped_blocks held sorted start
    dsimp only at held' below ⊢
    generalize partitionPoint (fun block : BlockDescriptor => block.lastKey < start) blocks = n at *
    have split := flatten_take_drop groups n
    have readable' := readable
    have sorted' := sorted
    rw [split] at readable' sorted'
    rw [visitBlocks_spec (blind_collectScan start stop s) collectScan_outside held'
      readable'.append.2 (List.pairwise_append.mp sorted').2.1, except_ok_bind]
    have whole : (groups.drop n).flatten.foldl (visitEntry (collectScan start stop s)) ⟨[], [], none⟩ =
        groups.flatten.foldl (visitEntry (collectScan start stop s)) ⟨[], [], none⟩ := by
      conv_rhs => rw [split, List.foldl_append]
      rw [foldl_ignored fun e h => collectScan_outside e (.inl (below e h))]
    have ordered : ([] ++ groups.flatten).Pairwise Entry.Before := sorted
    have inv := (scanInv_start start stop s).run ordered
    rw [List.nil_append] at inv
    rw [whole]
    exact ⟨_, rfl, inv.sorted_flush, inv.mem_flush⟩

/-! ## The full traversal -/

/-- The entries of a list of version groups. -/
def ungroup (groups : List (Bytes × List VersionedValue)) : List Entry :=
  groups.flatMap fun (key, versions) => versions.map fun version => (key, version)

/-- The groups that the full traversal has collected from `done`. -/
structure GroupInv (done : List Entry) (groups : List (Bytes × List VersionedValue)) : Prop where
  content : ungroup groups = done
  sorted : groups.Pairwise fun a b => a.1 < b.1
  nonempty : ∀ group ∈ groups, group.2 ≠ []

omit [Platform] in
theorem GroupInv.step {done : List Entry} {groups : List (Bytes × List VersionedValue)}
    {entry : Entry} (inv : GroupInv done groups) (order : ∀ e ∈ done, e.1 ≤ entry.1) :
    GroupInv (done ++ [entry]) (visitEntry collectGroup groups entry) := by
  have single : ∀ key version, ungroup [(key, [version])] = [(key, version)] := by
    intro key version
    rfl
  have appended : ∀ xs ys, ungroup (xs ++ ys) = ungroup xs ++ ungroup ys := by
    intro xs ys
    simp [ungroup]
  unfold visitEntry collectGroup
  cases lastIs : groups.getLast? with
  | none =>
    have empty : groups = [] := List.getLast?_eq_none_iff.mp lastIs
    subst empty
    refine ⟨?_, List.pairwise_singleton _ _, by simp⟩
    rw [← inv.content]
    rfl
  | some last =>
    obtain ⟨key, versions⟩ := last
    obtain ⟨front, rfl⟩ := List.getLast?_eq_some_iff.mp lastIs
    obtain ⟨sortedFront, -, before⟩ := List.pairwise_append.mp inv.sorted
    dsimp only
    by_cases same : key = entry.1
    · rw [if_pos same, List.dropLast_concat]
      refine ⟨?_, ?_, ?_⟩
      · rw [← inv.content, appended, appended]
        simp [ungroup, same]
      · apply List.pairwise_append.mpr
        refine ⟨sortedFront, List.pairwise_singleton _ _, ?_⟩
        intro a member b isLast
        rw [List.mem_singleton] at isLast
        rw [isLast]
        exact before a member (key, versions) (by simp)
      · intro group member
        rcases List.mem_append.mp member with old | new
        · exact inv.nonempty group (List.mem_append_left _ old)
        · rw [List.mem_singleton] at new
          rw [new]
          simp
    · rw [if_neg same]
      have keyLess : key < entry.1 := by
        have notEmpty := inv.nonempty (key, versions) (by simp)
        obtain ⟨version, rest, versionsAre⟩ := List.exists_cons_of_ne_nil notEmpty
        have member : (key, version) ∈ done := by
          rw [← inv.content, appended]
          apply List.mem_append_right
          simp only [ungroup, List.flatMap_cons, List.flatMap_nil, List.append_nil, List.mem_map]
          dsimp only at versionsAre
          exact ⟨version, by rw [versionsAre]; exact List.mem_cons_self, rfl⟩
        exact lt_of_le_of_ne (order _ member) same
      refine ⟨?_, ?_, ?_⟩
      · rw [appended, inv.content, single]
      · apply List.pairwise_append.mpr
        refine ⟨inv.sorted, List.pairwise_singleton _ _, ?_⟩
        intro a member b isLast
        rw [List.mem_singleton] at isLast
        rw [isLast]
        rcases List.mem_append.mp member with inFront | isKey
        · exact lt_trans (before a inFront (key, versions) (by simp)) keyLess
        · rw [List.mem_singleton] at isKey
          rw [isKey]
          exact keyLess
      · intro group member
        rcases List.mem_append.mp member with old | new
        · exact inv.nonempty group old
        · rw [List.mem_singleton] at new
          rw [new]
          simp

omit [Platform] in
theorem GroupInv.run {done rest : List Entry} {groups : List (Bytes × List VersionedValue)}
    (inv : GroupInv done groups) (sorted : (done ++ rest).Pairwise Entry.Before) :
    GroupInv (done ++ rest) (rest.foldl (visitEntry collectGroup) groups) := by
  induction rest generalizing done groups with
  | nil => simpa using inv
  | cons entry rest ih =>
    have order : ∀ e ∈ done, e.1 ≤ entry.1 := fun e member =>
      key_le_of_sorted sorted member List.mem_cons_self
    have next := ih (inv.step order) (by simpa using sorted)
    simpa using next

/-- The full traversal groups the entries of a segment by key. -/
theorem Holds.allVersions (holds : segment.Holds entries) :
    ∃ groups, segment.allVersions = .ok groups ∧ GroupInv entries groups := by
  have blind : Blind collectGroup := fun _ _ _ _ => rfl
  have inv : GroupInv entries (entries.foldl (visitEntry collectGroup) []) := by
    have start : GroupInv [] [] := ⟨rfl, List.Pairwise.nil, by simp⟩
    have ordered : ([] ++ entries).Pairwise Entry.Before := holds.sorted
    have run := start.run ordered
    simpa using run
  refine ⟨_, ?_, inv⟩
  have readable := holds.readable
  have storage := holds.storage
  unfold SegmentStorage.Holds at storage
  unfold Segment.allVersions Segment.forEachRecord
  cases form : segment.storage with
  | legacy records sparse =>
    rw [form] at storage
    obtain ⟨rfl, -⟩ := storage
    have visited := visitRecords_spec [] ((recordsOf entries).length) [] blind rfl readable (length_le_recordsOf entries)
    rw [List.nil_append, List.length_nil] at visited
    exact visited
  | blocked source blocks =>
    rw [form] at storage
    obtain ⟨groups, rfl, held⟩ := storage
    exact visitAllBlocks_spec blind held readable

end Segment

/-- The entries of a segment, as its full traversal returns them. -/
def Segment.entries [Platform] (segment : Segment) : List Entry :=
  match segment.allVersions with
  | .ok groups => Segment.ungroup groups
  | .error _ => []

theorem Segment.Holds.entries_eq [Platform] {segment : Segment} {entries : List Entry}
    (holds : segment.Holds entries) : segment.entries = entries := by
  obtain ⟨groups, all, inv⟩ := holds.allVersions
  rw [Segment.entries, all]
  exact inv.content

end Vyrm.Kv
