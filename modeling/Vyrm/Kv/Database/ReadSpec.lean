import Vyrm.Kv.Database.Read
import Vyrm.Kv.Memtable.Spec

/-!
# What the database reads return

The three read paths of a database in terms of one list of entries: those of the
segments in the order they are searched, and those of the memtable. Point reads,
batched point reads and scans return what `newest` says of that list, so they
agree with each other at every snapshot.
-/

namespace Vyrm.Kv
open Lib Mvcc

variable [Platform]

namespace Database

/-- All versions of a database, in the order they are searched. -/
def entries (db : Database) : List Entry :=
  db.segments.flatMap Segment.entries ++ db.memtable.flatVersions

/-- The value a read of `key` at `s` has to return. -/
def valueAt (entries : List Entry) (key : Bytes) (s : Nat) : Option Bytes :=
  (newest entries key s).bind (·.value)

/-- Segments that are faithful, none newer than the durable sequence. -/
structure Layers (segments : List Segment) (durable : Nat) : Prop where
  holds : ∀ segment ∈ segments, ∃ entries, segment.Holds entries
  bounded : ∀ segment ∈ segments, segment.descriptor.maximumSequence ≤ durable

/-- What the read paths rely on: faithful segments below a memtable. -/
structure Sound (db : Database) : Prop where
  layers : Layers db.segments db.manifest.durableSequence
  memtable : db.memtable.Over db.manifest.durableSequence

theorem Layers.cons {segment : Segment} {rest : List Segment} {durable : Nat}
    (layers : Layers (segment :: rest) durable) :
    segment.Holds segment.entries ∧ Layers rest durable := by
  refine ⟨?_, ⟨fun s h => layers.holds s (List.mem_cons_of_mem _ h),
    fun s h => layers.bounded s (List.mem_cons_of_mem _ h)⟩⟩
  obtain ⟨entries, holds⟩ := layers.holds segment List.mem_cons_self
  rw [holds.entries_eq]
  exact holds

theorem Layers.mem_bounds {segments : List Segment} {durable : Nat}
    (layers : Layers segments durable) {e : Entry} (member : e ∈ segments.flatMap Segment.entries) :
    1 ≤ e.2.sequence ∧ e.2.sequence ≤ durable := by
  obtain ⟨segment, inSegments, inSegment⟩ := List.mem_flatMap.mp member
  obtain ⟨entries, holds⟩ := layers.holds segment inSegments
  rw [holds.entries_eq] at inSegment
  exact ⟨holds.positive.trans (holds.range.low e inSegment),
    (holds.range.high e inSegment).trans (layers.bounded segment inSegments)⟩

/-- A memtable answer is newer than every segment answer. -/
theorem Sound.newer {db : Database} (sound : db.Sound) (key : Bytes) :
    ∀ u ∈ versionsOf key (db.segments.flatMap Segment.entries),
      ∀ v ∈ versionsOf key db.memtable.flatVersions,
        Sequenced.sequence u < Sequenced.sequence v := by
  intro u hu v hv
  exact lt_of_le_of_lt (sound.layers.mem_bounds (mem_versionsOf.mp hu)).2
    (sound.memtable.entry_bounds (mem_versionsOf.mp hv)).1

/-! ## Point reads -/

/-- The sequence that the loops compare with: zero before anything was found. -/
def bestSequence (best : Option VersionedValue) : Nat := (best.map (·.sequence)).getD 0

omit [Platform] in
/-- The comparison of the loops keeps the newer version. -/
theorem keep_some_eq {best : Option VersionedValue} {version : VersionedValue}
    (positive : 1 ≤ version.sequence) :
    keep best (some version) =
      if version.sequence > bestSequence best then some version else best := by
  cases best with
  | none => simp [bestSequence, Nat.pos_of_ne_zero (Nat.ne_of_gt positive)]
  | some old => simp [keep, bestSequence]

omit [Platform] in
theorem newest_positive {entries : List Entry} {key : Bytes} {s : Nat} {version : VersionedValue}
    (positive : ∀ e ∈ entries, 1 ≤ e.2.sequence) (found : newest entries key s = some version) :
    1 ≤ version.sequence :=
  positive _ (mem_versionsOf.mp (select_isNewest found).mem)

theorem Segment.Holds.entry_positive {segment : Segment} {entries : List Entry}
    (holds : segment.Holds entries) : ∀ e ∈ entries, 1 ≤ e.2.sequence :=
  fun e h => holds.positive.trans (holds.range.low e h)

theorem bestOver_spec {segments : List Segment} {durable : Nat} (layers : Layers segments durable)
    (key : Bytes) (s : Nat) (best : Option VersionedValue) :
    bestOver key s segments (bestSequence best) (best.bind (·.value)) =
      .ok ((keep best (newest (segments.flatMap Segment.entries) key s)).bind (·.value)) := by
  induction segments generalizing best with
  | nil => simp [bestOver]
  | cons segment rest ih =>
    obtain ⟨holds, layers⟩ := layers.cons
    rw [bestOver, holds.getVersion, except_ok_bind, List.flatMap_cons, newest_append, ← keep_assoc]
    cases found : newest segment.entries key s with
    | none => rw [keep_none, ih layers]
    | some version =>
      have positive := newest_positive (Segment.Holds.entry_positive holds) found
      dsimp only
      rw [keep_some_eq positive]
      split
      · exact ih layers (some version)
      · exact ih layers best

/-- The point read of a database. -/
theorem Sound.get {db : Database} (sound : db.Sound) (key : Bytes) (s : Nat) :
    db.get key ⟨s⟩ = .ok (valueAt db.entries key s) := by
  rw [Database.get, sound.memtable.getVersion, valueAt, entries, newest_append]
  cases found : newest db.memtable.flatVersions key s with
  | none =>
    have searched := bestOver_spec sound.layers key s none
    rw [none_keep] at searched
    rw [keep_none]
    exact searched
  | some version =>
    have kept : keep (newest (db.segments.flatMap Segment.entries) key s)
        (newest db.memtable.flatVersions key s) = some version :=
      keep_eq_of_newer (sound.newer key) found
    rw [found] at kept
    rw [kept]
    rfl

/-! ## Batched point reads -/

section Many

variable {unresolved : List Nat} {values : List (Option Bytes)}

omit [Platform] in
theorem assignEach_set_comm {i : Nat} (fresh : i ∉ unresolved)
    (versions : List (Option SegmentVersion)) (value : Option Bytes) :
    (assignEach unresolved versions values).set i value =
      assignEach unresolved versions (values.set i value) := by
  induction unresolved generalizing versions values with
  | nil => rfl
  | cons j rest ih =>
    obtain ⟨different, fresh⟩ := not_or.mp (List.mem_cons.not.mp fresh)
    cases versions with
    | nil => rfl
    | cons version versions =>
      rw [assignEach, assignEach, ih fresh, List.set_comm _ _ (Ne.symm different)]

omit [Platform] in
theorem getElem?_assignEach (answer : Nat → Option SegmentVersion) (i : Nat) :
    (assignEach unresolved (unresolved.map answer) values)[i]? =
      if i ∈ unresolved ∧ i < values.length then some ((answer i).bind (·.value))
      else values[i]? := by
  induction unresolved generalizing values with
  | nil => simp [assignEach]
  | cons j rest ih =>
    rw [List.map_cons, assignEach, ih, List.length_set, List.getElem?_set]
    by_cases inRest : i ∈ rest ∧ i < values.length
    · rw [if_pos inRest, if_pos ⟨List.mem_cons_of_mem _ inRest.1, inRest.2⟩]
    · rw [if_neg inRest]
      by_cases same : j = i
      · subst same
        by_cases inside : j < values.length
        · simp [inside]
        · simp [inside]
      · have notThere : ¬ (i ∈ j :: rest ∧ i < values.length) := by
          rintro ⟨member, inside⟩
          rcases List.mem_cons.mp member with rfl | later
          · exact same rfl
          · exact inRest ⟨later, inside⟩
        rw [if_neg same, if_neg notThere]

omit [Platform] in
/-- Answers that are absent leave an absent value absent. -/
theorem assignEach_none (absent : ∀ i ∈ unresolved, values[i]? = some none) :
    assignEach unresolved (unresolved.map fun _ => none) values = values := by
  apply List.ext_getElem?
  intro i
  rw [getElem?_assignEach]
  split
  · rename_i member
    rw [absent i member.1]
    rfl
  · rfl

omit [Platform] in
/-- One segment's assignments keep the newer answer at every position. -/
theorem assignBest_spec (values : List (Option Bytes)) (nodup : unresolved.Nodup)
    (best found : Nat → Option SegmentVersion)
    (positive : ∀ i v, found i = some v → 1 ≤ v.sequence) :
    assignBest unresolved (unresolved.map found) (unresolved.map fun i => bestSequence (best i))
      (assignEach unresolved (unresolved.map best) values) =
      (unresolved.map fun i => bestSequence (keep (best i) (found i)),
        assignEach unresolved (unresolved.map fun i => keep (best i) (found i)) values) := by
  induction unresolved generalizing values with
  | nil => rfl
  | cons i rest ih =>
    obtain ⟨fresh, nodup⟩ := List.nodup_cons.mp nodup
    simp only [List.map_cons, assignBest, assignEach]
    cases answer : found i with
    | none =>
      rw [keep_none]
      dsimp only
      rw [ih _ nodup]
    | some version =>
      rw [keep_some_eq (positive i version answer)]
      dsimp only
      split
      · rw [assignEach_set_comm fresh, List.set_set, ih _ nodup]
        rfl
      · rw [ih _ nodup]

theorem bestOverMany_spec (values : List (Option Bytes)) {segments : List Segment} {durable : Nat}
    (layers : Layers segments durable) (nodup : unresolved.Nodup) (keyOf : Nat → Bytes) (s : Nat)
    (best : Nat → Option SegmentVersion) :
    bestOverMany (unresolved.map keyOf) unresolved s segments
      (unresolved.map fun i => bestSequence (best i))
      (assignEach unresolved (unresolved.map best) values) =
      .ok (assignEach unresolved (unresolved.map fun i =>
        keep (best i) (newest (segments.flatMap Segment.entries) (keyOf i) s)) values) := by
  induction segments generalizing best with
  | nil => simp [bestOverMany]
  | cons segment rest ih =>
    obtain ⟨holds, layers⟩ := layers.cons
    rw [bestOverMany, holds.getVersions, except_ok_bind, List.map_map]
    have assigned := assignBest_spec values nodup best
      (fun i => newest segment.entries (keyOf i) s)
      (fun i v found => newest_positive (Segment.Holds.entry_positive holds) found)
    simp only [Function.comp_def]
    rw [assigned]
    dsimp only
    rw [ih layers]
    simp only [List.flatMap_cons, newest_append, keep_assoc]

end Many

/-- The batched point read of a database: the point read of each key. -/
theorem Sound.getMany {db : Database} (sound : db.Sound) (keys : List Bytes) (s : Nat) :
    db.getMany keys ⟨s⟩ = .ok (keys.map fun key => valueAt db.entries key s) := by
  unfold Database.getMany
  dsimp only
  generalize found_eq : keys.map (fun key => db.memtable.getVersion key s) = found
  generalize unresolved_eq : found.findIdxs (fun version => version.isNone) = unresolved
  have nodup : unresolved.Nodup := by rw [← unresolved_eq]; exact List.nodup_findIdxs
  have length : found.length = keys.length := by rw [← found_eq, List.length_map]
  have foundAt : ∀ i (inside : i < keys.length),
      found[i]? = some (newest db.memtable.flatVersions (keys.get ⟨i, inside⟩) s) := by
    intro i inside
    rw [← found_eq, List.getElem?_map, List.getElem?_eq_getElem inside]
    simp [sound.memtable.getVersion]
  have isUnresolved : ∀ i, i ∈ unresolved ↔ found[i]? = some none := by
    intro i
    rw [← unresolved_eq, List.mem_findIdxs_iff_exists_getElem_pos]
    constructor
    · rintro ⟨inside, absent⟩
      rw [List.getElem?_eq_getElem inside, Option.isNone_iff_eq_none.mp absent]
    · intro absent
      obtain ⟨inside, value⟩ := List.getElem?_eq_some_iff.mp absent
      exact ⟨inside, by rw [value]; rfl⟩
  -- whatever the segments answer for the unresolved positions, this is the result
  have complete : assignEach unresolved (unresolved.map fun i =>
      newest (db.segments.flatMap Segment.entries) (keys.getD i []) s)
      (found.map fun version => version.bind (·.value)) =
      keys.map fun key => valueAt db.entries key s := by
    apply List.ext_getElem?
    intro i
    rw [getElem?_assignEach, List.length_map, length]
    by_cases inside : i < keys.length
    · have here := foundAt i inside
      have target : (keys.map fun key => valueAt db.entries key s)[i]? =
          some (valueAt db.entries (keys.get ⟨i, inside⟩) s) := by
        rw [List.getElem?_map, List.getElem?_eq_getElem inside]
        rfl
      rw [target]
      by_cases member : i ∈ unresolved
      · rw [if_pos ⟨member, inside⟩, Segment.getD_eq_get inside]
        have absent := (isUnresolved i).mp member
        rw [here, Option.some.injEq] at absent
        rw [valueAt, entries, newest_append, absent, keep_none]
      · rw [if_neg (fun h => member h.1), List.getElem?_map, here, Option.map_some]
        cases version_eq : newest db.memtable.flatVersions (keys.get ⟨i, inside⟩) s with
        | none =>
          rw [version_eq] at here
          exact absurd ((isUnresolved i).mpr here) member
        | some version =>
          have kept : keep (newest (db.segments.flatMap Segment.entries) _ s)
              (newest db.memtable.flatVersions _ s) = some version :=
            keep_eq_of_newer (sound.newer (keys.get ⟨i, inside⟩)) version_eq
          rw [valueAt, entries, newest_append, kept]
    · rw [if_neg (fun h => inside h.2), List.getElem?_eq_none (by rw [List.length_map, length]; omega),
        List.getElem?_eq_none (by rw [List.length_map]; omega)]
  by_cases none_ : unresolved = []
  · rw [if_pos none_]
    rw [none_] at complete
    rw [← complete]
    rfl
  · rw [if_neg none_]
    have merged : bestOverMany (unresolved.map fun index => keys.getD index []) unresolved s
        db.segments (List.replicate unresolved.length 0)
        (found.map fun version => version.bind (·.value)) =
        .ok (keys.map fun key => valueAt db.entries key s) := by
      have absent : ∀ i ∈ unresolved,
          (found.map fun version => version.bind (·.value))[i]? = some none := by
        intro i member
        rw [List.getElem?_map, (isUnresolved i).mp member]
        rfl
      have run := bestOverMany_spec (found.map fun version => version.bind (·.value))
        sound.layers nodup (fun index => keys.getD index []) s (fun _ => none)
      rw [assignEach_none absent] at run
      have zeros : (unresolved.map fun _ => bestSequence none) =
          List.replicate unresolved.length 0 := by simp [bestSequence]
      simp only [none_keep] at run
      rw [zeros, complete] at run
      exact run
    split
    · rename_i segment single
      split
      · rename_i empty
        have holds := (Layers.cons (single ▸ sound.layers)).1
        rw [holds.getVersions, except_ok_bind, List.map_map]
        have onlySegment : db.segments.flatMap Segment.entries = segment.entries := by
          rw [single]
          simp
        rw [onlySegment] at complete
        simp only [Function.comp_def]
        rw [complete]
        rfl
      · exact merged
    · exact merged

/-! ## Scans -/

omit [Platform] in
theorem getElem?_insertNewer (visible : Std.TreeMap Bytes VersionedValue) (key : Bytes)
    (version : VersionedValue) (k : Bytes) :
    (insertNewer visible (key, version))[k]? =
      if key = k then keep visible[k]? (some version) else visible[k]? := by
  unfold insertNewer
  by_cases same : key = k
  · subst same
    rw [if_pos rfl]
    cases stored : visible[key]? with
    | none => simp
    | some old =>
      by_cases newer : old.sequence < version.sequence
      · simp [keep, newer]
      · simp [keep, newer, stored]
  · rw [if_neg same]
    split
    · rw [getElem?_insert_eq, if_neg same]
    · rfl

omit [Platform] in
/-- Merging a range read into a map keeps the newer answer of every key. -/
theorem foldl_insertNewer {pairs : List (Bytes × VersionedValue)}
    {answer : Bytes → Option VersionedValue} (graph : IsGraph pairs answer)
    (visible : Std.TreeMap Bytes VersionedValue) (k : Bytes) :
    (pairs.foldl insertNewer visible)[k]? = keep visible[k]? (answer k) := by
  have fold : ∀ (pairs : List (Bytes × VersionedValue)) (visible : Std.TreeMap Bytes VersionedValue),
      pairs.Pairwise (fun a b => a.1 < b.1) →
      (∀ v, (k, v) ∈ pairs → (pairs.foldl insertNewer visible)[k]? = keep visible[k]? (some v)) ∧
      ((∀ v, (k, v) ∉ pairs) → (pairs.foldl insertNewer visible)[k]? = visible[k]?) := by
    intro pairs
    induction pairs with
    | nil => exact fun _ _ => ⟨fun _ h => (List.not_mem_nil h).elim, fun _ => rfl⟩
    | cons pair rest ih =>
      intro visible sorted
      obtain ⟨key, version⟩ := pair
      obtain ⟨before, sorted⟩ := List.pairwise_cons.mp sorted
      obtain ⟨present, absent⟩ := ih (insertNewer visible (key, version)) sorted
      rw [getElem?_insertNewer] at present absent
      constructor
      · intro v member
        rcases List.mem_cons.mp member with first | later
        · cases first
          have missing : ∀ v, (k, v) ∉ rest := fun _ h => absurd (before _ h) (lt_irrefl _)
          rw [List.foldl_cons, absent missing, if_pos rfl]
        · rw [List.foldl_cons, present v later, if_neg (ne_of_lt (before _ later))]
      · intro missing
        have different : key ≠ k := by
          rintro rfl
          exact missing version List.mem_cons_self
        rw [List.foldl_cons, absent fun v h => missing v (List.mem_cons_of_mem _ h),
          if_neg different]
  obtain ⟨present, absent⟩ := fold pairs visible graph.sorted
  cases found : answer k with
  | none =>
    rw [keep_none]
    exact absent fun v h => by rw [(graph.mem k v).mp h] at found; cases found
  | some v => exact present v ((graph.mem k v).mpr found)

theorem scanSegments_spec {segments : List Segment} {durable : Nat}
    (layers : Layers segments durable) (start : Bytes) (stop : Option Bytes) (s : Nat)
    (visible : Std.TreeMap Bytes VersionedValue) :
    ∃ visible', scanSegments start stop s segments visible = .ok visible' ∧
      ∀ k, visible'[k]? = keep visible[k]?
        (Segment.visibleIn (segments.flatMap Segment.entries) start stop s k) := by
  induction segments generalizing visible with
  | nil => exact ⟨visible, rfl, by simp [Segment.visibleIn]⟩
  | cons segment rest ih =>
    obtain ⟨holds, layers⟩ := layers.cons
    obtain ⟨pairs, read, graph⟩ := holds.visibleFrom start stop s
    obtain ⟨visible', run, answers⟩ := ih layers (pairs.foldl insertNewer visible)
    refine ⟨visible', ?_, ?_⟩
    · rw [scanSegments, read, except_ok_bind, run]
    · intro k
      rw [answers, foldl_insertNewer graph, keep_assoc]
      unfold Segment.visibleIn
      split
      · simp
      · rw [List.flatMap_cons, newest_append]

theorem Sound.scanMerged {db : Database} (sound : db.Sound) (start : Bytes) (stop : Option Bytes)
    (s : Nat) :
    ∃ pairs, db.scanMerged start stop ⟨s⟩ = .ok pairs ∧
      IsGraph pairs (fun k => (Segment.visibleIn db.entries start stop s k).bind (·.value)) := by
  obtain ⟨visible, run, answers⟩ := scanSegments_spec sound.layers start stop s ∅
  unfold Database.scanMerged
  dsimp only
  rw [run, except_ok_bind]
  refine ⟨_, rfl, ?_⟩
  have overlay := (sound.memtable.visibleVersions s).filter
    fun key => decide (¬ Segment.outside start stop key)
  have merged := foldl_insertNewer overlay visible
  have listed := (isGraph_toList (((db.memtable.visibleVersions s).filter fun pair =>
    decide (¬ Segment.outside start stop pair.1)).foldl insertNewer visible)).filterMap (·.value)
  have all : ∀ k, (((db.memtable.visibleVersions s).filter fun pair =>
      decide (¬ Segment.outside start stop pair.1)).foldl insertNewer visible)[k]? =
      Segment.visibleIn db.entries start stop s k := by
    intro k
    rw [merged, answers]
    unfold Segment.visibleIn
    by_cases out : Segment.outside start stop k
    · simp [out]
    · simp [out, entries, newest_append]
  simp only [all] at listed
  exact listed

/-- The scan of a database: the live answers of the point read in the range, in key order. -/
theorem Sound.scan {db : Database} (sound : db.Sound) (start : Bytes) (stop : Option Bytes)
    (s : Nat) :
    ∃ pairs, db.scan start stop ⟨s⟩ = .ok pairs ∧
      IsGraph pairs (fun k => (Segment.visibleIn db.entries start stop s k).bind (·.value)) := by
  unfold Database.scan
  split
  · rename_i segment single
    split
    · rename_i empty
      have holds := (Layers.cons (single ▸ sound.layers)).1
      have only : db.entries = segment.entries := by
        rw [entries, single, (Memtable.flatVersions_eq_nil_iff _).mpr empty]
        simp
      rw [only]
      exact holds.scan start stop s
    · exact sound.scanMerged start stop s
  · exact sound.scanMerged start stop s

end Database
end Vyrm.Kv
