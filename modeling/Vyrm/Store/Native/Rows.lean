import Vyrm.Kv.Database.History
import Vyrm.Store.Native.View

/-!
# The rows of a database

What a history of mutations leaves is a map of rows, and the map is all that a reader of
the database sees: `get` and `scan` at the newest snapshot of a database of `vyrm-kv`
answer as the map of its history does.
-/

namespace Vyrm.Store
open Lib Mvcc

/-- The rows of a database, each under its key. -/
abbrev Rows := OrdMap Bytes Bytes

namespace Rows

def apply (rows : Rows) : Kv.Mutation → Rows
  | .put key value => rows.insert key value
  | .delete key => rows.erase key

/-- The rows that a history leaves. -/
def ofHistory (operations : List Kv.Mutation) : Rows := operations.foldl apply ∅

theorem ofHistory_append (operations more : List Kv.Mutation) :
    ofHistory (operations ++ more) = more.foldl apply (ofHistory operations) := List.foldl_append

theorem getElem?_apply (rows : Rows) (operation : Kv.Mutation) (key : Bytes) :
    (rows.apply operation)[key]? = if operation.key = key then operation.value else rows[key]? := by
  cases operation with
  | put other value =>
    by_cases same : other = key
    · subst same
      simp [apply, Kv.Mutation.key, Kv.Mutation.value]
    · rw [apply, OrdMap.getElem?_insert_of_ne same, Kv.Mutation.key, if_neg same]
  | delete other =>
    by_cases same : other = key
    · subst same
      simp [apply, Kv.Mutation.key, Kv.Mutation.value]
    · simp [apply, Kv.Mutation.key, Std.ExtTreeMap.getElem?_erase, same]

/-- The rows say what reading the history says. -/
theorem getElem?_ofHistory (operations : List Kv.Mutation) (key : Bytes) :
    (ofHistory operations)[key]? = Kv.History.read operations key operations.length := by
  rw [Kv.History.read, List.take_length]
  induction operations using List.reverseRecOn with
  | nil => rfl
  | append_singleton operations operation ih =>
    rw [ofHistory_append]
    show ((ofHistory operations).apply operation)[key]? = _
    rw [getElem?_apply, List.filter_append]
    by_cases same : operation.key = key
    · simp [same]
    · simp [same, ih]

/-- A key that no mutation names keeps its value. -/
theorem getElem?_foldl_of_notMem (rows : Rows) {operations : List Kv.Mutation} {key : Bytes}
    (other : ∀ operation ∈ operations, operation.key ≠ key) :
    (operations.foldl apply rows)[key]? = rows[key]? := by
  induction operations generalizing rows with
  | nil => rfl
  | cons operation rest ih =>
    rw [List.foldl_cons, ih _ fun later member => other later (List.mem_cons_of_mem _ member), getElem?_apply,
      if_neg (other operation List.mem_cons_self)]

theorem getElem?_foldl_deletes (rows : Rows) (keys : List Bytes) (key : Bytes) :
    ((keys.map Kv.Mutation.delete).foldl apply rows)[key]? = if key ∈ keys then none else rows[key]? := by
  induction keys generalizing rows with
  | nil => simp
  | cons first rest ih =>
    rw [List.map_cons, List.foldl_cons, ih, getElem?_apply]
    by_cases later : key ∈ rest
    · simp [later]
    · by_cases same : first = key
      · simp [same, Kv.Mutation.key, Kv.Mutation.value]
      · simp [later, same, Kv.Mutation.key, Ne.symm same]

/-- Puts under different keys are all there, beside what was there under other keys. -/
theorem getElem?_foldl_puts {α : Type} {key value : α → Bytes} (rows : Rows) {items : List α}
    (distinct : (items.map key).Nodup) (k v : Bytes) :
    ((items.map fun item => Kv.Mutation.put (key item) (value item)).foldl apply rows)[k]? = some v ↔
      (∃ item ∈ items, key item = k ∧ value item = v) ∨ (∀ item ∈ items, key item ≠ k) ∧ rows[k]? = some v := by
  induction items generalizing rows with
  | nil => simp
  | cons item rest ih =>
    obtain ⟨fresh, distinct⟩ := List.nodup_cons.mp distinct
    rw [List.map_cons, List.foldl_cons, ih _ distinct, getElem?_apply, Kv.Mutation.key, Kv.Mutation.value]
    by_cases same : key item = k
    · subst same
      have apart : ∀ other ∈ rest, key other ≠ key item := fun other member equal =>
        fresh (List.mem_map.mpr ⟨other, member, equal⟩)
      simp only [if_pos, List.mem_cons, exists_eq_or_imp, forall_eq_or_imp, true_and]
      constructor
      · rintro (⟨other, member, equal, -⟩ | ⟨-, found⟩)
        · exact absurd equal (apart other member)
        · exact .inl (.inl (Option.some.inj found))
      · rintro ((found | ⟨other, member, equal, -⟩) | ⟨⟨different, -⟩, -⟩)
        · exact .inr ⟨apart, congrArg some found⟩
        · exact absurd equal (apart other member)
        · exact absurd rfl different
    · simp [same]

/-- Rows that are put under different keys are all there, and no others. -/
theorem getElem?_ofPuts {α : Type} {key value : α → Bytes} {items : List α}
    (distinct : (items.map key).Nodup) (k v : Bytes) :
    (ofHistory (items.map fun item => .put (key item) (value item)))[k]? = some v ↔
      ∃ item ∈ items, key item = k ∧ value item = v := by
  rw [ofHistory, getElem?_foldl_puts ∅ distinct]
  simp

/-- What a database with these rows answers. -/
def view (rows : Rows) : View where
  get key := .ok rows[key]?
  scan start stop := .ok (rows.range start stop)

section Records

variable [Kv.Platform] {files : FaultFs.Files Kv.Path} {db : Kv.Database} {stored : List Kv.Segment}
  {pending : List Kv.WriteBatch} {operations : List Kv.Mutation}

/-- A point read at the newest snapshot answers from the rows of the history. -/
theorem view_get (records : Kv.Records files db stored pending operations) (key : Bytes) :
    db.get key db.snapshot = (ofHistory operations).view.get key := by
  rw [records.get, Kv.Database.snapshot, records.length]
  exact congrArg Except.ok (getElem?_ofHistory _ _).symm

/-- A scan at the newest snapshot answers from the rows of the history. -/
theorem view_scan (records : Kv.Records files db stored pending operations) (start : Bytes)
    (stop : Option Bytes) : db.scan start stop db.snapshot = (ofHistory operations).view.scan start stop := by
  classical
  obtain ⟨pairs, scanned, graph⟩ := records.live.sound.scan start stop db.memtable.maximumSequence
  have answers : (fun key => (Kv.Segment.visibleIn db.entries start stop db.memtable.maximumSequence key).bind
      (·.value)) = fun key => if OrdMap.Within start stop key then (ofHistory operations)[key]? else none := by
    funext key
    have point : Kv.Database.valueAt db.entries key db.memtable.maximumSequence = (ofHistory operations)[key]? := by
      have read := view_get records key
      rw [Kv.Database.snapshot, records.live.sound.get] at read
      exact Except.ok.inj read
    have inside : Kv.Segment.outside start stop key ↔ ¬ OrdMap.Within start stop key := by
      simp only [Kv.Segment.outside, OrdMap.Within]
      grind
    by_cases outside : Kv.Segment.outside start stop key
    · simp [Kv.Segment.visibleIn, outside, inside.mp outside]
    · rw [Kv.Segment.visibleIn, if_neg outside, if_pos (not_not.mp (mt inside.mpr outside))]
      exact point
  rw [answers] at graph
  rw [Kv.Database.snapshot, scanned, view]
  exact congrArg Except.ok (graph.unique (OrdMap.isGraph_range _ start stop))

end Records

end Rows

end Vyrm.Store
