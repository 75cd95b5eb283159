import Vyrm.Core.Runtime.Preview
import Vyrm.Lib.Delta

/-!
# Differences of graphs

`diff` of `crates/vyrm-core/src/runtime.rs`: what was added, removed and changed between two graph
snapshots, record by record and relation by relation, and what it takes to get from one to the other.
-/

namespace Vyrm.Core
open Lib

/-- `RuntimeRecordChange` (`runtime.rs:1206-1210`). -/
structure RuntimeRecordChange where
  before : RuntimeRecord
  after : RuntimeRecord
  deriving DecidableEq

/-- `RuntimeRelationChange` (`runtime.rs:1212-1216`). -/
structure RuntimeRelationChange where
  before : RuntimeRelation
  after : RuntimeRelation
  deriving DecidableEq

/-- `RuntimeGraphDiff` (`runtime.rs:1218-1229`). -/
structure RuntimeGraphDiff where
  fromCursor : UInt64
  toCursor : UInt64
  addedRecords : List RuntimeRecord
  removedRecords : List RuntimeRecord
  changedRecords : List RuntimeRecordChange
  addedRelations : List RuntimeRelation
  removedRelations : List RuntimeRelation
  changedRelations : List RuntimeRelationChange
  deriving DecidableEq

namespace RuntimeGraphSnapshot

/-- The records of a snapshot by identity. -/
def recordMap (snapshot : RuntimeGraphSnapshot) : OrdMap RuntimeRef RuntimeRecord :=
  OrdMap.insertAll RuntimeRecord.reference ∅ snapshot.records

/-- The relations of a snapshot by identity. -/
def relationMap (snapshot : RuntimeGraphSnapshot) : OrdMap RuntimeRef RuntimeRelation :=
  OrdMap.insertAll RuntimeRelation.reference ∅ snapshot.relations

/-- `diff` (`runtime.rs:1361-1427`). -/
def diff (snapshot newer : RuntimeGraphSnapshot) : RuntimeGraphDiff :=
  let beforeRecords := snapshot.recordMap
  let afterRecords := newer.recordMap
  let beforeRelations := snapshot.relationMap
  let afterRelations := newer.relationMap
  { fromCursor := snapshot.knownAtCursor
    toCursor := newer.knownAtCursor
    addedRecords := OrdMap.missing beforeRecords afterRecords
    removedRecords := OrdMap.missing afterRecords beforeRecords
    changedRecords := (OrdMap.changed beforeRecords afterRecords).map fun pair => ⟨pair.1, pair.2⟩
    addedRelations := OrdMap.missing beforeRelations afterRelations
    removedRelations := OrdMap.missing afterRelations beforeRelations
    changedRelations := (OrdMap.changed beforeRelations afterRelations).map fun pair => ⟨pair.1, pair.2⟩ }

end RuntimeGraphSnapshot

namespace RuntimeGraphDiff

/-- The records after a difference. -/
def applyRecords (diff : RuntimeGraphDiff) (records : OrdMap RuntimeRef RuntimeRecord) :
    OrdMap RuntimeRef RuntimeRecord :=
  OrdMap.patch RuntimeRecord.reference records diff.removedRecords diff.addedRecords
    (diff.changedRecords.map (·.after))

/-- The relations after a difference. -/
def applyRelations (diff : RuntimeGraphDiff) (relations : OrdMap RuntimeRef RuntimeRelation) :
    OrdMap RuntimeRef RuntimeRelation :=
  OrdMap.patch RuntimeRelation.reference relations diff.removedRelations diff.addedRelations
    (diff.changedRelations.map (·.after))

/-- Nothing was added, removed or changed. -/
structure Empty (diff : RuntimeGraphDiff) : Prop where
  addedRecords : diff.addedRecords = []
  removedRecords : diff.removedRecords = []
  changedRecords : diff.changedRecords = []
  addedRelations : diff.addedRelations = []
  removedRelations : diff.removedRelations = []
  changedRelations : diff.changedRelations = []

/-- No identity is in two of the classes. -/
structure Disjoint (diff : RuntimeGraphDiff) : Prop where
  removedAddedRecords : (diff.removedRecords.map (·.reference)).Disjoint (diff.addedRecords.map (·.reference))
  removedChangedRecords : (diff.removedRecords.map (·.reference)).Disjoint (diff.changedRecords.map (·.after.reference))
  addedChangedRecords : (diff.addedRecords.map (·.reference)).Disjoint (diff.changedRecords.map (·.after.reference))
  removedAddedRelations : (diff.removedRelations.map (·.reference)).Disjoint (diff.addedRelations.map (·.reference))
  removedChangedRelations :
    (diff.removedRelations.map (·.reference)).Disjoint (diff.changedRelations.map (·.after.reference))
  addedChangedRelations :
    (diff.addedRelations.map (·.reference)).Disjoint (diff.changedRelations.map (·.after.reference))

end RuntimeGraphDiff

/-! ## Exactness -/

namespace RuntimeGraphSnapshot

theorem indexed_recordMap (snapshot : RuntimeGraphSnapshot) :
    OrdMap.Indexed RuntimeRecord.reference snapshot.recordMap := (OrdMap.indexed_empty _).insertAll _

theorem indexed_relationMap (snapshot : RuntimeGraphSnapshot) :
    OrdMap.Indexed RuntimeRelation.reference snapshot.relationMap := (OrdMap.indexed_empty _).insertAll _

theorem applyRecords_diff (snapshot newer : RuntimeGraphSnapshot) :
    (snapshot.diff newer).applyRecords snapshot.recordMap = newer.recordMap := by
  have exact_ := OrdMap.patch_eq snapshot.indexed_recordMap newer.indexed_recordMap
  simpa only [RuntimeGraphDiff.applyRecords, diff, List.map_map, Function.comp_def] using exact_

theorem applyRelations_diff (snapshot newer : RuntimeGraphSnapshot) :
    (snapshot.diff newer).applyRelations snapshot.relationMap = newer.relationMap := by
  have exact_ := OrdMap.patch_eq snapshot.indexed_relationMap newer.indexed_relationMap
  simpa only [RuntimeGraphDiff.applyRelations, diff, List.map_map, Function.comp_def] using exact_

theorem disjoint_diff (snapshot newer : RuntimeGraphSnapshot) : (snapshot.diff newer).Disjoint := by
  have records := OrdMap.disjoint_changed snapshot.indexed_recordMap newer.indexed_recordMap
  have relations := OrdMap.disjoint_changed snapshot.indexed_relationMap newer.indexed_relationMap
  exact
    { removedAddedRecords := OrdMap.disjoint_missing snapshot.indexed_recordMap newer.indexed_recordMap
      removedChangedRecords := by simpa only [diff, List.map_map, Function.comp_def] using records.1
      addedChangedRecords := by simpa only [diff, List.map_map, Function.comp_def] using records.2
      removedAddedRelations := OrdMap.disjoint_missing snapshot.indexed_relationMap newer.indexed_relationMap
      removedChangedRelations := by simpa only [diff, List.map_map, Function.comp_def] using relations.1
      addedChangedRelations := by simpa only [diff, List.map_map, Function.comp_def] using relations.2 }

theorem empty_diff_iff (snapshot newer : RuntimeGraphSnapshot) : (snapshot.diff newer).Empty ↔
    snapshot.recordMap = newer.recordMap ∧ snapshot.relationMap = newer.relationMap := by
  rw [← OrdMap.delta_eq_nil_iff, ← OrdMap.delta_eq_nil_iff]
  constructor
  · intro empty
    exact ⟨⟨empty.removedRecords, empty.addedRecords, List.map_eq_nil_iff.mp empty.changedRecords⟩,
      empty.removedRelations, empty.addedRelations, List.map_eq_nil_iff.mp empty.changedRelations⟩
  · rintro ⟨⟨removed, added, changed⟩, removed', added', changed'⟩
    exact ⟨added, removed, List.map_eq_nil_iff.mpr changed, added', removed', List.map_eq_nil_iff.mpr changed'⟩

/-- A snapshot lists its records and relations by identity, each once. -/
structure Canonical (snapshot : RuntimeGraphSnapshot) : Prop where
  records : snapshot.recordMap.values = snapshot.records
  relations : snapshot.relationMap.values = snapshot.relations

theorem Canonical.eq_iff {snapshot newer : RuntimeGraphSnapshot} (one : snapshot.Canonical) (two : newer.Canonical) :
    snapshot.recordMap = newer.recordMap ∧ snapshot.relationMap = newer.relationMap ↔
      snapshot.records = newer.records ∧ snapshot.relations = newer.relations := by
  constructor
  · rintro ⟨records, relations⟩
    exact ⟨by rw [← one.records, records, two.records], by rw [← one.relations, relations, two.relations]⟩
  · rintro ⟨records, relations⟩
    exact ⟨by rw [recordMap, records]; rfl, by rw [relationMap, relations]; rfl⟩

/-- The snapshots that a log gives list what they hold by identity. -/
theorem canonical_fromChanges (changes : List RuntimeChange) (scope : ScopeId) (validAt : Millis)
    (knownAtCursor : UInt64) : (fromChanges changes scope validAt knownAtCursor).Canonical := by
  have indexed : ∀ (changes : List RuntimeChange) (graph : Graph), graph.Indexed →
      (changes.foldl (replay validAt) graph).Indexed := by
    intro changes
    induction changes with
    | nil => exact fun _ indexed => indexed
    | cons change changes ih => exact fun graph indexed => ih _ (replay_indexed indexed change)
  have whole := indexed (changes.filter (selects scope knownAtCursor)) _ Graph.indexed_empty
  constructor
  · rw [recordMap, fromChanges, Graph.recordsAt, OrdMap.insertAll_filter_values whole.records, OrdMap.values_filter]
  · rw [relationMap, fromChanges, Graph.relationsAt, OrdMap.insertAll_filter_values whole.relations,
      OrdMap.values_filter]

/-- The difference of two snapshots is exact: by identity, it leads from what one holds to what the other holds, its
classes are disjoint, and it is empty when both hold the same. Of snapshots that logs give, it leads from list to
list. -/
theorem diff_exact :
    (∀ snapshot newer : RuntimeGraphSnapshot,
      (snapshot.diff newer).applyRecords snapshot.recordMap = newer.recordMap ∧
      (snapshot.diff newer).applyRelations snapshot.relationMap = newer.relationMap ∧
      (snapshot.diff newer).Disjoint ∧
      ((snapshot.diff newer).Empty ↔
        snapshot.recordMap = newer.recordMap ∧ snapshot.relationMap = newer.relationMap)) ∧
    ∀ (changes others : List RuntimeChange) (scope scope' : ScopeId) (validAt validAt' : Millis) (cursor cursor' : UInt64),
      let snapshot := fromChanges changes scope validAt cursor
      let newer := fromChanges others scope' validAt' cursor'
      ((snapshot.diff newer).applyRecords snapshot.recordMap).values = newer.records ∧
      ((snapshot.diff newer).applyRelations snapshot.relationMap).values = newer.relations ∧
      ((snapshot.diff newer).Empty ↔ snapshot.records = newer.records ∧ snapshot.relations = newer.relations) := by
  refine ⟨fun snapshot newer => ⟨snapshot.applyRecords_diff newer, snapshot.applyRelations_diff newer,
    snapshot.disjoint_diff newer, snapshot.empty_diff_iff newer⟩, ?_⟩
  intro changes others scope scope' validAt validAt' cursor cursor' snapshot newer
  have one := canonical_fromChanges changes scope validAt cursor
  have two := canonical_fromChanges others scope' validAt' cursor'
  refine ⟨?_, ?_, (snapshot.empty_diff_iff newer).trans (one.eq_iff two)⟩
  · rw [snapshot.applyRecords_diff newer]
    exact two.records
  · rw [snapshot.applyRelations_diff newer]
    exact two.relations

end RuntimeGraphSnapshot

end Vyrm.Core
