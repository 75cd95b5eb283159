import Mathlib.Data.List.Nodup
import Mathlib.Data.List.Pairwise
import Vyrm.Core.Runtime.Graph
import Vyrm.Core.Schema
import Vyrm.Lib.Sweep

/-!
# Windows and instants

The schema rules work on the bounds of validity windows. What they come to at each instant: how many
relations are valid there, and whether two records that share a unique value are.
-/

namespace Vyrm.Core
open Lib Std

/-! ## Relations valid at once -/

/-- How many relations are valid at an instant. -/
def validCount (relations : List RuntimeRelation) (t : Millis) : Nat :=
  relations.countP fun relation => validAtWindow relation.validFrom relation.validTo t

/-- The windows of relations end after they start. -/
def WindowsValid (relations : List RuntimeRelation) : Prop :=
  ∀ relation ∈ relations, Data.validateWindow relation.validFrom relation.validTo = .ok ()

theorem lt_of_validateWindow {validFrom : Millis} {validTo : Option Millis}
    (valid : Data.validateWindow validFrom validTo = .ok ()) : ∀ last ∈ validTo, validFrom < last := by
  intro last member
  cases member
  rw [Data.validateWindow] at valid
  split at valid
  · cases valid
  · rename_i proper
    exact Std.not_le.mp proper

theorem windowPoints_eq (relations : List RuntimeRelation) :
    windowPoints relations = relations.flatMap fun relation => windowEnds relation.validFrom relation.validTo := by
  rw [windowPoints]
  congr 1
  funext relation
  cases relation.validTo <;> rfl

/-- What is open at an instant is what is valid there. -/
theorem openAt_windowPoints {relations : List RuntimeRelation} (valid : WindowsValid relations) (t : Millis) :
    openAt (windowPoints relations) t = validCount relations t := by
  rw [windowPoints_eq, openAt_flatMap]
  induction relations with
  | nil => rfl
  | cons relation rest ih =>
    have proper := lt_of_validateWindow (valid relation (by simp))
    have same : validAtWindow relation.validFrom relation.validTo t =
        (decide (relation.validFrom ≤ t) && relation.validTo.all fun last => t < last) := by
      cases relation.validTo <;> rfl
    rw [List.map_cons, List.sum_cons, ih fun other member => valid other (by simp [member]), openAt_windowEnds proper,
      validCount, validCount, List.countP_cons, same]
    split <;> simp [Int.add_comm]

theorem swept_windowPoints (relations : List RuntimeRelation) :
    Swept ((windowPoints relations).mergeSort pointLe) := by
  constructor
  · intro point member
    rw [List.mem_mergeSort, windowPoints_eq, List.mem_flatMap] at member
    obtain ⟨relation, -, point_⟩ := member
    cases ends : relation.validTo with
    | none => simp_all [windowEnds]
    | some last =>
      rw [ends, windowEnds, List.mem_cons, List.mem_singleton] at point_
      rcases point_ with rfl | rfl
      · exact .inl rfl
      · exact .inr rfl
  · have sorted := @List.pairwise_mergeSort _ pointLe
      (fun a b c first second => by
        simp only [pointLe, Bool.or_eq_true, Bool.and_eq_true, decide_eq_true_eq] at *
        grind)
      (fun a b => by
        simp only [pointLe, Bool.or_eq_true, Bool.and_eq_true, decide_eq_true_eq]
        grind) (windowPoints relations)
    refine sorted.imp ?_
    intro a b before
    simpa [pointLe] using before

/-- The most relations that are valid at one instant. -/
theorem maxOverlap_spec {relations : List RuntimeRelation} (valid : WindowsValid relations) :
    (∀ t, validCount relations t ≤ maxOverlap relations) ∧ ∃ t, validCount relations t = maxOverlap relations := by
  have peak := peak_sweepPoints (swept_windowPoints relations)
  have count : ∀ t, openAt ((windowPoints relations).mergeSort pointLe) t = validCount relations t := by
    intro t
    rw [openAt_perm (List.mergeSort_perm ..), openAt_windowPoints valid]
  have found : maxOverlap relations = (sweepPoints ((windowPoints relations).mergeSort pointLe)).2.toNat := rfl
  have bound : ∀ t, validCount relations t ≤ maxOverlap relations := by
    intro t
    have most := peak.bound t
    rw [count] at most
    omega
  refine ⟨bound, ?_⟩
  rcases peak.attained with none | ⟨t, -, attained⟩
  · have zero := bound 0
    exact ⟨0, by omega⟩
  · rw [count] at attained
    exact ⟨t, by omega⟩

/-! ## Cardinality -/

theorem mem_groupBy {κ : Type} [Keyed κ] [DecidableEq κ] {key : RuntimeRelation → κ}
    {relations : List RuntimeRelation} {k : κ} {group : List RuntimeRelation} :
    (k, group) ∈ groupBy key relations ↔
      group = (relations.filter fun relation => key relation = k) ∧ group ≠ [] := by
  rw [groupBy, ExtTreeMap.mem_toList_iff_getElem?_eq_some]
  induction relations using List.reverseRecOn generalizing k group with
  | nil =>
    simp only [List.foldl_nil, ExtTreeMap.getElem?_empty, List.filter_nil]
    exact iff_of_false (by simp) fun both => both.2 both.1
  | append_singleton relations relation ih =>
    rw [List.foldl_append, List.foldl_cons, List.foldl_nil, List.filter_append]
    by_cases same : key relation = k
    · subst same
      have before : (relations.foldl (fun groups relation =>
          groups.insert (key relation) (groups[key relation]?.getD [] ++ [relation]))
            (∅ : OrdMap κ (List RuntimeRelation)))[key relation]?.getD [] =
              relations.filter fun other => key other = key relation := by
        cases found : (relations.foldl (fun groups relation =>
          groups.insert (key relation) (groups[key relation]?.getD [] ++ [relation]))
            (∅ : OrdMap κ (List RuntimeRelation)))[key relation]? with
        | some group => exact (ih.mp found).1
        | none =>
          by_contra several
          rw [ih.mpr ⟨rfl, Ne.symm several⟩] at found
          cases found
      rw [OrdMap.getElem?_insert_self, before, Option.some.injEq]
      constructor
      · rintro rfl
        simp
      · intro ⟨grouped, _⟩
        simpa using grouped.symm
    · rw [OrdMap.getElem?_insert_of_ne same, ih]
      simp [same]

namespace RuntimeSchemaRegistry

/-- A rule on groups is one on every key, since where no relation is none is valid. -/
theorem limitOverlap_ok {κ : Type} [Keyed κ] [DecidableEq κ] {key : RuntimeRelation → κ}
    {relations : List RuntimeRelation} {limit : Nat} {reason : κ → String} (valid : WindowsValid relations) :
    limitOverlap key relations limit reason = .ok () ↔
      ∀ k t, validCount (relations.filter fun relation => key relation = k) t ≤ limit := by
  have spec := fun k => @maxOverlap_spec (relations.filter fun relation => key relation = k)
    fun relation member => valid relation (List.mem_of_mem_filter member)
  simp only [limitOverlap, except_forM_ok, Prod.forall, mem_groupBy]
  constructor
  · intro within k t
    by_cases none : (relations.filter fun relation => key relation = k) = []
    · rw [none]
      exact Nat.zero_le _
    · have checked := within k _ ⟨rfl, none⟩
      split at checked
      · cases checked
      · rename_i within
        exact Nat.le_trans ((spec k).1 t) (Nat.not_lt.mp within)
  · rintro within k _ ⟨rfl, -⟩
    obtain ⟨t, most⟩ := (spec k).2
    rw [if_neg (Nat.not_lt.mpr (most ▸ within k t))]

/-- No bound on the relations of a type is exceeded at an instant. -/
structure WithinBounds (kind : RuntimeType) (schema : RuntimeRelationSchema) (relations : List RuntimeRelation)
    (t : Millis) : Prop where
  pair : schema.uniquePair → ∀ from_ to_, validCount ((relations.filter (·.reference.kind = kind)).filter
    fun relation => (relation.from_, relation.to_) = (from_, to_)) t ≤ 1
  outgoing : ∀ limit ∈ schema.maxOutgoing, ∀ from_, validCount ((relations.filter (·.reference.kind = kind)).filter
    fun relation => relation.from_ = from_) t ≤ limit.toNat
  incoming : ∀ limit ∈ schema.maxIncoming, ∀ to_, validCount ((relations.filter (·.reference.kind = kind)).filter
    fun relation => relation.to_ = to_) t ≤ limit.toNat

theorem validateRelationCardinality_ok {registry : RuntimeSchemaRegistry} {relations : List RuntimeRelation}
    (valid : WindowsValid relations) :
    registry.validateRelationCardinality relations = .ok () ↔
      ∀ t, ∀ entry ∈ registry.relations, WithinBounds entry.1 entry.2 relations t := by
  have typed : ∀ kind, WindowsValid (relations.filter (·.reference.kind = kind)) :=
    fun kind relation member => valid relation (List.mem_of_mem_filter member)
  have entry : ∀ entry : RuntimeType × RuntimeRelationSchema, (∀ t, WithinBounds entry.1 entry.2 relations t) ↔
      (entry.2.uniquePair → ∀ k : RuntimeRef × RuntimeRef, ∀ t, validCount
        ((relations.filter (·.reference.kind = entry.1)).filter fun relation => (relation.from_, relation.to_) = k) t ≤ 1) ∧
      (∀ limit ∈ entry.2.maxOutgoing, ∀ k t, validCount
        ((relations.filter (·.reference.kind = entry.1)).filter fun relation => relation.from_ = k) t ≤ limit.toNat) ∧
      ∀ limit ∈ entry.2.maxIncoming, ∀ k t, validCount
        ((relations.filter (·.reference.kind = entry.1)).filter fun relation => relation.to_ = k) t ≤ limit.toNat := by
    intro entry
    constructor
    · intro within
      exact ⟨fun unique k t => (within t).pair unique k.1 k.2, fun limit set k t => (within t).outgoing limit set k,
        fun limit set k t => (within t).incoming limit set k⟩
    · intro ⟨pair, outgoing, incoming⟩ t
      exact ⟨fun unique from_ to_ => pair unique (from_, to_) t, fun limit set k => outgoing limit set k t,
        fun limit set k => incoming limit set k t⟩
  have swap : (∀ t, ∀ entry ∈ registry.relations, WithinBounds entry.1 entry.2 relations t) ↔
      ∀ entry ∈ registry.relations, ∀ t, WithinBounds entry.1 entry.2 relations t :=
    ⟨fun within entry member t => within t entry member, fun within t entry member => within entry member t⟩
  rw [swap, validateRelationCardinality, except_forM_ok]
  refine forall₂_congr fun listed member => ?_
  obtain ⟨kind, schema⟩ := listed
  rw [entry]
  dsimp only
  cases unique : schema.uniquePair <;> cases outgoing : schema.maxOutgoing <;> cases incoming : schema.maxIncoming <;>
    simp [except_bind_ok, limitOverlap_ok (typed kind)]

/-- Of relations whose windows end after they start, the sweep finds the most that are valid at one
instant, and the cardinality check accepts exactly where no instant has too many. -/
theorem relations_at_instants (relations : List RuntimeRelation) (valid : WindowsValid relations) :
    ((∀ t, validCount relations t ≤ maxOverlap relations) ∧ ∃ t, validCount relations t = maxOverlap relations) ∧
      ∀ registry : RuntimeSchemaRegistry, registry.validateRelationCardinality relations = .ok () ↔
        ∀ t, ∀ entry ∈ registry.relations, WithinBounds entry.1 entry.2 relations t :=
  ⟨maxOverlap_spec valid, fun _ => validateRelationCardinality_ok valid⟩

/-- A relation between two records, valid from one instant until another. -/
def sampleRelation (id : RuntimeId) (validFrom : Millis) (validTo : Option Millis) : RuntimeRelation :=
  { reference := ⟨⟨"blocks", by decide, by decide⟩, id⟩
    from_ := ⟨⟨"task", by decide, by decide⟩, ⟨"1", by decide, by decide⟩⟩
    to_ := ⟨⟨"task", by decide, by decide⟩, ⟨"2", by decide, by decide⟩⟩
    validFrom, validTo, properties := [] }

/-- Windows that touch are at no instant both open, though one starts when the other ends. -/
theorem relations_at_instants_sample : ∃ t, validCount
    [sampleRelation ⟨"a", by decide, by decide⟩ 5 none, sampleRelation ⟨"b", by decide, by decide⟩ 1 (some 5)] t =
      maxOverlap
        [sampleRelation ⟨"a", by decide, by decide⟩ 5 none,
          sampleRelation ⟨"b", by decide, by decide⟩ 1 (some 5)] :=
  (relations_at_instants
    [sampleRelation ⟨"a", by decide, by decide⟩ 5 none, sampleRelation ⟨"b", by decide, by decide⟩ 1 (some 5)]
    (by
      intro relation member
      simp only [List.mem_cons, List.not_mem_nil, or_false] at member
      rcases member with rfl | rfl <;> rfl)).1.2

/-! ## Unique values -/

/-- Two records that hold one value of a property that is unique for their kind. -/
def SharesUnique (registry : RuntimeSchemaRegistry) (records : List RuntimeRecord) (a b : RuntimeRecord) : Prop :=
  a ∈ records ∧ b ∈ records ∧ a ≠ b ∧ ∃ entry ∈ registry.records,
    a.reference.kind = entry.1 ∧ b.reference.kind = entry.1 ∧ ∃ property ∈ entry.2.uniqueProperties,
      ∃ value, a.properties.lookup property = some value ∧ b.properties.lookup property = some value

/-- Two records that share a unique value are valid at an instant. -/
def Conflict (registry : RuntimeSchemaRegistry) (records : List RuntimeRecord) (t : Millis) : Prop :=
  ∃ a b, registry.SharesUnique records a b ∧ validAtWindow a.validFrom a.validTo t ∧
    validAtWindow b.validFrom b.validTo t

/-- The bounds of two records' windows cross. -/
def Crosses (a b : RuntimeRecord) : Prop := windowsOverlap a.validFrom a.validTo b.validFrom b.validTo

theorem Crosses.symm {a b : RuntimeRecord} (crosses : Crosses a b) : Crosses b a := by
  rwa [Crosses, windowsOverlap, Bool.and_comm]

/-- A window that ends when it starts, or before. -/
def Empty (record : RuntimeRecord) : Prop := ∃ last ∈ record.validTo, last ≤ record.validFrom

/-- Two records without an end, of which one starts at the last instant. -/
def LastInstant (a b : RuntimeRecord) : Prop :=
  a.validTo = none ∧ b.validTo = none ∧ (a.validFrom = u64Max ∨ b.validFrom = u64Max)

theorem le_u64Max (t : UInt64) : t ≤ u64Max := by
  rw [UInt64.le_iff_toNat_le]
  have bound := t.toNat_lt
  have last : u64Max.toNat = 2 ^ 64 - 1 := by decide
  omega

/-- Where the later of two windows starts, both are valid if their bounds cross. -/
theorem valid_of_crosses {a b : RuntimeRecord} (crosses : Crosses a b) (later : a.validFrom ≤ b.validFrom)
    (some_ : ¬ Empty b) : b.validFrom < u64Max ∧ validAtWindow a.validFrom a.validTo b.validFrom ∧
      validAtWindow b.validFrom b.validTo b.validFrom := by
  simp only [Crosses, windowsOverlap, Bool.and_eq_true, decide_eq_true_eq] at crosses
  refine ⟨Std.lt_of_lt_of_le crosses.2 (le_u64Max _), ?_, ?_⟩
  · cases ends : a.validTo with
    | none => simp [validAtWindow, later]
    | some last =>
      have open_ : b.validFrom < last := by simpa [ends] using crosses.2
      simp [validAtWindow, later, open_]
  · cases ends : b.validTo with
    | none => simp [validAtWindow]
    | some last =>
      have open_ : b.validFrom < last := Std.not_le.mp fun closed => some_ ⟨last, ends, closed⟩
      simp [validAtWindow, open_]

/-- Bounds that cross are of windows that are valid together before the last instant. -/
theorem exists_valid_of_crosses {a b : RuntimeRecord} (crosses : Crosses a b) (some_ : ¬ Empty a)
    (some_' : ¬ Empty b) :
    ∃ t < u64Max, validAtWindow a.validFrom a.validTo t ∧ validAtWindow b.validFrom b.validTo t := by
  rcases Std.le_total (a := a.validFrom) (b := b.validFrom) with later | later
  · exact ⟨_, valid_of_crosses crosses later some_'⟩
  · obtain ⟨before, first, second⟩ := valid_of_crosses crosses.symm later some_
    exact ⟨_, before, second, first⟩

/-- Windows that are valid together have bounds that cross, except at the last instant. -/
theorem crosses_of_valid {a b : RuntimeRecord} {t : Millis} (first : validAtWindow a.validFrom a.validTo t)
    (second : validAtWindow b.validFrom b.validTo t) : Crosses a b ∨ t = u64Max ∧ LastInstant a b := by
  have ends : ∀ {validFrom : Millis} {validTo : Option Millis}, validAtWindow validFrom validTo t →
      validFrom ≤ t ∧ (t < validTo.getD u64Max ∨ t = u64Max ∧ validTo = none) := by
    intro validFrom validTo valid
    cases validTo with
    | none =>
      have last := le_u64Max t
      simp only [validAtWindow, Bool.and_true, decide_eq_true_eq] at valid
      refine ⟨valid, ?_⟩
      by_cases now : t = u64Max
      · exact .inr ⟨now, rfl⟩
      · exact .inl (Std.lt_of_le_of_ne last now)
    | some last => simpa [validAtWindow] using valid
  obtain ⟨fromA, endA⟩ := ends first
  obtain ⟨fromB, endB⟩ := ends second
  by_cases now : t = u64Max
  · subst now
    have openA : a.validTo = none := (endA.resolve_left (Std.not_lt.mpr (le_u64Max _))).2
    have openB : b.validTo = none := (endB.resolve_left (Std.not_lt.mpr (le_u64Max _))).2
    by_cases last : a.validFrom = u64Max ∨ b.validFrom = u64Max
    · exact .inr ⟨rfl, openA, openB, last⟩
    · rw [not_or] at last
      refine .inl ?_
      simp [Crosses, windowsOverlap, openA, openB, Std.lt_of_le_of_ne fromA last.1, Std.lt_of_le_of_ne fromB last.2]
  · have endA := endA.resolve_right fun ⟨last, _⟩ => now last
    have endB := endB.resolve_right fun ⟨last, _⟩ => now last
    refine .inl ?_
    simp [Crosses, windowsOverlap, Std.lt_of_le_of_lt fromA endB, Std.lt_of_le_of_lt fromB endA]

/-- The candidates for a unique property share no value where each two of them do not. -/
theorem sharesValue_eq_false {candidates : List (RuntimeRecord × RuntimeValue)} :
    sharesValue candidates = false ↔ candidates.Pairwise fun a b => ¬ (a.2 = b.2 ∧ Crosses a.1 b.1) := by
  induction candidates with
  | nil => simp [sharesValue]
  | cons candidate rest ih =>
    obtain ⟨left, value⟩ := candidate
    simp only [sharesValue, Bool.or_eq_false_iff, ih, List.pairwise_cons, List.any_eq_false, Bool.and_eq_true,
      decide_eq_true_eq, Crosses]

/-- The records that are current have references of their own. -/
theorem nodup_currentRecords (mutations : List RuntimeMutation) (existing : List RuntimeRecord) :
    (currentRecords mutations existing).values.Nodup := by
  have indexed : OrdMap.Indexed RuntimeRecord.reference (currentRecords mutations existing) :=
    (OrdMap.indexed_empty _).insertAll _
  have keys : (currentRecords mutations existing).values.map RuntimeRecord.reference =
      (currentRecords mutations existing).keys := by
    rw [OrdMap.values, List.map_map, ← ExtTreeMap.map_fst_toList_eq_keys]
    refine List.map_congr_left ?_
    intro entry member
    exact indexed entry.1 entry.2 (ExtTreeMap.mem_toList_iff_getElem?_eq_some.mp member)
  exact List.Nodup.of_map RuntimeRecord.reference (keys ▸ ExtTreeMap.nodup_keys)

/-- The records of a kind that have a property, with its value. -/
def candidates (records : List RuntimeRecord) (kind : RuntimeType) (property : String) :
    List (RuntimeRecord × RuntimeValue) :=
  (records.filter fun record => record.reference.kind = kind).filterMap
    fun record => (record.properties.lookup property).map fun value => (record, value)

theorem mem_candidates {records : List RuntimeRecord} {kind : RuntimeType} {property : String}
    {record : RuntimeRecord} {value : RuntimeValue} : (record, value) ∈ candidates records kind property ↔
      record ∈ records ∧ record.reference.kind = kind ∧ record.properties.lookup property = some value := by
  simp only [candidates, List.mem_filterMap, List.mem_filter, decide_eq_true_eq, Option.map_eq_some_iff,
    Prod.mk.injEq]
  constructor
  · rintro ⟨other, ⟨listed, typed⟩, value', found, rfl, rfl⟩
    exact ⟨listed, typed, found⟩
  · intro ⟨listed, typed, found⟩
    exact ⟨record, ⟨listed, typed⟩, value, found, rfl, rfl⟩

theorem nodup_candidates {records : List RuntimeRecord} (nodup : records.Nodup) (kind : RuntimeType)
    (property : String) : (candidates records kind property).Nodup := by
  refine (nodup.filter _).filterMap ?_
  intro a b candidate fromA fromB
  simp only [Option.mem_def, Option.map_eq_some_iff] at fromA fromB
  obtain ⟨value, -, rfl⟩ := fromA
  obtain ⟨value', -, same⟩ := fromB
  exact (Prod.mk.inj same).1.symm

/-- The check accepts where the windows of no two records that share a unique value cross. -/
theorem validateRecordUniqueness_ok {registry : RuntimeSchemaRegistry} {records : List RuntimeRecord}
    (nodup : records.Nodup) : registry.validateRecordUniqueness records = .ok () ↔
      ∀ a b, registry.SharesUnique records a b → ¬ Crosses a b := by
  have each : registry.validateRecordUniqueness records = .ok () ↔ ∀ entry ∈ registry.records,
      ∀ property ∈ entry.2.uniqueProperties, sharesValue (candidates records entry.1 property) = false := by
    rw [validateRecordUniqueness, except_forM_ok]
    refine forall₂_congr fun entry _ => ?_
    rw [except_forM_ok]
    refine forall₂_congr fun property _ => ?_
    change (if sharesValue (candidates records entry.1 property) then _ else _) = _ ↔ _
    cases shared : sharesValue (candidates records entry.1 property) <;> simp [invalid]
  rw [each]
  constructor
  · rintro apart a b ⟨listed, listed', different, entry, member, kind, kind', property, unique, value, has, has'⟩ crosses
    have pairs := sharesValue_eq_false.mp (apart entry member property unique)
    have symm : Std.Symm fun a b : RuntimeRecord × RuntimeValue => ¬ (a.2 = b.2 ∧ Crosses a.1 b.1) :=
      ⟨fun a b apart both => apart ⟨both.1.symm, both.2.symm⟩⟩
    refine pairs.forall (mem_candidates.mpr ⟨listed, kind, has⟩) (mem_candidates.mpr ⟨listed', kind', has'⟩) ?_ ⟨rfl, crosses⟩
    intro same
    exact different (Prod.mk.inj same).1
  · intro apart entry member property unique
    rw [sharesValue_eq_false]
    have distinct := nodup_candidates nodup entry.1 property
    refine distinct.pairwise_of_forall_ne ?_
    rintro ⟨a, value⟩ first ⟨b, value'⟩ second different ⟨rfl, crosses⟩
    rw [mem_candidates] at first second
    refine apart a b ⟨first.1, second.1, ?_, entry, member, first.2.1, second.2.1, property, unique, value,
      first.2.2, second.2.2⟩ crosses
    rintro rfl
    exact different rfl

/-! ## The rules at instants -/

/-- Where two records without an end, one of which starts at the last instant, share a unique value, two
records are valid together before; and records of which one is never valid do not cross alone. -/
structure Decided (registry : RuntimeSchemaRegistry) (records : List RuntimeRecord) : Prop where
  last : (∃ a b, registry.SharesUnique records a b ∧ LastInstant a b) →
    (∃ t < u64Max, registry.Conflict records t) ∨
      ∃ a b, registry.SharesUnique records a b ∧ (Empty a ∨ Empty b) ∧ Crosses a b
  empty : (∃ a b, registry.SharesUnique records a b ∧ (Empty a ∨ Empty b) ∧ Crosses a b) →
    ∃ t, registry.Conflict records t

/-- The uniqueness check of a commit accepts exactly where no two records that share a unique value are
valid at one instant, but for records that start at the last instant or are never valid. -/
theorem uniqueness_at_instants_iff (registry : RuntimeSchemaRegistry) (mutations : List RuntimeMutation)
    (existing : List RuntimeRecord) :
    (registry.validateRecordUniqueness (currentRecords mutations existing).values = .ok () ↔
      ∀ t, ¬ registry.Conflict (currentRecords mutations existing).values t) ↔
    registry.Decided (currentRecords mutations existing).values := by
  rw [validateRecordUniqueness_ok (nodup_currentRecords mutations existing)]
  generalize (currentRecords mutations existing).values = records
  -- Crossing bounds are of windows that are valid together, or of one that never is.
  have together : ∀ a b, registry.SharesUnique records a b → Crosses a b →
      (∃ t < u64Max, registry.Conflict records t) ∨
        ∃ a b, registry.SharesUnique records a b ∧ (Empty a ∨ Empty b) ∧ Crosses a b := by
    intro a b shares crosses
    by_cases never : Empty a ∨ Empty b
    · exact .inr ⟨a, b, shares, never, crosses⟩
    · rw [not_or] at never
      obtain ⟨t, before, first, second⟩ := exists_valid_of_crosses crosses never.1 never.2
      exact .inl ⟨t, before, a, b, shares, first, second⟩
  constructor
  · intro agrees
    have crossing : (∃ t, registry.Conflict records t) → ∃ a b, registry.SharesUnique records a b ∧ Crosses a b := by
      intro ⟨t, conflict⟩
      by_contra apart
      exact agrees.mp (fun a b shares crosses => apart ⟨a, b, shares, crosses⟩) t conflict
    constructor
    · intro ⟨a, b, shares, openA, openB, _⟩
      have conflict : registry.Conflict records u64Max := by
        refine ⟨a, b, shares, ?_, ?_⟩
        · simp [validAtWindow, openA, le_u64Max]
        · simp [validAtWindow, openB, le_u64Max]
      obtain ⟨a, b, shares, crosses⟩ := crossing ⟨u64Max, conflict⟩
      exact together a b shares crosses
    · intro ⟨a, b, shares, _, crosses⟩
      by_contra none
      exact agrees.mpr (fun t conflict => none ⟨t, conflict⟩) a b shares crosses
  · intro decided
    constructor
    · rintro apart t ⟨a, b, shares, first, second⟩
      rcases crosses_of_valid first second with crosses | ⟨-, last⟩
      · exact apart a b shares crosses
      · rcases decided.last ⟨a, b, shares, last⟩ with ⟨t, before, a, b, shares, first, second⟩ | ⟨a, b, shares, -, crosses⟩
        · rcases crosses_of_valid first second with crosses | ⟨now, -⟩
          · exact apart a b shares crosses
          · exact absurd now (Std.ne_of_lt before)
        · exact apart a b shares crosses
    · intro none a b shares crosses
      rcases together a b shares crosses with ⟨t, -, conflict⟩ | never
      · exact none t conflict
      · obtain ⟨t, conflict⟩ := decided.empty never
        exact none t conflict

/-- Records with a slug, which is unique. -/
def slugRegistry : RuntimeSchemaRegistry :=
  { revision := 1
    migration := "slugs"
    records := [(⟨"task", by decide, by decide⟩, ⟨[("slug", ⟨.string, true⟩)], false, ["slug"]⟩)]
    relations := []
    events := [] }

/-- A record with a slug and no end, from the last instant. -/
def lastTask (id : RuntimeId) : RuntimeRecord :=
  { reference := ⟨⟨"task", by decide, by decide⟩, id⟩
    validFrom := u64Max, validTo := none, properties := [("slug", .string "a")] }

/-- A record that shares its slug with one that exists is accepted, and both are valid at the last instant. -/
theorem last_instant_shared :
    slugRegistry.validateObjects [.record (lastTask ⟨"2", by decide, by decide⟩)]
        [lastTask ⟨"1", by decide, by decide⟩] [] = .ok () ∧
      ¬ (slugRegistry.validateRecordUniqueness (currentRecords [.record (lastTask ⟨"2", by decide, by decide⟩)]
            [lastTask ⟨"1", by decide, by decide⟩]).values = .ok () ↔
        ∀ t, ¬ slugRegistry.Conflict (currentRecords [.record (lastTask ⟨"2", by decide, by decide⟩)]
          [lastTask ⟨"1", by decide, by decide⟩]).values t) := by
  have records : (currentRecords [.record (lastTask ⟨"2", by decide, by decide⟩)]
      [lastTask ⟨"1", by decide, by decide⟩]).values =
        [lastTask ⟨"1", by decide, by decide⟩, lastTask ⟨"2", by decide, by decide⟩] := by decide +kernel
  refine ⟨by decide +kernel, ?_⟩
  rw [records]
  intro agrees
  refine agrees.mp (by decide +kernel) u64Max
    ⟨lastTask ⟨"1", by decide, by decide⟩, lastTask ⟨"2", by decide, by decide⟩, ?_, by decide, by decide⟩
  refine ⟨by simp, by simp, by decide, _, List.mem_singleton.mpr rfl, rfl, rfl, "slug", by decide, .string "a", rfl, rfl⟩

end RuntimeSchemaRegistry

end Vyrm.Core
