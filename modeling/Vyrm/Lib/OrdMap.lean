import Std.Data.ExtTreeMap.Lemmas
import Vyrm.Lib.Bytes
import Vyrm.Lib.Mvcc

/-!
# Ordered maps

Maps ordered by key, equal when they have the same entries. A key type is ordered
by the byte strings it is made of.
-/

namespace Vyrm.Lib
open Std

/-- Keys made of a fixed number of byte strings, and ordered as those are, one by one. -/
class Keyed (κ : Type) where
  parts : κ → List Bytes
  count : Nat
  length_parts : ∀ key, (parts key).length = count
  parts_inj : ∀ a b, parts a = parts b → a = b

section

variable {κ : Type} [Keyed κ]

instance instOrdKeyed : Ord κ := ⟨compareOn Keyed.parts⟩

instance instTransOrdKeyed : TransOrd κ := inferInstanceAs (TransCmp (compareOn Keyed.parts))

instance instLawfulEqOrdKeyed : LawfulEqOrd κ where
  compare_self {key} := show compareOn Keyed.parts key key = .eq from ReflCmp.compare_self
  eq_of_compare same := Keyed.parts_inj _ _ (LawfulEqOrd.eq_of_compare same)

end

/-- Pairs, by the first component and then the second. -/
instance {κ κ' : Type} [Keyed κ] [Keyed κ'] : Keyed (κ × κ') where
  parts key := Keyed.parts key.1 ++ Keyed.parts key.2
  count := Keyed.count κ + Keyed.count κ'
  length_parts key := by rw [List.length_append, Keyed.length_parts, Keyed.length_parts]
  parts_inj a b same := by
    obtain ⟨firsts, seconds⟩ := List.append_inj same (by rw [Keyed.length_parts, Keyed.length_parts])
    exact Prod.ext (Keyed.parts_inj _ _ firsts) (Keyed.parts_inj _ _ seconds)

/-- `BTreeMap`. -/
abbrev OrdMap (κ α : Type) [Ord κ] := ExtTreeMap κ α compare

namespace OrdMap

variable {κ α : Type} [Ord κ] [TransOrd κ] [LawfulEqOrd κ]

/-- The values in key order. -/
def values (map : OrdMap κ α) : List α := map.toList.map Prod.snd

/-- The values of a list, each under its key; of two with one key, the later. -/
def insertAll (key : α → κ) (map : OrdMap κ α) (items : List α) : OrdMap κ α :=
  items.foldl (fun map item => map.insert (key item) item) map

@[simp] theorem mem_values {map : OrdMap κ α} {a : α} : a ∈ values map ↔ ∃ key : κ, map[key]? = some a := by
  simp only [values, List.mem_map, Prod.exists, exists_eq_right,
    ExtTreeMap.mem_toList_iff_getElem?_eq_some]

theorem getElem?_filter_value {map : OrdMap κ α} {keep : α → Bool} (key : κ) :
    (map.filter fun _ a => keep a)[key]? = map[key]?.filter keep := by
  rw [ExtTreeMap.getElem?_filter']

omit [LawfulEqOrd κ] in
theorem values_filter (map : OrdMap κ α) (keep : α → Bool) :
    values (map.filter fun _ a => keep a) = (values map).filter keep := by
  rw [values, values, ExtTreeMap.toList_filter, List.filter_map]
  rfl

theorem getElem?_insert_self (map : OrdMap κ α) (key : κ) (a : α) : (map.insert key a)[key]? = some a := by
  simp

theorem getElem?_insert_of_ne {map : OrdMap κ α} {key other : κ} {a : α} (different : key ≠ other) :
    (map.insert key a)[other]? = map[other]? := by
  rw [ExtTreeMap.getElem?_insert, if_neg]
  intro same
  exact different (LawfulEqOrd.eq_of_compare same)

/-- Every value stands under its own key. -/
def Indexed (key : α → κ) (map : OrdMap κ α) : Prop := ∀ (k : κ) (a : α), map[k]? = some a → key a = k

omit [LawfulEqOrd κ] in
theorem indexed_empty (key : α → κ) : Indexed key (∅ : OrdMap κ α) := by
  intro k a h
  simp at h

theorem Indexed.insert {key : α → κ} {map : OrdMap κ α} (indexed : Indexed key map) (a : α) :
    Indexed key (map.insert (key a) a) := by
  intro k b h
  by_cases same : key a = k
  · subst same
    rw [getElem?_insert_self, Option.some.injEq] at h
    rw [h]
  · rw [getElem?_insert_of_ne same] at h
    exact indexed k b h

omit [LawfulEqOrd κ] in
theorem insertAll_append (key : α → κ) (map : OrdMap κ α) (items more : List α) :
    insertAll key map (items ++ more) = insertAll key (insertAll key map items) more :=
  List.foldl_append

theorem Indexed.insertAll {key : α → κ} {map : OrdMap κ α} (indexed : Indexed key map) (items : List α) :
    Indexed key (insertAll key map items) := by
  induction items generalizing map with
  | nil => exact indexed
  | cons item items ih => exact ih (indexed.insert item)

/-- A key leads to the last of the values inserted under it, or to what it led to before. -/
theorem getElem?_insertAll [DecidableEq κ] (key : α → κ) (map : OrdMap κ α) (items : List α) (k : κ) :
    (OrdMap.insertAll key map items)[k]? =
      (items.filter fun item => key item = k).getLast?.or map[k]? := by
  induction items using List.reverseRecOn with
  | nil => simp [OrdMap.insertAll]
  | append_singleton items item ih =>
    rw [insertAll_append]
    show ((OrdMap.insertAll key map items).insert (key item) item)[k]? = _
    by_cases same : key item = k
    · subst same
      simp
    · rw [getElem?_insert_of_ne same, ih]
      simp [same]

/-- Collecting the kept values of a map again keeps their entries. -/
theorem insertAll_filter_values {key : α → κ} {map : OrdMap κ α} (indexed : Indexed key map)
    (keep : α → Bool) :
    OrdMap.insertAll key ∅ ((values map).filter keep) = map.filter fun _ a => keep a := by
  classical
  apply ExtTreeMap.ext_getElem?
  intro k
  rw [getElem?_insertAll, getElem?_filter_value]
  have only : ∀ a ∈ ((values map).filter keep).filter (fun item => key item = k),
      map[k]? = some a ∧ keep a = true := by
    intro a h
    simp only [List.mem_filter, mem_values, decide_eq_true_eq] at h
    obtain ⟨⟨⟨other, found⟩, kept⟩, here⟩ := h
    have : key a = other := indexed other a found
    rw [← here, this]
    exact ⟨found, kept⟩
  cases last : (((values map).filter keep).filter (fun item => key item = k)).getLast? with
  | none =>
    have empty := List.getLast?_eq_none_iff.mp last
    cases found : map[k]? with
    | none => simp
    | some a =>
      have dropped : keep a = false := by
        by_contra kept
        rw [Bool.not_eq_false] at kept
        have member : a ∈ ((values map).filter keep).filter (fun item => key item = k) := by
          simp only [List.mem_filter, mem_values, decide_eq_true_eq]
          exact ⟨⟨⟨k, found⟩, kept⟩, indexed k a found⟩
        rw [empty] at member
        simp at member
      simp [Option.filter, dropped]
  | some a =>
    obtain ⟨found, kept⟩ := only a (List.mem_of_getLast? last)
    simp [Option.filter, found, kept]

/-- Two maps with the same kept values have the same values to keep. -/
theorem filter_values_congr {a b : OrdMap κ α} {keep : α → Bool}
    (same : ∀ key : κ, a[key]?.filter keep = b[key]?.filter keep) :
    (values a).filter keep = (values b).filter keep := by
  rw [← values_filter, ← values_filter]
  congr 1
  apply ExtTreeMap.ext_getElem?
  intro key
  rw [getElem?_filter_value, getElem?_filter_value, same]

/-! ## Ranges -/

section Ranges

variable [LT κ] [LE κ] [LawfulOrderOrd κ] [LawfulOrderLT κ]

/-- Keys from a start on, and below a stop if there is one. -/
def Within (start : κ) (stop : Option κ) (key : κ) : Prop := start ≤ key ∧ ∀ last ∈ stop, key < last

/-- `BTreeMap::range(start..stop)`. -/
def range (map : OrdMap κ α) (start : κ) (stop : Option κ) : List (κ × α) :=
  map.toList.filter fun pair =>
    (compare start pair.1).isLE && stop.all fun last => compare pair.1 last == .lt

open Mvcc in
theorem isGraph_toList (map : OrdMap κ α) : IsGraph map.toList (fun key => map[key]?) := by
  constructor
  · apply ExtTreeMap.ordered_keys_toList.imp
    intro a b less
    exact compare_eq_lt.mp less
  · intro key a
    exact ExtTreeMap.mem_toList_iff_getElem?_eq_some

omit [LawfulEqOrd κ] [TransOrd κ] in
theorem within_iff {start : κ} {stop : Option κ} {key : κ} :
    ((compare start key).isLE && stop.all fun last => compare key last == .lt) = true ↔
      Within start stop key := by
  cases stop with
  | none => simp [Within, isLE_compare]
  | some last => simp [Within, isLE_compare, compare_eq_lt]

open Mvcc Classical in
theorem isGraph_range (map : OrdMap κ α) (start : κ) (stop : Option κ) :
    IsGraph (map.range start stop) (fun key => if Within start stop key then map[key]? else none) := by
  have graph := (isGraph_toList map).filter fun key =>
    (compare start key).isLE && stop.all fun last => compare key last == .lt
  simp only [within_iff] at graph
  rw [range]
  convert graph

theorem mem_range {map : OrdMap κ α} {start : κ} {stop : Option κ} {key : κ} {a : α} :
    (key, a) ∈ map.range start stop ↔ Within start stop key ∧ map[key]? = some a := by
  rw [(isGraph_range map start stop).mem]
  simp

end Ranges

end OrdMap

end Vyrm.Lib
