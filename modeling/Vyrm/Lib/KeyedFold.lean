import Vyrm.Lib.OrdMap

/-!
# Folds by key

A map that combines the items folded into it under their keys. What a key leads to
afterwards depends on the items of that key alone. When the operation is associative the
items can be folded in batch by batch, and when it is idempotent also, folding a batch in
again changes nothing.
-/

namespace Vyrm.Lib
open Std

variable {κ α β : Type}

/-! ## Reducing a list -/

/-- The items combined from the left; nothing for no items. -/
def reduce (op : α → α → α) (items : List α) : Option α :=
  items.foldl (fun held item => Option.merge op held (some item)) none

section Reduce

variable {op : α → α → α}

@[simp] theorem reduce_nil : reduce op [] = none := rfl

theorem reduce_concat (items : List α) (item : α) :
    reduce op (items ++ [item]) = Option.merge op (reduce op items) (some item) := by
  simp [reduce]

/-- Folding on from a value combines it with what the items reduce to. -/
theorem foldl_merge [Associative op] (held : Option α) (items : List α) :
    items.foldl (fun held item => Option.merge op held (some item)) held =
      Option.merge op held (reduce op items) := by
  induction items using List.reverseRecOn with
  | nil => simp
  | append_singleton items item ih =>
    rw [List.foldl_append, ih, reduce_concat]
    exact Associative.assoc _ _ _

theorem reduce_append [Associative op] (items more : List α) :
    reduce op (items ++ more) = Option.merge op (reduce op items) (reduce op more) := by
  rw [reduce, List.foldl_append, foldl_merge]
  rfl

/-- Copies of one item reduce to it. -/
theorem reduce_eq_some [IdempotentOp op] {items : List α} {item : α} (some_ : items ≠ [])
    (only : ∀ other ∈ items, other = item) : reduce op items = some item := by
  induction items using List.reverseRecOn with
  | nil => exact absurd rfl some_
  | append_singleton items last ih =>
    have isLast : last = item := only last (by simp)
    rw [reduce_concat, isLast]
    by_cases none : items = []
    · simp [none]
    · rw [ih none fun other member => only other (by simp [member])]
      simp [IdempotentOp.idempotent]

/-- A map between items that respects the operations maps what they reduce to. -/
theorem reduce_map {op' : β → β → β} {f : α → β} (respects : ∀ a b, op' (f a) (f b) = f (op a b))
    (items : List α) : reduce op' (items.map f) = (reduce op items).map f := by
  induction items using List.reverseRecOn with
  | nil => rfl
  | append_singleton items item ih =>
    rw [List.map_append, List.map_singleton, reduce_concat, reduce_concat, ih]
    cases reduce op items with
    | none => simp
    | some held => simp [respects]

end Reduce

/-! ## Folding into a map -/

namespace OrdMap

variable [Ord κ] [TransOrd κ] [LawfulEqOrd κ] {op : α → α → α} {key : α → κ}

/-- An item, combined with what its key leads to. -/
def combine (op : α → α → α) (key : α → κ) (map : OrdMap κ α) (item : α) : OrdMap κ α :=
  match map[key item]? with
  | some held => map.insert (key item) (op held item)
  | none => map.insert (key item) item

theorem getElem?_combine_self (map : OrdMap κ α) (item : α) :
    (combine op key map item)[key item]? = Option.merge op map[key item]? (some item) := by
  unfold combine
  split
  · next held found => simp [found]
  · next missing => simp [missing]

theorem getElem?_combine_of_ne (map : OrdMap κ α) {item : α} {k : κ} (other : key item ≠ k) :
    (combine op key map item)[k]? = map[k]? := by
  unfold combine
  split
  · exact getElem?_insert_of_ne other
  · exact getElem?_insert_of_ne other

/-- A key leads to what it led to, combined with the items of that key. -/
theorem getElem?_foldl_combine [DecidableEq κ] [Associative op] (map : OrdMap κ α) (items : List α) (k : κ) :
    (items.foldl (combine op key) map)[k]? =
      Option.merge op map[k]? (reduce op (items.filter fun item => key item = k)) := by
  induction items using List.reverseRecOn with
  | nil => simp
  | append_singleton items item ih =>
    rw [List.foldl_append, List.foldl_cons, List.foldl_nil]
    by_cases same : key item = k
    · subst same
      rw [getElem?_combine_self, ih]
      simp [reduce_concat, Associative.assoc]
    · rw [getElem?_combine_of_ne _ same, ih]
      simp [same]

/-- Folding the same items in again changes nothing. -/
theorem foldl_combine_again [Associative op] [IdempotentOp op] (map : OrdMap κ α) (items : List α) :
    items.foldl (combine op key) (items.foldl (combine op key) map) = items.foldl (combine op key) map := by
  classical
  apply ExtTreeMap.ext_getElem?
  intro k
  rw [getElem?_foldl_combine, getElem?_foldl_combine, (Option.associative_merge op).assoc,
    (Option.idempotentOp_merge op).idempotent]

/-- The values of a map, each standing under its key, that have a given key. -/
theorem Indexed.reduce_values [DecidableEq κ] [IdempotentOp op] {map : OrdMap κ α}
    (indexed : Indexed key map) (k : κ) :
    reduce op ((values map).filter fun item => key item = k) = map[k]? := by
  have only : ∀ item ∈ (values map).filter (fun item => key item = k), map[k]? = some item := by
    intro item member
    obtain ⟨held, here⟩ := List.mem_filter.mp member
    obtain ⟨other, found⟩ := mem_values.mp held
    rw [← of_decide_eq_true here, indexed other item found]
    exact found
  cases found : map[k]? with
  | none =>
    have nothing : (values map).filter (fun item => key item = k) = [] := by
      rw [List.eq_nil_iff_forall_not_mem]
      intro item member
      rw [only item member] at found
      cases found
    rw [nothing]
    rfl
  | some item =>
    apply reduce_eq_some
    · apply List.ne_nil_of_mem (a := item)
      simp only [List.mem_filter, mem_values, decide_eq_true_eq]
      exact ⟨⟨k, found⟩, indexed k item found⟩
    · intro other member
      rw [only other member, Option.some.injEq] at found
      exact found

theorem Indexed.combine {map : OrdMap κ α} (indexed : Indexed key map)
    (keeps : ∀ a b, key a = key b → key (op a b) = key b) (item : α) :
    Indexed key (combine op key map item) := by
  intro k held found
  by_cases same : key item = k
  · subst same
    rw [getElem?_combine_self] at found
    cases before : map[key item]? with
    | none =>
      rw [before] at found
      cases found
      rfl
    | some earlier =>
      rw [before] at found
      cases found
      exact keeps earlier item (indexed _ _ before)
  · rw [getElem?_combine_of_ne _ same] at found
    exact indexed k held found

theorem Indexed.foldl_combine {map : OrdMap κ α} (indexed : Indexed key map)
    (keeps : ∀ a b, key a = key b → key (op a b) = key b) (items : List α) :
    Indexed key (items.foldl (OrdMap.combine op key) map) := by
  induction items generalizing map with
  | nil => exact indexed
  | cons item items ih => exact ih (indexed.combine keeps item)

end OrdMap

end Vyrm.Lib
