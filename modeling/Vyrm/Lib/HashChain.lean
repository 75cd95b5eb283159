/-!
# Hash chains

Lists in which every item names the digest of the item before it.
-/

namespace Vyrm.Lib

variable {α δ : Type} {previous : α → Option δ} {digest : α → δ}

/-- The first item names `start`, and every other one the digest of the item before it. -/
def Linked (previous : α → Option δ) (digest : α → δ) : Option δ → List α → Prop
  | _, [] => True
  | start, item :: rest => previous item = start ∧ Linked previous digest (some (digest item)) rest

/-- What an item that is added to a chain names. -/
def tip (digest : α → δ) (start : Option δ) (items : List α) : Option δ :=
  (items.getLast?.map digest).or start

@[simp] theorem tip_nil (start : Option δ) : tip digest start [] = start := by simp [tip]

@[simp] theorem tip_cons (start : Option δ) (item : α) (rest : List α) :
    tip digest start (item :: rest) = tip digest (some (digest item)) rest := by
  cases rest with
  | nil => simp [tip]
  | cons next rest => simp [tip, List.getLast?_cons]

theorem linked_append (start : Option δ) (items more : List α) :
    Linked previous digest start (items ++ more) ↔
      Linked previous digest start items ∧ Linked previous digest (tip digest start items) more := by
  induction items generalizing start with
  | nil => simp [Linked]
  | cons item rest ih => simp [Linked, ih, and_assoc]

theorem linked_singleton (start : Option δ) (item : α) :
    Linked previous digest start [item] ↔ previous item = start := by simp [Linked]

end Vyrm.Lib
