import Vyrm.Lib.Mvcc

/-!
# Retention over time

A store of versions that drops some of them now and then, each time with regard
to another set of protected snapshots, and grows in between. `retained` is one
such drop as a function. A snapshot that every drop has spared is still
answered, up to deletions that leave no trace when nothing live is left.
-/

namespace Vyrm.Lib.Mvcc

variable {K V : Type} [Sequenced V] [DecidableEq K] {isProtected : Nat → Prop} {live : V → Prop}
  {entries kept later : List (K × V)} {key : K} {s head : Nat}

/-- The entries that some protected snapshot reads, of the keys of which one such snapshot reads a
live version. -/
def retained [DecidableEq V] (sequences : List Nat) (live : V → Bool) (entries : List (K × V)) :
    List (K × V) :=
  entries.filter fun entry =>
    sequences.any (fun s => newest entries entry.1 s = some entry.2) &&
      sequences.any fun s => (newest entries entry.1 s).any live

theorem retains_retained [DecidableEq V] (sequences : List Nat) (live : V → Bool)
    (entries : List (K × V)) :
    Retains (· ∈ sequences) (fun v => live v = true) entries (retained sequences live entries) := by
  intro key v
  simp only [retained, List.mem_filter, Bool.and_eq_true, List.any_eq_true, decide_eq_true_eq,
    Option.any_eq_true]
  constructor
  · rintro ⟨-, ⟨s, member, found⟩, s', member', u, found', alive⟩
    exact ⟨⟨s, member, found⟩, s', u, member', found', alive⟩
  · rintro ⟨⟨s, member, found⟩, s', u, member', found', alive⟩
    exact ⟨mem_versionsOf.mp (select_isNewest found).mem, ⟨s, member, found⟩, s', member', u,
      found', alive⟩

/-- What is retained depends on which entries there are, not on where they lie. -/
theorem Retains.congr {others : List (K × V)} (agree : ∀ key, Agree (versionsOf key entries))
    (same : ∀ e, e ∈ entries ↔ e ∈ others) (retains : Retains isProtected live entries kept) :
    Retains isProtected live others kept := by
  intro key v
  have answers : ∀ s, Mvcc.newest others key s = Mvcc.newest entries key s := by
    intro s
    symm
    apply select_congr (agree key)
    intro u
    rw [mem_versionsOf, mem_versionsOf, same]
  simp only [answers]
  exact retains key v

theorem Retains.unique {others : List (K × V)} (retains : Retains isProtected live entries kept)
    (also : Retains isProtected live entries others) : ∀ e, e ∈ kept ↔ e ∈ others := by
  rintro ⟨key, v⟩
  rw [retains, also]

/-- A snapshot at or above all entries reads what the newest snapshot reads. -/
theorem newest_of_le_head (below : ∀ e ∈ entries, Sequenced.sequence e.2 ≤ head)
    (above : head ≤ s) : newest entries key s = newest entries key head := by
  have visible : ∀ v ∈ versionsOf key entries, Sequenced.sequence v ≤ head :=
    fun v member => below _ (mem_versionsOf.mp member)
  unfold newest
  generalize versionsOf key entries = versions at visible
  induction versions with
  | nil => rfl
  | cons v rest ih =>
    have first := visible v List.mem_cons_self
    rw [select, select, if_pos first, if_pos (Nat.le_trans first above),
      ih fun u member => visible u (List.mem_cons_of_mem _ member)]

/-! ## Answers that a drop leaves alone -/

/-- `kept` answers a read as `entries` does, or it finds nothing where `entries` has nothing
live. -/
def Answers (live : V → Prop) (entries kept : List (K × V)) (key : K) (s : Nat) : Prop :=
  newest kept key s = newest entries key s ∨
    newest kept key s = none ∧ ∀ u, newest entries key s = some u → ¬ live u

/-- Entries that are newer than all others are added on both sides. -/
theorem Answers.append (answers : Answers live entries kept key s)
    (subset : ∀ e ∈ kept, e ∈ entries)
    (newer : ∀ e ∈ entries, ∀ e' ∈ later, Sequenced.sequence e.2 < Sequenced.sequence e'.2) :
    Answers live (entries ++ later) (kept ++ later) key s := by
  unfold Answers
  rw [newest_append, newest_append]
  cases found : newest later key s with
  | none =>
    rw [keep_none, keep_none]
    exact answers
  | some v =>
    have above : ∀ {xs : List (K × V)}, (∀ e ∈ xs, e ∈ entries) →
        keep (newest xs key s) (some v) = some v := by
      intro xs inside
      rw [← found]
      refine (keep_eq_of_newer ?_ found).trans found.symm
      exact fun u hu w hw => newer _ (inside _ (mem_versionsOf.mp hu)) _ (mem_versionsOf.mp hw)
    exact .inl (by rw [above subset, above fun _ h => h])

/-- A drop that protects the snapshot. -/
theorem Answers.retains {fewer : List (K × V)} (answers : Answers live entries kept key s)
    (retains : Retains isProtected live kept fewer) (agree : Agree (versionsOf key kept))
    (protected_ : isProtected s) : Answers live entries fewer key s := by
  rcases retains.newest agree protected_ with same | ⟨gone, dead⟩
  · unfold Answers
    rw [same]
    exact answers
  · right
    refine ⟨gone, ?_⟩
    rcases answers with same | ⟨-, dead'⟩
    · rw [← same]
      exact dead
    · exact dead'

/-- A snapshot above all entries is answered as the newest one is. -/
theorem answers_of_head (subset : ∀ e ∈ kept, e ∈ entries)
    (below : ∀ e ∈ entries, Sequenced.sequence e.2 ≤ head) (above : head ≤ s) :
    Answers live entries kept key s ↔ Answers live entries kept key head := by
  unfold Answers
  rw [newest_of_le_head below above, newest_of_le_head (fun e member => below e (subset e member)) above]

end Vyrm.Lib.Mvcc
