import Mathlib.Data.List.Basic
import Mathlib.Data.List.TakeWhile

/-!
# Words between separators

The nonempty runs of a text between the characters that separate, over any type of characters.
-/

namespace Vyrm.Lib

variable {α : Type} {p q : α → Bool}

/-- The words of a text, separated by what `p` holds of. -/
def words (p : α → Bool) (text : List α) : List (List α) := (text.splitOnP p).filter fun word => !word.isEmpty

@[simp] theorem words_nil : words p [] = [] := by simp [words]

/-- A separator ends a word. -/
theorem words_append_cons (before after : List α) {sep : α} (separates : p sep = true) :
    words p (before ++ sep :: after) = words p before ++ words p after := by
  rw [words, List.splitOnP_append_cons before after separates, List.filter_append]
  rfl

theorem words_cons (after : List α) {sep : α} (separates : p sep = true) : words p (sep :: after) = words p after := by
  simpa using words_append_cons [] after separates

/-- A text without a separator is its only word. -/
theorem words_eq_singleton {word : List α} (nonempty : word ≠ []) (letters : ∀ c ∈ word, p c = false) :
    words p word = [word] := by
  rw [words, List.splitOnP_eq_singleton letters]
  simp [nonempty]

/-- A text is one word at most, or goes on after its first separator. -/
theorem separator_induction {motive : List α → Prop} (p : α → Bool)
    (last : ∀ word, (∀ c ∈ word, p c = false) → motive word)
    (next : ∀ word sep rest, (∀ c ∈ word, p c = false) → p sep = true → motive rest → motive (word ++ sep :: rest))
    (text : List α) : motive text := by
  induction long : text.length using Nat.strongRecOn generalizing text with
  | ind n ih =>
    have letters : ∀ c ∈ text.takeWhile (fun c => !p c), p c = false := by
      intro c member
      simpa using List.mem_takeWhile_imp member
    match ends : text.dropWhile (fun c => !p c) with
    | [] =>
      have whole : text.takeWhile (fun c => !p c) = text := by
        simpa [ends] using List.takeWhile_append_dropWhile (p := fun c => !p c) (l := text)
      exact last text (whole ▸ letters)
    | sep :: rest =>
      have whole : text.takeWhile (fun c => !p c) ++ sep :: rest = text := by
        rw [← ends, List.takeWhile_append_dropWhile]
      have separates : p sep = true := by
        have first := List.head_dropWhile_not (fun c => !p c) (l := text) (by simp [ends])
        simpa [ends] using first
      have shorter : rest.length < n := by
        rw [← long, ← whole, List.length_append, List.length_cons]
        omega
      rw [← whole]
      exact next _ sep rest letters separates (ih rest.length shorter rest rfl)

/-- A word is nonempty, and no separator is in it. -/
theorem letters_of_mem_words {text word : List α} (member : word ∈ words p text) :
    word ≠ [] ∧ ∀ c ∈ word, p c = false := by
  induction text using separator_induction p with
  | last piece letters =>
    by_cases empty : piece = []
    · simp [empty] at member
    · obtain rfl := List.mem_singleton.mp (words_eq_singleton empty letters ▸ member)
      exact ⟨empty, letters⟩
  | next piece sep rest letters separates ih =>
    rw [words_append_cons piece rest separates, List.mem_append] at member
    rcases member with first | later
    · by_cases empty : piece = []
      · simp [empty] at first
      · obtain rfl := List.mem_singleton.mp (words_eq_singleton empty letters ▸ first)
        exact ⟨empty, letters⟩
    · exact ih later

/-- Every character separates, or is of a word. -/
theorem separator_or_mem_words {text : List α} {c : α} (member : c ∈ text) :
    p c = true ∨ ∃ word ∈ words p text, c ∈ word := by
  induction text using separator_induction p with
  | last piece letters =>
    exact .inr ⟨piece, by simp [words_eq_singleton (List.ne_nil_of_mem member) letters], member⟩
  | next piece sep rest letters separates ih =>
    rw [words_append_cons piece rest separates]
    rcases List.mem_append.mp member with first | later
    · exact .inr ⟨piece, by simp [words_eq_singleton (List.ne_nil_of_mem first) letters], first⟩
    · rcases List.mem_cons.mp later with rfl | later
      · exact .inl separates
      · rcases ih later with here | ⟨word, listed, inside⟩
        · exact .inl here
        · exact .inr ⟨word, List.mem_append_right _ listed, inside⟩

/-- More separators cut the words of fewer. -/
theorem words_eq_flatMap (finer : ∀ c, p c = true → q c = true) (text : List α) :
    words q text = (words p text).flatMap (words q) := by
  induction text using separator_induction p with
  | last piece letters =>
    by_cases empty : piece = []
    · simp [empty]
    · simp [words_eq_singleton empty letters]
  | next piece sep rest letters separates ih =>
    rw [words_append_cons piece rest separates, words_append_cons piece rest (finer sep separates), List.flatMap_append,
      ← ih]
    by_cases empty : piece = []
    · simp [empty]
    · simp [words_eq_singleton empty letters]

/-- Words that are joined by a separator are read back. -/
theorem words_intercalate {sep : α} (separates : p sep = true) {listed : List (List α)}
    (proper : ∀ word ∈ listed, word ≠ [] ∧ ∀ c ∈ word, p c = false) :
    words p ([sep].intercalate listed) = listed := by
  induction listed with
  | nil => simp
  | cons word rest ih =>
    obtain ⟨nonempty, letters⟩ := proper word (List.mem_cons_self ..)
    have later := ih fun other member => proper other (List.mem_cons_of_mem _ member)
    cases rest with
    | nil => simp [words_eq_singleton nonempty letters]
    | cons other rest =>
      rw [List.intercalate_cons_cons, List.append_assoc, List.singleton_append, words_append_cons _ _ separates,
        words_eq_singleton nonempty letters, later]
      rfl

/-- The words that a text begins with are the same with fewer separators exactly when none of the others is in
them. -/
theorem prefix_words_iff (finer : ∀ c, p c = true → q c = true) {text : List α} {lead : List (List α)}
    (leads : lead <+: words q text) : lead <+: words p text ↔
      ∀ word ∈ (words p text).take lead.length, ∀ c ∈ word, q c = false := by
  constructor
  · rintro ⟨rest, whole⟩ word member c inside
    rw [← whole, List.take_left] at member
    exact (letters_of_mem_words (leads.subset member)).2 c inside
  · intro plain
    have cut := words_eq_flatMap finer text
    rw [← List.take_append_drop lead.length (words p text), List.flatMap_append] at cut
    have same : ((words p text).take lead.length).flatMap (words q) = (words p text).take lead.length := by
      have each : ∀ word ∈ (words p text).take lead.length, words q word = [word] := by
        intro word member
        have nonempty := (letters_of_mem_words (List.mem_of_mem_take member)).1
        exact words_eq_singleton nonempty (plain word member)
      rw [List.flatMap_congr each, List.flatMap_singleton']
    rw [same] at cut
    rw [cut] at leads
    by_cases short : (words p text).length < lead.length
    · -- nothing is left to separate, and the text has fewer words than it begins with
      rw [List.drop_eq_nil_of_le (by omega), List.flatMap_nil, List.append_nil] at leads
      have := leads.length_le
      rw [List.length_take] at this
      omega
    · have long : ((words p text).take lead.length).length = lead.length := by
        rw [List.length_take]
        omega
      have within := List.prefix_of_prefix_length_le leads (List.prefix_append _ _) (Nat.le_of_eq long.symm)
      rw [within.eq_of_length long.symm]
      exact List.take_prefix _ _

end Vyrm.Lib
