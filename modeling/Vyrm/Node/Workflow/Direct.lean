import Vyrm.Node.Workflow

/-!
# Direct commands

What a shell makes of a command that the manifest allows. The words are checked after the command is split at all
white space, and a newline is white space.
-/

namespace Vyrm.Node
open Lib Vyrm.Core

/-- What separates the words of a command for a shell. -/
def isBlank (c : Char) : Bool := c = ' ' || c = '\t'

/-- The words of a command for a shell, as far as it meets no operator, quoting or comment in it. -/
def shellWords (command : String) : List String := (words isBlank command.toList).map String.ofList

/-- A shell runs the command of a rule, and nothing else. -/
structure WorkflowRule.Direct (rule : WorkflowRule) (command : String) : Prop where
  alone : ∀ c ∈ command.toList, c ∉ shellCharacters
  leads : rule.command <+: shellWords command

/-- White space that a shell does not take for a blank is not where it matters: no line ends, and the words that the
rule asks for are apart by blanks. -/
structure WorkflowRule.Blank (rule : WorkflowRule) (command : String) : Prop where
  newline : '\n' ∉ command.toList
  carriageReturn : '\r' ∉ command.toList
  apart : ∀ word ∈ (shellWords command).take rule.command.length, ∀ c ∈ word.toList, isWhitespace c = false

/-- The characters of a command of safe words are white space, or do not compose. -/
theorem whitespace_of_composing {command : String} {listed : List String} (direct : directWords command = .ok listed)
    {c : Char} (member : c ∈ command.toList) (composes : c ∈ composing) : isWhitespace c = true := by
  obtain ⟨rfl, -, safe⟩ := directWords_ok.mp direct
  rcases separator_or_mem_words (p := isWhitespace) member with white | ⟨word, here, inside⟩
  · exact white
  · have known : String.ofList word ∈ splitWhitespace command := by
      rw [splitWhitespace_eq]
      exact List.mem_map_of_mem here
    have plain := (safeManifestWord_iff.mp (safe _ known)).2 c (by simpa using inside)
    exact absurd composes plain.2.2

/-- A command of safe words has no shell character but the ends of lines. -/
theorem alone_iff {command : String} {listed : List String} (direct : directWords command = .ok listed) :
    (∀ c ∈ command.toList, c ∉ shellCharacters) ↔ '\n' ∉ command.toList ∧ '\r' ∉ command.toList := by
  constructor
  · intro alone
    exact ⟨fun member => alone _ member (by decide), fun member => alone _ member (by decide)⟩
  · rintro ⟨newline, carriageReturn⟩ c member shell
    have kinds : (shellCharacters.all fun c => c = '\n' ∨ c = '\r' ∨ c ∈ composing ∧ isWhitespace c = false) = true := by
      decide
    rcases of_decide_eq_true (List.all_eq_true.mp kinds c shell) with rfl | rfl | ⟨composes, black⟩
    · exact newline member
    · exact carriageReturn member
    · rw [whitespace_of_composing direct member composes] at black
      cases black

/-- The words of a rule lead a command of safe words for the shell too when its words are apart by blanks. -/
theorem leads_iff {command : String} {rule : WorkflowRule} (leads : rule.command <+: splitWhitespace command) :
    rule.command <+: shellWords command ↔
      ∀ word ∈ (shellWords command).take rule.command.length, ∀ c ∈ word.toList, isWhitespace c = false := by
  have finer : ∀ c, isBlank c = true → isWhitespace c = true := by
    intro c blank
    simp only [isBlank, Bool.or_eq_true, decide_eq_true_eq] at blank
    rcases blank with rfl | rfl
    · decide
    · decide
  obtain ⟨lead, same⟩ : ∃ lead : List (List Char), rule.command = lead.map String.ofList :=
    ⟨rule.command.map String.toList, by simp [Function.comp_def]⟩
  have ofList_inj : Function.Injective String.ofList := fun a b same => String.ofList_injective same
  rw [splitWhitespace_eq, same, List.prefix_map_iff_of_injective ofList_inj] at leads
  rw [shellWords, same, List.prefix_map_iff_of_injective ofList_inj, prefix_words_iff finer leads, List.length_map,
    ← List.map_take, List.forall_mem_map]
  simp only [String.toList_ofList]

/-- The declared command is allowed with any safe words after it. -/
theorem sampleCatalog_allows {command : String} {more : List String}
    (whole : splitWhitespace command = sampleRule.command ++ more) (safe : ∀ word ∈ more, safeManifestWord word = true) :
    ∃ authorization, sampleCatalog.resolve asciiLowercase ⟨⟨"app"⟩⟩ command = .ok (.allow authorization) ∧
      authorization.For sampleCatalog.digest sampleRule := by
  have declared : sampleRule ∈ sampleCatalog.manifest.workflows := List.mem_cons_self ..
  have own : ∀ word ∈ sampleRule.command, safeManifestWord word = true := by decide +kernel
  have all_ : ∀ word ∈ splitWhitespace command, safeManifestWord word = true := by
    intro word member
    rw [whole, List.mem_append] at member
    exact member.elim (own word) (safe word)
  have matches_ : sampleRule.Matches (splitWhitespace command) := .inr ⟨rfl, whole ▸ List.prefix_append _ _⟩
  exact (WorkflowCatalog.allow_iff sampleCatalog_valid _ all_ declared).mpr ⟨matches_, rfl⟩

end Vyrm.Node
