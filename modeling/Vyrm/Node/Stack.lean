import Vyrm.Lib.Words
import Vyrm.Node.Policy

/-!
# Package lifecycle events

`package_run_event` of `crates/vyrm-node/src/stack.rs`: the name under which a command of a package manager is
known, which the first words of the command decide.
-/

namespace Vyrm.Node
open Lib Vyrm.Core

/-- `PackageManager` (`stack.rs:27-32`). -/
inductive PackageManager where
  | bun
  | pnpm
  | npm
  | yarn
  deriving DecidableEq

/-- `canonical_name` (`stack.rs:35-42`). -/
def PackageManager.canonicalName : PackageManager → String
  | .bun => "bun"
  | .pnpm => "pnpm"
  | .npm => "npm"
  | .yarn => "yarn"

/-- `PackageRunEvent` (`stack.rs:48-51`). -/
structure PackageRunEvent where
  manager : PackageManager
  action : String
  deriving DecidableEq

/-- `canonical_subject` (`stack.rs:54-56`). -/
def PackageRunEvent.canonicalSubject (event : PackageRunEvent) : String :=
  let manager := event.manager.canonicalName
  let action := event.action
  s!"package:{manager}:{action}"

/-- `char::to_lowercase`, as one version of Unicode has it. The ASCII characters are the same in all. -/
structure ToLowercase where
  apply : Char → List Char
  ascii : ∀ c, c.toNat < 128 → apply c = [c.toLower]

/-- `canonical_fragment` (`stack.rs:272-292`), over the characters read so far: what is pushed, and whether a
separator was. -/
def pushFragment : List Char × Bool → Char → List Char × Bool
  | (out, separator), character =>
    if character.isAlphanum ∨ character ∈ ['-', '_', '.'] then (out ++ [character], false)
    else if separator = false ∧ out ≠ [] then (out ++ ['-'], true)
    else (out, separator)

/-- `canonical_fragment` (`stack.rs:272-292`). -/
def canonicalFragment (lower : ToLowercase) (value : String) : String :=
  let out := ((value.toList.flatMap lower.apply).foldl pushFragment ([], false)).1
  let out := (out.reverse.dropWhile (· = '-')).reverse
  if out = [] then "unknown" else String.ofList out

/-- The manager of an executable (`stack.rs:244-250`). -/
def managerOf (executable : String) : Option PackageManager :=
  if executable = "bun" ∨ executable = "bunx" then some .bun
  else if executable = "pnpm" then some .pnpm
  else if executable = "npm" ∨ executable = "npx" then some .npm
  else if executable = "yarn" then some .yarn
  else none

/-- The action of an executable and the words after it (`stack.rs:251-268`). -/
def actionOf (lower : ToLowercase) (executable : String) (words : List String) : Option String :=
  if executable = "bunx" ∨ executable = "npx" then
    let fragment := canonicalFragment lower (words.head?.getD "unknown")
    some s!"exec:{fragment}"
  else
    match words with
    | [] => none
    | verb :: rest =>
      if verb = "run" then
        match rest with
        | script :: _ =>
          if script.toList.head? ≠ some '-' then
            let fragment := canonicalFragment lower script
            some s!"run:{fragment}"
          else some "run"
        | [] => some "run"
      else some (canonicalFragment lower verb)

/-- `package_run_event` (`stack.rs:242-270`), of the words of a command. -/
def wordsEvent (lower : ToLowercase) : List String → Option PackageRunEvent
  | [] => none
  | executable :: words => do
    let manager ← managerOf executable
    let action ← actionOf lower executable words
    return { manager, action }

/-- `package_run_event` (`stack.rs:242-270`). -/
def packageRunEvent (lower : ToLowercase) (command : String) : Option PackageRunEvent :=
  wordsEvent lower (splitWhitespace command)

/-- An action that does not identify a script or an executable (`workflow.rs:223-225`). -/
def Vague (action : String) : Prop :=
  action = "run" ∨ action = "unknown" ∨ ":unknown".toList <:+ action.toList

instance (action : String) : Decidable (Vague action) := inferInstanceAs (Decidable (_ ∨ _))

/-! ## Words -/

theorem splitWhitespace_eq (text : String) :
    splitWhitespace text = (words isWhitespace text.toList).map String.ofList := by
  have same : ∀ word : List Char, decide (word ≠ []) = !word.isEmpty := by
    intro word
    cases word with
    | nil => rfl
    | cons c word => simp
  simp only [splitWhitespace, words, same]

/-- Words that are joined by blanks are read back. -/
theorem splitWhitespace_intercalate {listed : List String}
    (proper : ∀ word ∈ listed, word ≠ "" ∧ ∀ c ∈ word.toList, isWhitespace c = false) :
    splitWhitespace (String.intercalate " " listed) = listed := by
  have letters : ∀ word ∈ listed.map String.toList, word ≠ [] ∧ ∀ c ∈ word, isWhitespace c = false := by
    intro chars member
    obtain ⟨word, here, rfl⟩ := List.mem_map.mp member
    obtain ⟨nonempty, plain⟩ := proper word here
    exact ⟨by simpa using nonempty, plain⟩
  rw [splitWhitespace_eq, String.toList_intercalate]
  change (words isWhitespace ([' '].intercalate (listed.map String.toList))).map String.ofList = listed
  rw [words_intercalate (by decide) letters, List.map_map]
  simp [Function.comp_def]

/-! ## Events and further words -/

theorem canonicalFragment_unknown (lower : ToLowercase) : canonicalFragment lower "unknown" = "unknown" := by
  have same : "unknown".toList.flatMap lower.apply = "unknown".toList := by
    have each : ∀ c ∈ "unknown".toList, lower.apply c = [c] := by
      have small : ("unknown".toList.all fun c => c.toNat < 128 ∧ c.toLower = c) = true := by decide
      intro c member
      obtain ⟨ascii, low⟩ := of_decide_eq_true (List.all_eq_true.mp small c member)
      rw [lower.ascii c ascii, low]
    rw [List.flatMap_congr each, List.flatMap_singleton']
  rw [canonicalFragment, same]
  decide

/-- Further words do not change an action that identifies something. -/
theorem actionOf_append {lower : ToLowercase} {executable action : String} {words : List String}
    (found : actionOf lower executable words = some action) (clear : ¬ Vague action) (more : List String) :
    actionOf lower executable (words ++ more) = some action := by
  unfold actionOf at found ⊢
  by_cases runs : executable = "bunx" ∨ executable = "npx"
  · rw [if_pos runs] at found ⊢
    cases words with
    | nil =>
      -- the name of no executable is vague
      simp only [List.head?_nil, Option.getD_none, canonicalFragment_unknown, Option.some.injEq] at found
      subst found
      exact absurd (by decide) clear
    | cons word words => exact found
  · rw [if_neg runs] at found ⊢
    cases words with
    | nil => cases found
    | cons verb words =>
      simp only [List.cons_append] at found ⊢
      by_cases scripted : verb = "run"
      · rw [if_pos scripted] at found ⊢
        cases words with
        | nil =>
          obtain rfl := Option.some.inj found
          exact absurd (.inl rfl) clear
        | cons script words => exact found
      · rw [if_neg scripted] at found ⊢
        exact found

/-- Further words do not change an event that identifies something. -/
theorem wordsEvent_of_prefix {lower : ToLowercase} {event : PackageRunEvent} {lead words : List String}
    (found : wordsEvent lower lead = some event) (clear : ¬ Vague event.action) (extends_ : lead <+: words) :
    wordsEvent lower words = some event := by
  obtain ⟨more, rfl⟩ := extends_
  cases lead with
  | nil => cases found
  | cons executable lead =>
    simp only [wordsEvent, Option.bind_eq_bind, Option.bind_eq_some_iff, Option.pure_def, Option.some.injEq,
      List.cons_append] at found ⊢
    obtain ⟨manager, known, action, does, rfl⟩ := found
    exact ⟨manager, known, action, actionOf_append does clear more, rfl⟩

end Vyrm.Node
