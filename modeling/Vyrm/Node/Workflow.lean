import Vyrm.Node.Stack
import Vyrm.Node.Trace

/-!
# The workflow manifest

`crates/vyrm-node/src/workflow.rs`: the commands of a package manager that a project has declared. A command is
found by the name of its event, and then compared word by word.
-/

namespace Vyrm.Node
open Lib Vyrm.Core

/-- `WORKFLOW_FORMAT` (`workflow.rs:17`). -/
def workflowFormat : UInt32 := 1

/-- `SOURCE_ROUTING_REQUIREMENT` (`workflow.rs:19`). -/
def sourceRoutingRequirement : String := "source-routing"

/-- `VerificationPolicy` (`workflow.rs:23-26`). -/
inductive VerificationPolicy where
  | exitZero
  | observe
  deriving DecidableEq

/-- `WorkflowRule` (`workflow.rs:39-48`). -/
structure WorkflowRule where
  event : String
  command : List String
  allowArguments : Bool
  scope : String
  requiredProjections : List String
  maxSourceLagGenerations : UInt64
  verification : VerificationPolicy
  deriving DecidableEq

/-- `WorkflowManifest` (`workflow.rs:52-55`). -/
structure WorkflowManifest where
  format : UInt32
  workflows : List WorkflowRule
  deriving DecidableEq

/-- `WorkflowCatalog` (`workflow.rs:58-62`). -/
structure WorkflowCatalog where
  digest : String
  manifest : WorkflowManifest
  deriving DecidableEq

/-- `WorkflowAuthorization` (`workflow.rs:65-74`). -/
structure WorkflowAuthorization where
  event : String
  scope : ScopeId
  manifestDigest : String
  command : List String
  allowArguments : Bool
  requiredProjections : List String
  maxSourceLagGenerations : UInt64
  verification : VerificationPolicy
  deriving DecidableEq

/-- `WorkflowDifferential` (`workflow.rs:77-82`). -/
structure WorkflowDifferential where
  event : Option String
  actualCommand : String
  expected : List String
  differences : List String
  deriving DecidableEq

/-- `WorkflowDecision` (`workflow.rs:97-101`). -/
inductive WorkflowDecision where
  | notPackage
  | allow (authorization : WorkflowAuthorization)
  | deny (differential : WorkflowDifferential)
  deriving DecidableEq

/-- `InstanceManifest` (`instance.rs:24-29`). -/
structure InstanceManifest where
  id : String
  deriving DecidableEq

/-- `InstanceBinding` (`instance.rs:32-37`). -/
structure InstanceBinding where
  manifest : InstanceManifest
  deriving DecidableEq

/-! ## Words of a direct command -/

/-- `char::is_control`. -/
def isControl (c : Char) : Bool := c.toNat < 0x20 || (0x7f ≤ c.toNat && c.toNat < 0xa0)

/-- The characters that no word of a manifest has (`workflow.rs:414-417`). -/
def composing : List Char := [';', '|', '&', '>', '<', '\x60', '$', '(', ')', '\'', '"']

/-- `safe_manifest_word` (`workflow.rs:409-419`). -/
def safeManifestWord (word : String) : Bool :=
  word ≠ "" && !word.toList.any fun character =>
    isWhitespace character || isControl character || character ∈ composing

/-- `direct_words` (`workflow.rs:421-432`). -/
def directWords (command : String) : Except String (List String) :=
  let words := splitWhitespace command
  if words = [] then .error "command is empty"
  else if words.any fun word => !safeManifestWord word then
    .error "command contains quoting, expansion, redirection, or shell composition"
  else .ok words

/-- `render_rule_command` (`workflow.rs:397-407`). -/
def renderRuleCommand (rule : WorkflowRule) : String :=
  String.intercalate " " rule.command ++ if rule.allowArguments then " [arguments allowed]" else " [exact]"

/-! ## The manifest -/

namespace WorkflowRule

/-- The projections of a rule (`workflow.rs:246-262`), after those already read. -/
def validateProjections (rule : WorkflowRule) (read : List String) : List String → Except Error Unit
  | [] => .ok ()
  | projection :: rest =>
    let event := debugText rule.event
    let name := debugText projection
    if projection ∈ read then .error (.message s!"workflow {event} repeats projection {name}")
    else if projection ≠ sourceRoutingRequirement then
      .error (.message s!"workflow {event} requires unsupported projection {name}")
    else validateProjections rule (projection :: read) rest

/-- What one rule must satisfy (`workflow.rs:208-269`). -/
def validate (lower : ToLowercase) (rule : WorkflowRule) : Except Error Unit := do
  let event := debugText rule.event
  if rule.command = [] ∨ rule.command.any fun word => !safeManifestWord word then
    .error (.message s!"workflow {event} command must be non-empty direct argv without shell syntax")
  match packageRunEvent lower (String.intercalate " " rule.command) with
  | none => .error (.message s!"workflow {event} command is not a package lifecycle command")
  | some derived =>
    if Vague derived.action then
      .error (.message s!"workflow {event} command does not identify a concrete script or executable")
    if derived.canonicalSubject ≠ rule.event then
      let subject := debugText derived.canonicalSubject
      .error (.message s!"workflow event {event} differs from command-derived identity {subject}")
    let _ ← (Ident.new .runtimeScope rule.scope).mapError Error.kernel
    if rule.requiredProjections = [] then .error (.message s!"workflow {event} has no required projections")
    rule.validateProjections [] rule.requiredProjections
    if rule.maxSourceLagGenerations ≠ 0 then
      let lag := rule.maxSourceLagGenerations
      .error (.message s!"workflow {event} requests source lag {lag}; only strict zero-lag policy is implemented")

/-- Whether the words of a command are those that a rule allows (`workflow.rs:314-318`). -/
def commandMatches (rule : WorkflowRule) (actual : List String) : Bool :=
  if rule.allowArguments then rule.command.isPrefixOf actual else actual = rule.command

end WorkflowRule

namespace WorkflowCatalog

/-- The rules of a catalog (`workflow.rs:203-270`), after the events already read. -/
def validateRules (lower : ToLowercase) (events : List String) : List WorkflowRule → Except Error Unit
  | [] => .ok ()
  | rule :: rest => do
    if rule.event ∈ events then
      let event := debugText rule.event
      .error (.message s!"duplicate workflow event {event}")
    rule.validate lower
    validateRules lower (rule.event :: events) rest

/-- `validate` (`workflow.rs:192-272`). -/
def validate (lower : ToLowercase) (catalog : WorkflowCatalog) : Except Error Unit := do
  if catalog.manifest.format ≠ workflowFormat then
    let format := catalog.manifest.format
    .error (.message s!"unsupported workflow format {format} (expected {workflowFormat})")
  if catalog.manifest.workflows = [] then .error (.message "workflow manifest must declare at least one workflow")
  validateRules lower [] catalog.manifest.workflows

/-- `resolve` (`workflow.rs:274-348`). -/
def resolve (lower : ToLowercase) (catalog : WorkflowCatalog) (binding : InstanceBinding) (command : String) :
    Except Error WorkflowDecision :=
  match packageRunEvent lower command with
  | none => .ok .notPackage
  | some event =>
    let eventName := event.canonicalSubject
    let denied (expected differences : List String) : Except Error WorkflowDecision :=
      .ok (.deny { event := some eventName, actualCommand := command, expected, differences })
    match directWords command with
    | .error reason => denied ["one direct package-manager command without shell composition"] [reason]
    | .ok actual =>
      match catalog.manifest.workflows.find? fun rule => rule.event = eventName with
      | none =>
        denied (catalog.manifest.workflows.map (·.event)) ["package event is not declared by the project manifest"]
      | some rule =>
        if ¬ rule.commandMatches actual then
          denied [renderRuleCommand rule] ["actual argv does not match the declared command matcher"]
        else if rule.scope ≠ binding.manifest.id then
          let id := binding.manifest.id
          let declared := debugText rule.scope
          let bound := debugText id
          denied [s!"scope={id}"] [s!"declared scope {declared} is not the bound instance {bound}"]
        else do
          let scope ← (Ident.new .runtimeScope rule.scope).mapError Error.kernel
          return .allow
            { event := rule.event
              scope
              manifestDigest := catalog.digest
              command := rule.command
              allowArguments := rule.allowArguments
              requiredProjections := rule.requiredProjections
              maxSourceLagGenerations := rule.maxSourceLagGenerations
              verification := rule.verification }

end WorkflowCatalog

/-! ## What a valid manifest says -/

theorem safeManifestWord_iff {word : String} : safeManifestWord word = true ↔
    word ≠ "" ∧ ∀ c ∈ word.toList, isWhitespace c = false ∧ isControl c = false ∧ c ∉ composing := by
  simp only [safeManifestWord, Bool.and_eq_true, decide_eq_true_eq, Bool.not_eq_true', List.any_eq_false, Bool.or_eq_true,
    not_or, Bool.not_eq_true]
  refine and_congr_right fun _ => forall₂_congr fun c _ => ?_
  rw [and_assoc]

theorem directWords_ok {command : String} {words : List String} : directWords command = .ok words ↔
    words = splitWhitespace command ∧ words ≠ [] ∧ ∀ word ∈ words, safeManifestWord word = true := by
  unfold directWords
  by_cases empty : splitWhitespace command = []
  · simp only [empty, if_true, reduceCtorEq, false_iff, not_and]
    intro same none_
    exact absurd same none_
  · by_cases composed : (splitWhitespace command).any fun word => !safeManifestWord word
    · simp only [empty, if_false, composed, if_true, reduceCtorEq, false_iff, not_and]
      rintro rfl - safe
      obtain ⟨word, member, bad⟩ := List.any_eq_true.mp composed
      simp [safe word member] at bad
    · simp only [empty, if_false, composed, Bool.false_eq_true, Except.ok.injEq]
      have safe : ∀ word ∈ splitWhitespace command, safeManifestWord word = true := by
        intro word member
        by_contra bad
        exact composed (List.any_eq_true.mpr ⟨word, member, by simpa using bad⟩)
      constructor
      · rintro rfl
        exact ⟨rfl, empty, safe⟩
      · rintro ⟨rfl, -, -⟩
        rfl

/-- A rule that is named by its own command. -/
structure WorkflowRule.Named (lower : ToLowercase) (rule : WorkflowRule) : Prop where
  nonempty : rule.command ≠ []
  safe : ∀ word ∈ rule.command, safeManifestWord word = true
  event : ∃ event, wordsEvent lower rule.command = some event ∧ ¬ Vague event.action ∧
    event.canonicalSubject = rule.event
  scope : ∃ scope, Ident.new .runtimeScope rule.scope = .ok scope

/-- The words of a rule are read back from its command. -/
theorem splitWhitespace_command {command : List String} (safe : ∀ word ∈ command, safeManifestWord word = true) :
    splitWhitespace (String.intercalate " " command) = command := by
  refine splitWhitespace_intercalate fun word member => ?_
  obtain ⟨nonempty, plain⟩ := safeManifestWord_iff.mp (safe word member)
  exact ⟨nonempty, fun c inside => (plain c inside).1⟩

theorem WorkflowRule.named_of_validate {lower : ToLowercase} {rule : WorkflowRule} (valid : rule.validate lower = .ok ()) :
    rule.Named lower := by
  simp only [validate, except_error_bind, except_reject_ok, except_pure, not_or] at valid
  obtain ⟨⟨nonempty, composed⟩, valid⟩ := valid
  have safe : ∀ word ∈ rule.command, safeManifestWord word = true := by
    intro word member
    by_contra bad
    exact composed (List.any_eq_true.mpr ⟨word, member, by simpa using bad⟩)
  rw [packageRunEvent, splitWhitespace_command safe] at valid
  cases found : wordsEvent lower rule.command with
  | none => simp [found] at valid
  | some event =>
    simp only [found, except_bind_ok, except_reject_ok, not_not] at valid
    obtain ⟨clear, same, scope, made, -⟩ := valid
    refine ⟨nonempty, safe, ⟨event, found, clear, same⟩, ?_⟩
    cases named : Ident.new .runtimeScope rule.scope with
    | error e => simp [named, Except.mapError] at made
    | ok scope => exact ⟨scope, rfl⟩

/-- The rules are named by their commands, and the names differ. -/
theorem WorkflowCatalog.named_of_validateRules {lower : ToLowercase} {rules : List WorkflowRule} {events : List String}
    (valid : validateRules lower events rules = .ok ()) :
    (∀ rule ∈ rules, rule.Named lower ∧ rule.event ∉ events) ∧ (rules.map (·.event)).Nodup := by
  induction rules generalizing events with
  | nil => simp
  | cons rule rest ih =>
    simp only [validateRules, except_error_bind, except_bind_ok, except_reject_ok] at valid
    obtain ⟨fresh, ⟨⟩, checked, later⟩ := valid
    obtain ⟨named, apart⟩ := ih later
    constructor
    · intro other member
      rcases List.mem_cons.mp member with rfl | member
      · exact ⟨WorkflowRule.named_of_validate checked, fresh⟩
      · obtain ⟨here, new⟩ := named other member
        exact ⟨here, fun old => new (List.mem_cons_of_mem _ old)⟩
    · rw [List.map_cons, List.nodup_cons]
      refine ⟨fun again => ?_, apart⟩
      obtain ⟨other, member, same⟩ := List.mem_map.mp again
      exact (named other member).2 (same ▸ List.mem_cons_self ..)

/-! ## Resolving a command -/

/-- The words of a command are those of a rule, or go on after them where the rule allows it. -/
def WorkflowRule.Matches (rule : WorkflowRule) (words : List String) : Prop :=
  words = rule.command ∨ rule.allowArguments = true ∧ rule.command <+: words

theorem WorkflowRule.commandMatches_iff {rule : WorkflowRule} {words : List String} :
    rule.commandMatches words = true ↔ rule.Matches words := by
  unfold commandMatches Matches
  cases rule.allowArguments with
  | false => simp
  | true =>
    simp only [if_true, List.isPrefixOf_iff_prefix, true_and]
    exact (or_iff_right_of_imp fun same => same ▸ List.prefix_refl _).symm

theorem WorkflowRule.Matches.prefix_ {rule : WorkflowRule} {words : List String} (matches_ : rule.Matches words) :
    rule.command <+: words := by
  rcases matches_ with rfl | ⟨-, leads⟩
  · exact List.prefix_refl _
  · exact leads

/-- What a rule authorises. -/
structure WorkflowAuthorization.For (authorization : WorkflowAuthorization) (digest : String) (rule : WorkflowRule) :
    Prop where
  event : authorization.event = rule.event
  scope : authorization.scope.asStr = rule.scope
  manifestDigest : authorization.manifestDigest = digest
  command : authorization.command = rule.command
  allowArguments : authorization.allowArguments = rule.allowArguments
  requiredProjections : authorization.requiredProjections = rule.requiredProjections
  maxSourceLagGenerations : authorization.maxSourceLagGenerations = rule.maxSourceLagGenerations
  verification : authorization.verification = rule.verification

namespace WorkflowCatalog

/-- A command is allowed by the rule that its event names, when the words match and the scope is the bound one. -/
theorem resolve_allow {lower : ToLowercase} {catalog : WorkflowCatalog} {binding : InstanceBinding} {command : String}
    {authorization : WorkflowAuthorization} :
    catalog.resolve lower binding command = .ok (.allow authorization) ↔
      ∃ event words rule, packageRunEvent lower command = some event ∧ directWords command = .ok words ∧
        catalog.manifest.workflows.find? (fun rule => rule.event = event.canonicalSubject) = some rule ∧
        rule.Matches words ∧ rule.scope = binding.manifest.id ∧ authorization.For catalog.digest rule := by
  unfold resolve
  cases packageRunEvent lower command with
  | none => simp
  | some event =>
    cases directWords command with
    | error reason => simp
    | ok words =>
      cases found : catalog.manifest.workflows.find? (fun rule => rule.event = event.canonicalSubject) with
      | none => simp [found]
      | some rule =>
        simp only [found, Option.some.injEq, Except.ok.injEq, ← WorkflowRule.commandMatches_iff]
        by_cases matches_ : rule.commandMatches words = true
        · by_cases bound : rule.scope = binding.manifest.id
          · rw [if_neg (not_not.mpr matches_), if_neg (not_not.mpr bound)]
            constructor
            · intro made
              cases scoped_ : Ident.new .runtimeScope rule.scope with
              | error e =>
                rw [scoped_] at made
                cases made
              | ok scope =>
                rw [scoped_] at made
                cases made
                exact ⟨event, words, rule, rfl, rfl, found, matches_, bound, rfl, Ident.new_ok_iff.mp scoped_, rfl, rfl,
                  rfl, rfl, rfl, rfl⟩
            · rintro ⟨_, _, other, rfl, rfl, same, -, -, for_⟩
              obtain rfl := Option.some.inj (found.symm.trans same)
              have scope : Ident.new .runtimeScope rule.scope = .ok authorization.scope :=
                Ident.new_ok_iff.mpr for_.scope
              obtain ⟨_, _, _, _, _, _, _, _⟩ := authorization
              obtain ⟨rfl, -, rfl, rfl, rfl, rfl, rfl, rfl⟩ := for_
              rw [scope]
              rfl
          · rw [if_neg (not_not.mpr matches_), if_pos bound]
            simp only [Except.ok.injEq, reduceCtorEq, false_iff]
            rintro ⟨_, _, other, rfl, rfl, same, -, also, -⟩
            obtain rfl := Option.some.inj (found.symm.trans same)
            exact bound also
        · rw [if_pos matches_]
          simp only [Except.ok.injEq, reduceCtorEq, false_iff]
          rintro ⟨_, _, other, rfl, rfl, same, also, -, -⟩
          obtain rfl := Option.some.inj (found.symm.trans same)
          exact matches_ also

section

variable {lower : ToLowercase} {catalog : WorkflowCatalog} (valid : catalog.validate lower = .ok ())

include valid

theorem named_of_validate : (∀ rule ∈ catalog.manifest.workflows, rule.Named lower) ∧
    (catalog.manifest.workflows.map (·.event)).Nodup := by
  simp only [validate, except_error_bind, except_reject_ok] at valid
  obtain ⟨-, -, checked⟩ := valid
  obtain ⟨named, apart⟩ := named_of_validateRules checked
  exact ⟨fun rule member => (named rule member).1, apart⟩

/-- The words that match a rule have its event. -/
theorem event_of_matches {rule : WorkflowRule} (declared : rule ∈ catalog.manifest.workflows) {words : List String}
    (matches_ : rule.Matches words) :
    ∃ event, wordsEvent lower words = some event ∧ event.canonicalSubject = rule.event := by
  obtain ⟨event, found, clear, same⟩ := ((named_of_validate valid).1 rule declared).event
  exact ⟨event, wordsEvent_of_prefix found clear matches_.prefix_, same⟩

/-- Rules of one event are one rule. -/
theorem eq_of_event {rule other : WorkflowRule} (declared : rule ∈ catalog.manifest.workflows)
    (listed : other ∈ catalog.manifest.workflows) (same : rule.event = other.event) : rule = other :=
  List.inj_on_of_nodup_map (named_of_validate valid).2 declared listed same

theorem find_event {rule : WorkflowRule} (declared : rule ∈ catalog.manifest.workflows) :
    catalog.manifest.workflows.find? (fun other => other.event = rule.event) = some rule := by
  cases found : catalog.manifest.workflows.find? (fun other => other.event = rule.event) with
  | none =>
    have absent := List.find?_eq_none.mp found rule declared
    simp at absent
  | some other =>
    have same : other.event = rule.event := by simpa using List.find?_some found
    rw [eq_of_event valid (List.mem_of_find?_eq_some found) declared same]

/-- A command of safe words is allowed for a rule exactly when its words match the rule, within its scope. -/
theorem allow_iff (binding : InstanceBinding) {command : String}
    (safe : ∀ word ∈ splitWhitespace command, safeManifestWord word = true) {rule : WorkflowRule}
    (declared : rule ∈ catalog.manifest.workflows) :
    (∃ authorization, catalog.resolve lower binding command = .ok (.allow authorization) ∧
      authorization.For catalog.digest rule) ↔
    rule.Matches (splitWhitespace command) ∧ rule.scope = binding.manifest.id := by
  constructor
  · rintro ⟨authorization, allowed, for_⟩
    obtain ⟨event, words, other, -, direct, found, matches_, bound, also⟩ := resolve_allow.mp allowed
    obtain rfl := eq_of_event valid declared (List.mem_of_find?_eq_some found) (for_.event.symm.trans also.event)
    obtain ⟨rfl, -, -⟩ := directWords_ok.mp direct
    exact ⟨matches_, bound⟩
  · rintro ⟨matches_, bound⟩
    have named := (named_of_validate valid).1 rule declared
    obtain ⟨event, found, same⟩ := event_of_matches valid declared matches_
    obtain ⟨scope, made⟩ := named.scope
    have some_ : splitWhitespace command ≠ [] := by
      intro none_
      have leads := matches_.prefix_
      rw [none_, List.prefix_nil] at leads
      exact named.nonempty leads
    have first : catalog.manifest.workflows.find? (fun other => other.event = event.canonicalSubject) = some rule := by
      rw [same]
      exact find_event valid declared
    let authorization : WorkflowAuthorization :=
      { event := rule.event
        scope
        manifestDigest := catalog.digest
        command := rule.command
        allowArguments := rule.allowArguments
        requiredProjections := rule.requiredProjections
        maxSourceLagGenerations := rule.maxSourceLagGenerations
        verification := rule.verification }
    have for_ : authorization.For catalog.digest rule :=
      ⟨rfl, Ident.new_ok_iff.mp made, rfl, rfl, rfl, rfl, rfl, rfl⟩
    exact ⟨authorization, resolve_allow.mpr ⟨event, _, rule, found, directWords_ok.mpr ⟨rfl, some_, safe⟩, first, matches_,
      bound, for_⟩, for_⟩

end

end WorkflowCatalog

/-- Resolution matches the manifest: a command of safe words is allowed for a rule exactly when its words match and
the scope is bound, at most one rule matches any words, and each rule is reached by its own command. -/
theorem workflow_resolution (lower : ToLowercase) (catalog : WorkflowCatalog) (valid : catalog.validate lower = .ok ()) :
    (∀ (binding : InstanceBinding) (command : String),
      (∀ word ∈ splitWhitespace command, safeManifestWord word = true) → ∀ rule ∈ catalog.manifest.workflows,
      ((∃ authorization, catalog.resolve lower binding command = .ok (.allow authorization) ∧
        authorization.For catalog.digest rule) ↔
      rule.Matches (splitWhitespace command) ∧ rule.scope = binding.manifest.id)) ∧
    (∀ words, catalog.manifest.workflows.Pairwise fun rule other => ¬ (rule.Matches words ∧ other.Matches words)) ∧
    ∀ rule ∈ catalog.manifest.workflows, ∀ binding : InstanceBinding, binding.manifest.id = rule.scope →
      ∃ authorization, catalog.resolve lower binding (String.intercalate " " rule.command) = .ok (.allow authorization) ∧
        authorization.For catalog.digest rule := by
  refine ⟨fun _ _ safe _ declared => WorkflowCatalog.allow_iff valid _ safe declared, fun words => ?_, ?_⟩
  · have apart := List.pairwise_map.mp (WorkflowCatalog.named_of_validate valid).2
    refine apart.imp_of_mem fun declared listed differ both => differ ?_
    obtain ⟨event, found, same⟩ := WorkflowCatalog.event_of_matches valid declared both.1
    obtain ⟨other, also, names⟩ := WorkflowCatalog.event_of_matches valid listed both.2
    obtain rfl := Option.some.inj (found.symm.trans also)
    exact same.symm.trans names
  · intro rule declared binding bound
    have safe := ((WorkflowCatalog.named_of_validate valid).1 rule declared).safe
    have own := splitWhitespace_command safe
    exact (WorkflowCatalog.allow_iff valid binding (own.symm ▸ safe) declared).mpr ⟨.inl own, bound.symm⟩

/-! ## A manifest -/

/-- The lower case of ASCII letters only. -/
def asciiLowercase : ToLowercase := ⟨fun c => [c.toLower], fun _ _ => rfl⟩

def sampleRule : WorkflowRule :=
  { event := "package:pnpm:run:typecheck"
    command := ["pnpm", "run", "typecheck"]
    allowArguments := true
    scope := "app"
    requiredProjections := [sourceRoutingRequirement]
    maxSourceLagGenerations := 0
    verification := .exitZero }

def sampleCatalog : WorkflowCatalog :=
  { digest := "0", manifest := { format := workflowFormat, workflows := [sampleRule] } }

theorem sampleCatalog_valid : sampleCatalog.validate asciiLowercase = .ok () := by decide +kernel

/-- The declared command with an argument is allowed within its scope. -/
theorem workflow_resolution_sample : ∃ authorization,
    sampleCatalog.resolve asciiLowercase ⟨⟨"app"⟩⟩ "pnpm run typecheck --watch" = .ok (.allow authorization) ∧
      authorization.For "0" sampleRule := by
  have safe : ∀ word ∈ splitWhitespace "pnpm run typecheck --watch", safeManifestWord word = true := by decide +kernel
  have matches_ : sampleRule.Matches (splitWhitespace "pnpm run typecheck --watch") :=
    .inr ⟨rfl, ⟨["--watch"], by decide +kernel⟩⟩
  exact ((workflow_resolution asciiLowercase sampleCatalog sampleCatalog_valid).1 ⟨⟨"app"⟩⟩ _ safe sampleRule
    (List.mem_cons_self ..)).mpr ⟨matches_, rfl⟩

end Vyrm.Node
