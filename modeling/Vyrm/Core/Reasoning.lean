import Vyrm.Core.Runtime.Graph
import Vyrm.Lib.Path

/-!
# Reasoning runs

`crates/vyrm-core/src/reasoning.rs`: the ledger of a reasoning run, whose state is
derived from its events, and the replay of a stored ledger.
-/

namespace Vyrm.Core
open Lib

/-- `Evidence` (`reasoning.rs:15-21`). -/
structure Evidence where
  source : String
  digest : String
  summary : String
  deriving DecidableEq

/-- `CheckStatus` (`reasoning.rs:25-28`). -/
inductive CheckStatus where
  | passed
  | failed
  deriving DecidableEq

/-- `Check` (`reasoning.rs:31-36`). -/
structure Check where
  name : String
  status : CheckStatus
  evidence : List Evidence
  deriving DecidableEq

/-- `DecisionKind` (`reasoning.rs:40-44`). -/
inductive DecisionKind where
  | «continue»
  | verify
  | stop
  deriving DecidableEq

/-- `RunOutcome` (`reasoning.rs:48-52`). -/
inductive RunOutcome where
  | succeeded
  | failed
  | blocked
  deriving DecidableEq

/-- `ReasoningPayload` (`reasoning.rs:55-84`). -/
inductive ReasoningPayload where
  | goal (statement : String) (acceptance : List String)
  | plan (hypothesis : String) (steps : List String)
  | attempt (summary : String) (actions : List String)
  | observation (summary : String) (evidence : List Evidence)
  | decision (decision : DecisionKind) (rationale : String)
  | verification (checks : List Check)
  | outcome (outcome : RunOutcome) (summary : String)
  deriving DecidableEq

/-- `ReasoningPayload::name` (`reasoning.rs:87-97`). -/
def ReasoningPayload.name : ReasoningPayload → String
  | .goal _ _ => "goal"
  | .plan _ _ => "plan"
  | .attempt _ _ => "attempt"
  | .observation _ _ => "observation"
  | .decision _ _ => "decision"
  | .verification _ => "verification"
  | .outcome _ _ => "outcome"

/-- `ReasoningEvent` (`reasoning.rs:101-110`). -/
structure ReasoningEvent where
  runId : String
  ordinal : UInt64
  at_ : Millis
  actor : String
  payload : ReasoningPayload
  previousDigest : Option String
  digest : String
  deriving DecidableEq

/-- `ReasoningState` (`reasoning.rs:114-124`). -/
inductive ReasoningState where
  | empty
  | needsPlan
  | needsAttempt
  | needsObservation
  | needsDecision
  | needsVerification
  | needsPostVerificationDecision
  | needsOutcome
  | complete
  deriving DecidableEq

/-- The name a state is shown under. -/
def ReasoningState.shown : ReasoningState → String
  | .empty => "Empty"
  | .needsPlan => "NeedsPlan"
  | .needsAttempt => "NeedsAttempt"
  | .needsObservation => "NeedsObservation"
  | .needsDecision => "NeedsDecision"
  | .needsVerification => "NeedsVerification"
  | .needsPostVerificationDecision => "NeedsPostVerificationDecision"
  | .needsOutcome => "NeedsOutcome"
  | .complete => "Complete"

/-- `ContractError` (`reasoning.rs:127`). -/
structure ContractError where
  text : String
  deriving DecidableEq

/-- `ReasoningRun` (`reasoning.rs:138-143`). -/
structure ReasoningRun where
  id : String
  events : List ReasoningEvent
  state : ReasoningState
  lastVerificationPassed : Option Bool
  deriving DecidableEq

/-! ## Checks -/

namespace Reasoning

/-- `validate_text` (`reasoning.rs:278-284`). -/
def validateText (field value : String) : Except ContractError Unit :=
  if trimIsEmpty value then .error ⟨field ++ " must not be empty"⟩ else .ok ()

/-- `validate_evidence` (`reasoning.rs:286-293`). -/
def validateEvidence (evidence : Evidence) : Except ContractError Unit := do
  validateText "evidence.source" evidence.source
  validateText "evidence.summary" evidence.summary
  if (utf8 evidence.digest).length ≠ 64 ∨ ¬ (utf8 evidence.digest).all isHexDigit then
    throw ⟨"evidence.digest must be a SHA-256 hex digest"⟩

/-- `validate_payload` (`reasoning.rs:295-333`). -/
def validatePayload : ReasoningPayload → Except ContractError Unit
  | .goal statement acceptance => do
    validateText "goal.statement" statement
    if acceptance = [] then throw ⟨"goal.acceptance must not be empty"⟩
    acceptance.forM fun value => validateText "goal.acceptance" value
  | .plan hypothesis steps => do
    validateText "plan.hypothesis" hypothesis
    if steps = [] then throw ⟨"plan.steps must not be empty"⟩
    steps.forM fun value => validateText "plan.steps" value
  | .attempt summary actions => do
    validateText "attempt.summary" summary
    actions.forM fun value => validateText "attempt.actions" value
  | .observation summary evidence => do
    validateText "observation.summary" summary
    if evidence = [] then throw ⟨"observation.evidence must not be empty"⟩
    evidence.forM validateEvidence
  | .decision _ rationale => validateText "decision.rationale" rationale
  | .verification checks => do
    if checks = [] then throw ⟨"verification.checks must not be empty"⟩
    checks.forM fun check => do
      validateText "verification.check.name" check.name
      if check.evidence = [] then
        throw ⟨"every verification check must cite content-addressed evidence"⟩
      check.evidence.forM validateEvidence
  | .outcome _ summary => validateText "outcome.summary" summary

/-- Every check of a verification passed. -/
def allPassed (checks : List Check) : Bool := checks.all fun check => check.status = .passed

/-- `transition` (`reasoning.rs:235-276`). -/
def transition (state : ReasoningState) (lastVerificationPassed : Option Bool)
    (payload : ReasoningPayload) : Except ContractError ReasoningState :=
  match state, payload with
  | .empty, .goal _ _ => .ok .needsPlan
  | .needsPlan, .plan _ _ => .ok .needsAttempt
  | .needsAttempt, .attempt _ _ => .ok .needsObservation
  | .needsObservation, .observation _ _ => .ok .needsDecision
  | .needsDecision, .decision .continue _ => .ok .needsAttempt
  | .needsDecision, .decision .verify _ => .ok .needsVerification
  | .needsDecision, .decision .stop _ => .ok .needsVerification
  | .needsVerification, .verification checks =>
    if allPassed checks then .ok .needsOutcome else .ok .needsPostVerificationDecision
  | .needsPostVerificationDecision, .decision .continue _ => .ok .needsAttempt
  | .needsPostVerificationDecision, .decision .stop _ => .ok .needsOutcome
  | .needsOutcome, .outcome outcome _ =>
    match lastVerificationPassed, outcome with
    | some true, .succeeded => .ok .complete
    | some false, .failed => .ok .complete
    | some false, .blocked => .ok .complete
    | some true, .failed => .ok .complete
    | some true, .blocked => .ok .complete
    | _, _ => .error ⟨"outcome contradicts verification evidence"⟩
  | state, payload =>
    .error ⟨payload.name ++ " is invalid while reasoning run is " ++ state.shown⟩

/-! ## Digests -/

/-- `vyrm-reasoning-event-v1\0`. -/
def domain : Bytes :=
  [0x76, 0x79, 0x72, 0x6d, 0x2d, 0x72, 0x65, 0x61, 0x73, 0x6f, 0x6e, 0x69, 0x6e, 0x67, 0x2d, 0x65,
   0x76, 0x65, 0x6e, 0x74, 0x2d, 0x76, 0x31, 0x00]

/-- A list: its length and the encodings of its elements. -/
def counted {α : Type} (encode : α → Bytes) (values : List α) : Bytes :=
  be64 (UInt64.ofNat values.length) ++ values.flatMap encode

/-- `strings` (`reasoning.rs:347-350`). -/
def strings : List String → Bytes := counted text

/-- `evidence` (`reasoning.rs:351-358`). -/
def evidence : List Evidence → Bytes :=
  counted fun value => text value.source ++ text value.digest ++ text value.summary

/-- `*decision as u8`. -/
def decisionTag : DecisionKind → UInt8
  | .continue => 0
  | .verify => 1
  | .stop => 2

/-- `check.status as u8`. -/
def statusTag : CheckStatus → UInt8
  | .passed => 0
  | .failed => 1

/-- `*outcome as u8`. -/
def outcomeTag : RunOutcome → UInt8
  | .succeeded => 0
  | .failed => 1
  | .blocked => 2

/-- The bytes of a payload (`reasoning.rs:364-376`). -/
def payloadBytes : ReasoningPayload → Bytes
  | .goal statement acceptance => [0] ++ text statement ++ strings acceptance
  | .plan hypothesis steps => [1] ++ text hypothesis ++ strings steps
  | .attempt summary actions => [2] ++ text summary ++ strings actions
  | .observation summary values => [3] ++ text summary ++ evidence values
  | .decision decision rationale => [4, decisionTag decision] ++ text rationale
  | .verification checks => [5] ++ counted
      (fun check => text check.name ++ [statusTag check.status] ++ evidence check.evidence) checks
  | .outcome outcome summary => [6, outcomeTag outcome] ++ text summary

/-- `event_digest` (`reasoning.rs:335-380`). -/
def eventDigest (runId : String) (ordinal : UInt64) (at_ : Millis) (actor : String)
    (payload : ReasoningPayload) (previous : Option String) : String :=
  sha256Hex (domain ++ text runId ++ be64 ordinal ++ be64 at_ ++ text actor ++ payloadBytes payload ++
    optionalText previous)

end Reasoning

/-! ## Runs -/

namespace ReasoningRun
open Reasoning

/-- `empty` (`reasoning.rs:146-158`). -/
def empty (id : String) : Except ContractError ReasoningRun := do
  Reasoning.validateText "run_id" id
  if (0 : UInt8) ∈ utf8 id then throw ⟨"run_id must not contain NUL"⟩
  return { id, events := [], state := .empty, lastVerificationPassed := none }

/-- The checks of `append` (`reasoning.rs:200-206`): the state after the event. -/
def nextState (run : ReasoningRun) (at_ : Millis) (actor : String) (payload : ReasoningPayload) :
    Except ContractError ReasoningState := do
  Reasoning.validateText "actor" actor
  if run.events.getLast?.any fun event => at_ < event.at_ then
    throw ⟨"reasoning event time must be monotonic"⟩
  validatePayload payload
  transition run.state run.lastVerificationPassed payload

/-- The event that `append` records (`reasoning.rs:206-224`). -/
def nextEvent (run : ReasoningRun) (at_ : Millis) (actor : String) (payload : ReasoningPayload) :
    ReasoningEvent :=
  let ordinal := UInt64.ofNat run.events.length + 1
  let previousDigest := run.events.getLast?.map (·.digest)
  { runId := run.id, ordinal, at_, actor, payload, previousDigest,
    digest := eventDigest run.id ordinal at_ actor payload previousDigest }

/-- What the verification of a payload leaves (`reasoning.rs:225-228`). -/
def verified (last : Option Bool) : ReasoningPayload → Option Bool
  | .verification checks => some (allPassed checks)
  | _ => last

/-- `append` (`reasoning.rs:193-233`). -/
def append (run : ReasoningRun) (at_ : Millis) (actor : String) (payload : ReasoningPayload) :
    Except ContractError ReasoningEvent × ReasoningRun :=
  match run.nextState at_ actor payload with
  | .error e => (.error e, run)
  | .ok next =>
    let event := run.nextEvent at_ actor payload
    (.ok event,
     { run with
       lastVerificationPassed := verified run.lastVerificationPassed payload
       state := next
       events := run.events ++ [event] })

/-- The loop of `replay` (`reasoning.rs:165-173`). -/
def replayFrom (run : ReasoningRun) : List ReasoningEvent → Except ContractError ReasoningRun
  | [] => .ok run
  | stored :: rest =>
    match run.append stored.at_ stored.actor stored.payload with
    | (.error e, _) => .error e
    | (.ok expected, run) =>
      if expected ≠ stored then
        let ordinal := stored.ordinal
        .error ⟨s!"reasoning event {ordinal} failed hash-chain or ordinal verification"⟩
      else replayFrom run rest

/-- `replay` (`reasoning.rs:160-175`). -/
def replay (events : List ReasoningEvent) : Except ContractError ReasoningRun :=
  match events.head? with
  | none => .error ⟨"cannot replay an empty reasoning run"⟩
  | some first => do
    let run ← empty first.runId
    replayFrom run events

end ReasoningRun

end Vyrm.Core
