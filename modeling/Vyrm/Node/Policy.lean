import Vyrm.Core.Reasoning

/-!
# The tool policy

`crates/vyrm-node/src/policy.rs`: whether the state of the active reasoning run lets a tool of the
harness go on. The input of a hook is a JSON value.
-/

namespace Vyrm.Node
open Vyrm.Core

/-! ## Hook inputs -/

/-- `serde_json::Number`. A float stands by its bits. -/
inductive Number where
  | unsigned (value : UInt64)
  | negative (value : Int64)
  | float (bits : UInt64)
  deriving DecidableEq

/-- `serde_json::Value`. -/
inductive Value where
  | null
  | bool (value : Bool)
  | number (value : Number)
  | string (value : String)
  | array (values : List Value)
  | object (entries : List (String × Value))

namespace Value

/-- `Value::get`, of a key. -/
def get (value : Value) (key : String) : Option Value :=
  match value with
  | object entries => entries.lookup key
  | _ => none

/-- `Value::pointer`, of the tokens of a path, none of which is an index. -/
def pointer (value : Value) (tokens : List String) : Option Value :=
  tokens.foldl (fun found token => found.bind fun value => value.get token) (some value)

/-- `Value::as_str`. -/
def asStr : Value → Option String
  | string value => some value
  | _ => none

/-- `Value::as_bool`. -/
def asBool : Value → Option Bool
  | bool value => some value
  | _ => none

/-- `Value::as_i64`. -/
def asI64 : Value → Option Int
  | number (.unsigned value) => if value.toNat < 2 ^ 63 then some value.toNat else none
  | number (.negative value) => some value.toInt
  | _ => none

/-- What a hook input calls the tool, or `unknown`. -/
def toolName (input : Value) : String := ((input.get "tool_name").bind asStr).getD "unknown"

/-- The command of a hook input. -/
def command (input : Value) : Option String := (input.pointer ["tool_input", "command"]).bind asStr

end Value

/-- `str::lines`, its first line. -/
def nextLine (text : String) : Option String :=
  if text = "" then none
  else
    let line := text.toList.takeWhile (· ≠ '\n')
    if '\n' ∈ text.toList ∧ line.getLast? = some '\r' then some (String.ofList line.dropLast)
    else some (String.ofList line)

/-- `str::split_whitespace`. -/
def splitWhitespace (text : String) : List String :=
  ((text.toList.splitOnP isWhitespace).filter (· ≠ [])).map String.ofList

/-! ## Tools -/

/-- The tools that a run must authorise. -/
def projectTools : List String := ["Edit", "Write", "NotebookEdit", "Bash"]

/-- `ContractDifferential` (`policy.rs:7-14`). -/
structure ContractDifferential where
  runId : Option String
  state : Option ReasoningState
  actual : String
  expected : List String
  differences : List String
  deriving DecidableEq

/-- `ContractDifferential::render` (`policy.rs:17-24`). -/
def ContractDifferential.render (differential : ContractDifferential) : String :=
  let actual := differential.actual
  let expected := String.intercalate " | " differential.expected
  let differences := String.intercalate "; " differential.differences
  s!"contract differential: actual={actual}; expected={expected}; {differences}"

/-- `ToolPolicy` (`policy.rs:27-33`). -/
inductive ToolPolicy where
  | readOnly
  | controlPlane
  | allow (differential : ContractDifferential)
  | deny (differential : ContractDifferential)
  deriving DecidableEq

/-- The characters of a shell program (`policy.rs:128-133`). -/
def shellCharacters : List Char := ['\n', '\r', ';', '|', '&', '>', '<', '\x60', '$', '(', ')']

/-- `is_control_command` (`policy.rs:123-144`). -/
def isControlCommand (command : String) : Bool :=
  if command.toList.any fun character => character ∈ shellCharacters then false
  else
    let words := (splitWhitespace command).take 3
    let executable := words.head?.bind fun word => (word.toList.splitOn '/').getLast?
    executable = some "vyrm".toList &&
      words[1]?.any fun word => word ∈ ["reasoning", "reset-projection", "reset-routing", "ground"]

/-- What is expected of a run in a state that lets no tool go on (`policy.rs:99-112`). -/
def expectedIn : ReasoningState → String
  | .needsPlan => "record the hypothesis and plan"
  | .needsAttempt => "record an attempt before invoking a tool"
  | .needsObservation => "record an observation after the attempt"
  | .needsDecision => "record a continue/verify/stop decision"
  | .needsVerification => "run verification through Bash"
  | .needsPostVerificationDecision =>
    "decide whether failed verification requires another attempt or stopping"
  | .needsOutcome => "record the outcome"
  | .complete => "start a new reasoning run"
  | .empty => "record a goal"

/-- What a call is shown as (`policy.rs:53-66`). -/
def actualCall (input : Value) : String :=
  let tool := input.toolName
  if tool = "Bash" then
    let line := (nextLine (input.command.getD "unknown command")).getD ""
    s!"Bash({line})"
  else tool

/-- `evaluate_tool` (`policy.rs:36-121`). -/
def evaluateTool (run : Option ReasoningRun) (input : Value) : ToolPolicy :=
  let tool := input.toolName
  if tool ∉ projectTools then .readOnly
  else if tool = "Bash" ∧ input.command.any isControlCommand then .controlPlane
  else
    let differential (expected differences : List String) : ContractDifferential :=
      { runId := run.map (·.id), state := run.map (·.state), actual := actualCall input, expected, differences }
    match run.map ReasoningRun.state with
    | none => .deny (differential ["an active reasoning run with goal and plan"]
        ["no active run; record goal → plan → attempt before project mutation"])
    | some .needsObservation => .allow (differential
        ["tool execution for the recorded attempt, followed by an observation with evidence"] [])
    | some state =>
      if state = .needsVerification ∧ tool = "Bash" then
        .allow (differential ["a verification command followed by typed verification checks"] [])
      else
        let shown := state.shown
        .deny (differential [expectedIn state] [s!"project mutation is not valid while the run is {shown}"])

/-- The tools that change files. -/
def mutationTools : List String := ["Edit", "Write", "NotebookEdit"]

/-- The policy denies a tool that changes files, unless the run waits for an observation. -/
theorem evaluateTool_mutation (run : Option ReasoningRun) {input : Value} (mutation : input.toolName ∈ mutationTools) :
    (∃ differential, evaluateTool run input = .deny differential) ∨
    ∃ differential active, evaluateTool run input = .allow differential ∧ run = some active ∧
      active.state = .needsObservation := by
  have notBash : input.toolName ≠ "Bash" := by
    intro bash
    rw [bash] at mutation
    exact absurd mutation (by decide)
  have project : ¬ input.toolName ∉ projectTools := by
    rw [not_not]
    exact List.mem_append_left ["Bash"] mutation
  unfold evaluateTool
  rw [if_neg project, if_neg fun both => notBash both.1]
  cases run with
  | none => exact .inl ⟨_, rfl⟩
  | some active =>
    simp only [Option.map_some]
    cases state : active.state with
    | needsObservation => exact .inr ⟨_, active, rfl, rfl, state⟩
    | _ =>
      left
      simp only [notBash, and_false, if_false]
      exact ⟨_, rfl⟩

end Vyrm.Node
