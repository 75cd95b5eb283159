import Vyrm.Node.Policy
import Vyrm.Node.Reasoning

/-!
# The hooks of a harness

`crates/vyrm-node/src/hook.rs`: the hook before a tool of the harness is used, which lets the call go
on or denies it, and the one after it, which records its result in the active reasoning run.
-/

namespace Vyrm.Node
open Lib Vyrm.Core Vyrm.Store

/-- `HookResponse` (`hook.rs:66-71`), of a hook that recalls nothing. The JSON value that is written
to stdout stands for its text. -/
structure HookResponse where
  stdout : Option Value
  detail : Option String

/-- What a hook runs against, apart from the engine. -/
structure HookContext where
  serde : Serde
  /-- The ledger of an older format, where there is one. -/
  legacy : Option Bytes
  harness : Option String
  /-- `serde_json::to_vec`. -/
  toVec : Value → Bytes
  /-- The text of an error. -/
  shown : Error → String

/-- `resolve_package_command`, and `establish_freshness` of a command that it allows. -/
inductive Workflow where
  | notPackage
  | allow (freshness : Except String String)
  | deny (differential : String)
  | error (text : String)

/-- What the wait gates find at a call. -/
structure Gates where
  /-- When the memory projection was quarantined, if it is. -/
  projection : Except Error (Option Millis)
  /-- `ensure_routing_fresh`. -/
  routing : Except String String
  workflow : String → Workflow

namespace Hook

/-! ## Before a tool -/

/-- `deny` (`hook.rs:633-646`), its decision. -/
def denial (reason : String) : Value :=
  .object [("hookSpecificOutput", .object
    [("hookEventName", .string "PreToolUse"), ("permissionDecision", .string "deny"),
      ("permissionDecisionReason", .string reason)])]

/-- `deny` (`hook.rs:633-646`). -/
def deny (reason detail : String) : HookResponse := ⟨some (denial reason), some detail⟩

/-- `response_denied` (`hook.rs:601-612`). -/
def responseDenied (response : HookResponse) : Bool :=
  let decision := response.stdout.bind fun value => value.pointer ["hookSpecificOutput", "permissionDecision"]
  decision.bind Value.asStr = some "deny"

/-- The workflow gate of a shell command (`hook.rs:354-390`): its evidence, or the denial. -/
def workflowGate (gates : Gates) (input : Value) : Except HookResponse (Option String) :=
  if (input.get "tool_name").bind Value.asStr = some "Bash" then
    match gates.workflow (input.command.getD "") with
    | .notPackage => .ok none
    | .allow (.ok evidence) => .ok (some evidence)
    | .allow (.error rendered) =>
      .error (deny s!"vyrm: package workflow denied. Wait: {rendered}" s!"denied: {rendered}")
    | .deny rendered =>
      .error (deny s!"vyrm: package workflow denied. Wait: {rendered}" s!"denied: {rendered}")
    | .error text =>
      .error (deny s!"vyrm: package workflow policy cannot be trusted. Wait: {text}"
        "denied: workflow manifest unavailable")
  else .ok none

/-- The gates after the policy (`hook.rs:305-400`). -/
def waitGates (gates : Gates) (input : Value) (policyEvidence : String) : Except Error HookResponse :=
  match gates.projection with
  | .error e => .error e
  | .ok (some at_) =>
    .ok (deny ("vyrm: memory projection quarantined at " ++ toString at_ ++ " — grounding found divergence. "
        ++ "Wait: resolve it first (\x60vyrm ground\x60 to see the differential, \x60vyrm reset-projection\x60 "
        ++ "to recover).")
      "denied: projection quarantined")
  | .ok none =>
    match gates.routing with
    | .error text =>
      .ok (deny s!"vyrm: source-routing freshness could not be established. Wait: {text}"
        "denied: routing freshness unavailable")
    | .ok ready =>
      match workflowGate gates input with
      | .error response => .ok response
      | .ok workflowEvidence =>
        let detail := s!"policy allowed ({policyEvidence}); routing freshness established: {ready}"
        .ok ⟨none, some (detail ++ (workflowEvidence.elim "" fun evidence => "; " ++ evidence))⟩

/-- The policy on the active run, and the gates after it (`hook.rs:283-400`). -/
def projectGate (ctx : HookContext) (gates : Gates) (engine : MemoryEngine) (input : Value) :
    Except Error HookResponse :=
  match Reasoning.activeRun ctx.serde ctx.legacy engine with
  | .error e =>
    let text := ctx.shown e
    .ok (deny s!"vyrm: reasoning contract cannot be trusted. Wait: {text}" "denied: reasoning ledger unavailable")
  | .ok run =>
    match evaluateTool run input with
    | .allow differential => waitGates gates input differential.render
    | .deny differential =>
      let rendered := differential.render
      .ok (deny s!"vyrm: mutation denied by reasoning policy. Wait: {rendered}" s!"denied: {rendered}")
    -- unreachable: these do not depend on the run
    | .readOnly | .controlPlane => .ok ⟨none, none⟩

/-- `handle_inner` of `PreToolUse` (`hook.rs:269-400`). -/
def preToolUse (ctx : HookContext) (gates : Gates) (engine : MemoryEngine) (input : Value) :
    Except Error HookResponse :=
  match evaluateTool none input with
  | .readOnly => .ok ⟨none, none⟩
  | .controlPlane => .ok ⟨none, some "allowed: vyrm control plane"⟩
  | .allow _ | .deny _ => projectGate ctx gates engine input

/-! ## After a tool -/

/-- `str::trim`. -/
def trim (text : String) : String :=
  String.ofList (((text.toList.dropWhile isWhitespace).reverse.dropWhile isWhitespace).reverse)

/-- `first_line` (`hook.rs:709-711`). -/
def firstLine (command : String) : String := trim ((nextLine command).getD command)

/-- `tool_source` (`hook.rs:648-660`). -/
def toolSource (input : Value) : String :=
  let tool := input.toolName
  let target := (input.pointer ["tool_input", "file_path"]).or
    ((input.pointer ["tool_input", "notebook_path"]).or (input.pointer ["tool_input", "command"]))
  let target := (target.bind Value.asStr).getD "unreported target"
  s!"{tool}:{target}"

/-- `run_exit_code` (`hook.rs:695-707`). -/
def runExitCode (input : Value) : Option Int :=
  (input.get "tool_response").bind fun response =>
    match ["exitCode", "exit_code", "code"].findSome? fun field => (response.get field).bind Value.asI64 with
    | some code => some code
    | none =>
      match (response.get "success").bind Value.asBool with
      | some true => some 0
      | some false => some 1
      | none => none

/-- The evidence of a tool's result (`hook.rs:423-427`). -/
def resultEvidence (ctx : HookContext) (input : Value) : Evidence :=
  let tool := input.toolName
  { source := toolSource input
    digest := sha256Hex (ctx.toVec input)
    summary := s!"{tool} hook result captured" }

/-- What a result is recorded as (`hook.rs:428-454`). -/
def resultPayload (ctx : HookContext) (run : ReasoningRun) (input : Value) : Option ReasoningPayload :=
  let tool := input.toolName
  match run.state with
  | .needsObservation =>
    some (.observation s!"observed result of declared {tool} attempt" [resultEvidence ctx input])
  | .needsVerification =>
    if tool = "Bash" then
      let line := firstLine (input.command.getD "unreported command")
      let status := if runExitCode input = some 0 then CheckStatus.passed else .failed
      some (.verification [⟨s!"verify {line}", status, [resultEvidence ctx input]⟩])
    else none
  | _ => none

/-- What `PostToolUse` records (`hook.rs:402-468`), if anything. -/
def resultCall (ctx : HookContext) (now : Millis) (engine : MemoryEngine) (input : Value) :
    Except Error (Option Reasoning.Call) :=
  if evaluateTool none input = .controlPlane ∨ input.toolName ∉ projectTools then .ok none
  else do
    let run ← Reasoning.activeRun ctx.serde ctx.legacy engine
    let harness := ctx.harness.getD "unknown"
    return run.bind fun run =>
      (resultPayload ctx run input).map fun payload => ⟨run.id, now, s!"hook:{harness}", payload⟩

/-- `record_reasoning`, on the store of a context. -/
def recordCall (ctx : HookContext) (call : Reasoning.Call) (engine : MemoryEngine) :
    Except Error ReasoningEvent × MemoryEngine :=
  Reasoning.record ctx.serde ctx.legacy engine call.runId call.at_ call.actor call.payload

/-- `handle_inner` of `PostToolUse`, up to the journal (`hook.rs:402-470`): the event it records. -/
def postToolUse (ctx : HookContext) (now : Millis) (engine : MemoryEngine) (input : Value) :
    Except Error (Option ReasoningEvent) × MemoryEngine :=
  match resultCall ctx now engine input with
  | .error e => (.error e, engine)
  | .ok none => (.ok none, engine)
  | .ok (some call) =>
    match recordCall ctx call engine with
    | (.error e, engine) => (.error e, engine)
    | (.ok event, engine) => (.ok (some event), engine)

end Hook

end Vyrm.Node
