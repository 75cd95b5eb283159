import Vyrm.Core.Reasoning
import Vyrm.Core.Trace
import Vyrm.Store.Memory.Log

/-!
# Recording traces

`crates/vyrm-node/src/trace.rs`: `commit_trace` as the separate steps it takes on a shared engine.
It reads the stamp of a scope, reads its registry, and commits at the stamp's cursor; when another
commit came first it starts again.
-/

namespace Vyrm.Node
open Lib Vyrm.Core Vyrm.Store

/-- `Box<dyn std::error::Error>`, as far as the modelled functions make one. -/
inductive Error where
  | message (text : String)
  | kernel (error : Core.Error)
  | store (error : Store.Error)
  | contract (error : ContractError)
  | json (text : String)
  deriving DecidableEq

/-- `TRACE_COMMIT_RETRIES` (`trace.rs:14`). -/
def traceCommitRetries : Nat := 16

/-- A call of `install_runtime_trace_contract` (`trace.rs:38-45`) or `record_runtime_trace`
(`trace.rs:49-57`). -/
inductive TraceRequest where
  | install (scope : ScopeId) (at_ : Millis) (actor : String)
  | record (scope : ScopeId) (actor : String) (event : RuntimeTraceEvent)

namespace TraceRequest

def scope : TraceRequest → ScopeId
  | .install scope _ _ => scope
  | .record scope _ _ => scope

def at_ : TraceRequest → Millis
  | .install _ at_ _ => at_
  | .record _ _ event => event.at_

def actor : TraceRequest → String
  | .install _ _ actor => actor
  | .record _ actor _ => actor

def event : TraceRequest → Option RuntimeTraceEvent
  | .install _ _ _ => none
  | .record _ _ event => some event

/-- What is checked before the loop (`trace.rs:55`, `66-68`). -/
def check (request : TraceRequest) : Except Error Unit :=
  match request.event.elim (.ok ()) RuntimeTraceEvent.validate with
  | .error e => .error (.kernel e)
  | .ok () =>
    if trimIsEmpty request.actor then .error (.message "runtime trace actor must not be empty")
    else .ok ()

/-- The schema mutation of a commit (`trace.rs:77-90`). -/
def schemaMutation (current : Option RuntimeSchemaRegistry) : Except Error (List RuntimeMutation) :=
  let registry := current.getD (.empty 1 "install runtime trace contract")
  match RuntimeTraceEvent.registerSchema registry, current with
  | none, _ => .ok []
  | some registered, none => .ok [.schema registered]
  | some registered, some current =>
    if current.revision = u64Max then
      .error (.message "runtime schema revision overflow while installing trace contract")
    else
      .ok [.schema { registered with
        revision := current.revision + 1, migration := "install canonical runtime trace contract" }]

/-- The event mutation of a commit (`trace.rs:91-95`). -/
def eventMutation (request : TraceRequest) : Except Error (List RuntimeMutation) :=
  match request.event with
  | none => .ok []
  | some event =>
    match event.intoRuntimeEvent with
    | .error e => .error (.kernel e)
    | .ok stored => .ok [.event stored]

/-- The mutations of a commit over the registry that was read. -/
def mutations (request : TraceRequest) (current : Option RuntimeSchemaRegistry) :
    Except Error (List RuntimeMutation) := do
  let schema ← schemaMutation current
  let event ← request.eventMutation
  return schema ++ event

/-- What is left of the result of `commit_trace` (`trace.rs:56-57`). -/
def finish (request : TraceRequest) (outcome : Option RuntimeCommitOutcome) :
    Except Error (Option RuntimeCommitOutcome) :=
  match request, outcome with
  | .record _ _ _, none => .error (.message "a runtime trace event produced no commit")
  | _, outcome => .ok outcome

end TraceRequest

/-- Where a call stands. -/
inductive TracePc where
  | entered
  /-- At the head of the loop, which runs so many times more. -/
  | attempt (left : Nat)
  | stamped (left : Nat) (read : ReadStamp)
  | committing (left : Nat) (commit : RuntimeCommit)
  | returned (result : Except Error (Option RuntimeCommitOutcome))

/-- The next step of a call (`trace.rs:59-116`). -/
def advance (engine : MemoryEngine) (request : TraceRequest) : TracePc → TracePc × MemoryEngine
  | .entered =>
    match request.check with
    | .error e => (.returned (.error e), engine)
    | .ok () => (.attempt traceCommitRetries, engine)
  | .attempt 0 =>
    (.returned (.error (.message
      "runtime trace could not acquire cursor CAS after 16 observed conflicts")), engine)
  | .attempt (left + 1) =>
    match engine.runtimeReadStamp request.scope with
    | .error e => (.returned (.error (.store e)), engine)
    | .ok read => (.stamped left read, engine)
  | .stamped left read =>
    let current := engine.runtimeSchemas[request.scope]?
    if current.map (·.revision) ≠ read.schemaRevision then (.attempt left, engine)
    else
      match request.mutations current with
      | .error e => (.returned (.error e), engine)
      | .ok mutations =>
        if mutations = [] then (.returned (request.finish none), engine)
        else
          (.committing left
            { scope := request.scope, at_ := request.at_, actor := request.actor,
              expectedCursor := read.commitCursor, mutations }, engine)
  | .committing left commit =>
    match engine.commitRuntime commit with
    | (.ok outcome, engine) => (.returned (.ok (some outcome)), engine)
    | (.error (.runtimeConflict _ _), engine) => (.attempt left, engine)
    | (.error e, engine) => (.returned (.error (.store e)), engine)
  | .returned result => (.returned result, engine)

/-- The commit a step makes. -/
def TracePc.commit : TracePc → Option RuntimeCommit
  | .committing _ commit => some commit
  | _ => none

/-! ## Runs -/

/-- The engine, the calls made so far, and who wrote each change of the log: a call, or somebody
else. -/
structure TraceWorld where
  engine : MemoryEngine
  calls : List (TraceRequest × TracePc)
  signed : List (Option Nat × RuntimeChange)

namespace TraceWorld

def start : TraceWorld := { engine := MemoryEngine.new, calls := [], signed := [] }

/-- The world once a writer has turned the engine into another. -/
def wrote (world : TraceWorld) (writer : Option Nat) (next : MemoryEngine) : TraceWorld :=
  { world with
    engine := next
    signed := world.signed ++ (world.engine.since next).map fun change => (writer, change) }

/-- A call takes its next step. -/
def advance (world : TraceWorld) (i : Nat) (request : TraceRequest) (pc : TracePc) : TraceWorld :=
  let (pc, next) := Node.advance world.engine request pc
  { world.wrote (some i) next with calls := world.calls.set i (request, pc) }

/-- What can happen: a call is made, a call takes a step, or somebody else commits. -/
inductive Step (world : TraceWorld) : TraceWorld → Prop where
  | call (request : TraceRequest) :
    Step world { world with calls := world.calls ++ [(request, .entered)] }
  | advance {i : Nat} {request : TraceRequest} {pc : TracePc} (called : world.calls[i]? = some (request, pc))
    (room : ∀ commit ∈ pc.commit, world.engine.Room commit) : Step world (world.advance i request pc)
  | other (commit : RuntimeCommit) (room : world.engine.Room commit) :
    Step world (world.wrote none (world.engine.commitRuntime commit).2)

/-- The worlds that runs reach. -/
def Reachable (world : TraceWorld) : Prop := Relation.ReflTransGen Step start world

/-- The changes a call wrote. -/
def authored (world : TraceWorld) (i : Nat) : List RuntimeChange :=
  (world.signed.filter fun entry => entry.1 = some i).map Prod.snd

end TraceWorld

/-! ## One step -/

namespace TraceRequest

variable {request : TraceRequest} {current : Option RuntimeSchemaRegistry}

theorem eventMutation_ok {events : List RuntimeMutation} (made : request.eventMutation = .ok events) :
    events = [] ∧ request.event = none ∨
      ∃ event stored, request.event = some event ∧ event.intoRuntimeEvent = .ok stored ∧
        events = [.event stored] := by
  unfold eventMutation at made
  split at made
  · rename_i none
    cases made
    exact .inl ⟨rfl, none⟩
  · rename_i event some
    split at made
    · cases made
    · rename_i stored converted
      cases made
      exact .inr ⟨event, stored, some, converted, rfl⟩

/-- A commit has at most one schema mutation, which extends the registry that was read, and the
event. -/
theorem mutations_ok {mutations : List RuntimeMutation} (made : request.mutations current = .ok mutations) :
    ∃ (schemas : List RuntimeSchemaRegistry) (events : List RuntimeMutation),
      request.eventMutation = .ok events ∧ mutations = schemas.map RuntimeMutation.schema ++ events ∧ schemas.length ≤ 1 ∧
      ∀ registry ∈ schemas, ∀ previous ∈ current, registry.Extends previous := by
  obtain ⟨schema, declares, rest⟩ := except_bind_ok.mp made
  obtain ⟨events, converted, rest⟩ := except_bind_ok.mp rest
  rw [except_pure, Except.ok.injEq] at rest
  subst rest
  simp only [schemaMutation] at declares
  split at declares
  · cases declares
    exact ⟨[], events, converted, rfl, by simp, by simp⟩
  · rename_i registered registers
    cases declares
    exact ⟨[registered], events, converted, rfl, by simp, by simp⟩
  · rename_i registered previous registers
    split at declares
    · cases declares
    · cases declares
      refine ⟨[_], events, converted, rfl, by simp, ?_⟩
      intro registry member other same
      obtain rfl := List.mem_singleton.mp member
      cases same
      have extends_ := RuntimeTraceEvent.extends_registerSchema registers
      exact ⟨extends_.records, extends_.relations, extends_.events⟩

theorem declared_mutations {schemas : List RuntimeSchemaRegistry} {events : List RuntimeMutation}
    (made : request.eventMutation = .ok events) :
    declared (schemas.map RuntimeMutation.schema ++ events) = schemas := by
  have none : declared events = [] := by
    rcases eventMutation_ok made with ⟨rfl, -⟩ | ⟨-, stored, -, -, rfl⟩ <;> rfl
  have all : declared (schemas.map RuntimeMutation.schema) = schemas := by
    simp [declared, List.filterMap_map]
  rw [declared, List.filterMap_append]
  change declared _ ++ declared _ = _
  rw [all, none, List.append_nil]

end TraceRequest

variable {engine next : MemoryEngine} {request : TraceRequest} {pc : TracePc} {commit : RuntimeCommit}
  {outcome : RuntimeCommitOutcome}

/-- A commit a call is about to make. If the log is still as long as it was when the stamp was
read, the registry it extends is the one in force. -/
structure Prepared (engine : MemoryEngine) (request : TraceRequest) (commit : RuntimeCommit) : Prop where
  scope : commit.scope = request.scope
  at_ : commit.at_ = request.at_
  actor : commit.actor = request.actor
  past : commit.expectedCursor.toNat ≤ engine.runtimeChanges.length
  made : ∃ current, request.mutations current = .ok commit.mutations
  fresh : commit.expectedCursor = engine.head →
    request.mutations engine.runtimeSchemas[request.scope]? = .ok commit.mutations

/-- What is known of a call that has not committed. -/
def Uncommitted (engine : MemoryEngine) (request : TraceRequest) : TracePc → Prop
  | .stamped _ read => read.commitCursor.toNat ≤ engine.runtimeChanges.length
  | .committing _ commit => Prepared engine request commit
  | .returned (.ok none) => request.event = none
  | .returned (.ok (some _)) => False
  | _ => True

theorem commitCursor_runtimeReadStamp {scope : ScopeId} {read : ReadStamp}
    (made : engine.runtimeReadStamp scope = .ok read) : read.commitCursor = engine.head := by
  obtain ⟨⟨⟩, -, made⟩ := except_bind_ok.mp (kernel_ok_iff.mp made)
  rw [except_pure, Except.ok.injEq] at made
  subst made
  rfl

/-- A step of a call that has not committed leaves the engine alone or is its commit. -/
theorem advance_cases (sound : engine.Sound) (room : ∀ commit ∈ pc.commit, engine.Room commit)
    (uncommitted : Uncommitted engine request pc) :
    (∃ pc', advance engine request pc = (pc', engine) ∧ Uncommitted engine request pc') ∨
    ∃ left commit outcome next, pc = .committing left commit ∧ engine.Accepts commit outcome next ∧
      advance engine request pc = (.returned (.ok (some outcome)), next) := by
  cases pc with
  | entered =>
    left
    rw [advance]
    cases request.check with
    | error e => exact ⟨_, rfl, trivial⟩
    | ok => exact ⟨_, rfl, trivial⟩
  | attempt left =>
    left
    cases left with
    | zero => exact ⟨_, rfl, trivial⟩
    | succ left =>
      rw [advance]
      cases made : engine.runtimeReadStamp request.scope with
      | error e => exact ⟨_, rfl, trivial⟩
      | ok read =>
        refine ⟨_, rfl, ?_⟩
        rw [Uncommitted, commitCursor_runtimeReadStamp made, MemoryEngine.toNat_head sound.short]
  | stamped left read =>
    left
    simp only [advance]
    split
    · exact ⟨_, rfl, trivial⟩
    · split
      · exact ⟨_, rfl, trivial⟩
      · rename_i mutations made
        split
        · refine ⟨_, rfl, ?_⟩
          cases request with
          | install scope at_ actor => rfl
          | record scope actor event => trivial
        · exact ⟨_, rfl, rfl, rfl, rfl, uncommitted, ⟨_, made⟩, fun _ => made⟩
  | committing left commit =>
    rcases MemoryEngine.commitRuntime_cases sound (room commit rfl) with
      ⟨e, -, refused⟩ | ⟨outcome, next, accepted, accepts⟩
    · left
      rw [advance, refused]
      cases e <;> exact ⟨_, rfl, trivial⟩
    · right
      exact ⟨left, commit, outcome, next, rfl, accepts, by rw [advance, accepted]⟩
  | returned result =>
    exact .inl ⟨_, rfl, uncommitted⟩

/-- What is known of a call stays true when somebody else commits: a stamp that was read before
that is in the past for ever. -/
theorem Uncommitted.grow (accepts : engine.Accepts commit outcome next) (sound : next.Sound)
    (uncommitted : Uncommitted engine request pc) : Uncommitted next request pc := by
  have longer := accepts.length
  have nonempty := accepts.nonempty
  cases pc with
  | stamped left read =>
    simp only [Uncommitted] at uncommitted ⊢
    omega
  | committing left prepared =>
    have past := uncommitted.past
    refine { uncommitted with past := by omega, fresh := ?_ }
    intro atHead
    rw [atHead, MemoryEngine.toNat_head sound.short] at past
    omega
  | returned result => rcases result with e | (none | outcome) <;> exact uncommitted
  | entered => trivial
  | attempt left => trivial

/-! ## All steps -/

/-- What a call that has committed wrote. -/
structure Written (request : TraceRequest) (changes : List RuntimeChange) : Prop where
  made : ∃ (schemas : List RuntimeSchemaRegistry) (events : List RuntimeMutation),
    request.eventMutation = .ok events ∧ schemas.length ≤ 1 ∧
      changes.map (·.mutation) = schemas.map RuntimeMutation.schema ++ events
  header : ∀ change ∈ changes, change.scope = request.scope ∧ change.at_ = request.at_ ∧
    change.actor = request.actor

/-- A call has written nothing, or has returned the outcome of what it wrote. -/
def Attributed (world : TraceWorld) (i : Nat) (request : TraceRequest) (pc : TracePc) : Prop :=
  world.authored i = [] ∧ Uncommitted world.engine request pc ∨
  (∃ outcome, pc = .returned (.ok (some outcome))) ∧ Written request (world.authored i)

/-- A registry that a call of `commit_trace` commits extends the one in force before it. -/
def Keeps (before : List (Option Nat × RuntimeChange)) (entry : Option Nat × RuntimeChange) : Prop :=
  ∀ i registry, entry.1 = some i → entry.2.mutation = .schema registry →
    ∀ previous ∈ schemaInForce entry.2.scope (before.map Prod.snd), registry.Extends previous

namespace TraceWorld

variable {world : TraceWorld}

/-- What all steps preserve. -/
structure Sound (world : TraceWorld) : Prop where
  engine : world.engine.Sound
  logged : world.signed.map Prod.snd = world.engine.runtimeChanges
  known : ∀ entry ∈ world.signed, ∀ i, entry.1 = some i → i < world.calls.length
  calls : ∀ i request pc, world.calls[i]? = some (request, pc) → Attributed world i request pc
  kept : Placed Keeps world.signed

theorem sound_start : start.Sound where
  engine := MemoryEngine.sound_new
  logged := rfl
  known := by simp [start]
  calls := by simp [start]
  kept := Placed.nil

/-! ### Writing -/

theorem authored_wrote (accepts : world.engine.Accepts commit outcome next) (writer : Option Nat) (i : Nat) :
    (world.wrote writer next).authored i =
      world.authored i ++ if writer = some i then world.engine.appended commit else [] := by
  rw [authored, wrote, accepts.since, List.filter_append, List.map_append, ← authored]
  congr 1
  by_cases same : writer = some i
  · simp [same, List.filter_map, Function.comp_def]
  · simp [same, List.filter_map, Function.comp_def]

/-- A commit is what remains of a call's preparations. -/
theorem written_appended (prepared : Prepared world.engine request commit) :
    Written request (world.engine.appended commit) := by
  obtain ⟨current, made⟩ := prepared.made
  obtain ⟨schemas, events, converted, mutations, few, -⟩ := TraceRequest.mutations_ok made
  constructor
  · exact ⟨schemas, events, converted, few, map_mutation_changesAfter.trans mutations⟩
  · rw [← prepared.scope, ← prepared.at_, ← prepared.actor]
    exact header_commitChanges _ _

/-- The registry of a call's commit extends the one in force. -/
theorem keeps_appended (sound : world.Sound) (accepts : world.engine.Accepts commit outcome next)
    (prepared : Prepared world.engine request commit) (i : Nat) :
    Placed (fun before => Keeps (world.signed ++ before))
      ((world.engine.appended commit).map fun change => (some i, change)) := by
  intro before entry after split j registry _ declares previous inForce
  obtain ⟨earlier, rest, parts, rfl, cut⟩ := List.map_eq_append_iff.mp split
  obtain ⟨change, later, rfl, rfl, -⟩ := List.map_eq_cons_iff.mp cut
  obtain ⟨alone, nothing⟩ := accepts.only_schema parts declares
  have scope : change.scope = request.scope := by
    rw [← prepared.scope]
    exact MemoryEngine.Accepts.scope_appended _ _ change (by rw [parts]; simp)
  have current := prepared.fresh accepts.expected
  obtain ⟨schemas, events, converted, mutations, -, extend⟩ := TraceRequest.mutations_ok current
  rw [mutations, TraceRequest.declared_mutations converted] at alone
  apply extend registry (by rw [alone]; simp)
  rw [sound.engine.schemas, ← scope]
  simpa [sound.logged, schemaInForce_append, nothing, Function.comp_def] using inForce

/-- An accepted commit preserves what is known of the log and of all calls but its writer's. -/
theorem Sound.wrote (sound : world.Sound) (accepts : world.engine.Accepts commit outcome next)
    (room : world.engine.Room commit) {writer : Option Nat}
    (known : ∀ i, writer = some i → i < world.calls.length)
    (keeps : Placed (fun before => Keeps (world.signed ++ before))
      ((world.engine.appended commit).map fun change => (writer, change))) :
    let after := world.wrote writer next
    after.engine.Sound ∧ after.signed.map Prod.snd = after.engine.runtimeChanges ∧
      (∀ entry ∈ after.signed, ∀ i, entry.1 = some i → i < world.calls.length) ∧
      Placed Keeps after.signed ∧
      ∀ i request pc, writer ≠ some i → world.calls[i]? = some (request, pc) →
        Attributed after i request pc := by
  have grown := accepts.sound sound.engine room
  refine ⟨grown, ?_, ?_, ?_, ?_⟩
  · simp [TraceWorld.wrote, accepts.since, accepts.changes, sound.logged, Function.comp_def]
  · intro entry member i signedBy
    rcases List.mem_append.mp member with old | new
    · exact sound.known entry old i signedBy
    · obtain ⟨change, -, rfl⟩ := List.mem_map.mp new
      exact known i signedBy
  · rw [TraceWorld.wrote, accepts.since]
    exact sound.kept.append keeps
  · intro i request pc other called
    have same : (world.wrote writer next).authored i = world.authored i := by
      rw [authored_wrote accepts, if_neg other, List.append_nil]
    rw [Attributed, same]
    rcases sound.calls i request pc called with ⟨nothing, uncommitted⟩ | done
    · exact .inl ⟨nothing, uncommitted.grow accepts grown⟩
    · exact .inr done

@[simp] theorem wrote_self (world : TraceWorld) (writer : Option Nat) :
    world.wrote writer world.engine = world := by
  simp [TraceWorld.wrote]

/-! ### The steps -/

theorem Sound.call (sound : world.Sound) (request : TraceRequest) :
    ({ world with calls := world.calls ++ [(request, .entered)] } : TraceWorld).Sound := by
  refine ⟨sound.engine, sound.logged, ?_, ?_, sound.kept⟩
  · intro entry member i signedBy
    have := sound.known entry member i signedBy
    simp only [List.length_append, List.length_singleton]
    omega
  · intro i other pc called
    rw [List.getElem?_append] at called
    split at called
    · exact sound.calls i other pc called
    · rename_i new
      obtain ⟨-, rfl, rfl⟩ : i - world.calls.length = 0 ∧ request = other ∧ TracePc.entered = pc := by
        simpa [List.getElem?_singleton] using called
      left
      constructor
      · -- nobody signs with the name of a call that has not been made
        rw [authored, List.map_eq_nil_iff, List.filter_eq_nil_iff]
        intro entry member signedBy
        exact new (sound.known entry member i (by simpa using signedBy))
      · trivial

/-- A call that leaves the engine alone. -/
theorem Sound.wait (sound : world.Sound) {i : Nat} {request : TraceRequest} {pc : TracePc}
    (attributed : Attributed world i request pc) :
    ({ world with calls := world.calls.set i (request, pc) } : TraceWorld).Sound := by
  refine ⟨sound.engine, sound.logged, ?_, ?_, sound.kept⟩
  · simpa using sound.known
  · intro j other pc' called
    by_cases same : i = j
    · subst same
      obtain ⟨-, rfl, rfl⟩ : i < world.calls.length ∧ request = other ∧ pc = pc' := by
        simpa [List.getElem?_set] using called
      exact attributed
    · rw [List.getElem?_set_ne same] at called
      exact sound.calls j other pc' called

theorem Sound.advance (sound : world.Sound) {i : Nat} {request : TraceRequest} {pc : TracePc}
    (called : world.calls[i]? = some (request, pc)) (room : ∀ commit ∈ pc.commit, world.engine.Room commit) :
    (world.advance i request pc).Sound := by
  have here : i < world.calls.length := (List.getElem?_eq_some_iff.mp called).1
  rcases sound.calls i request pc called with ⟨nothing, uncommitted⟩ | ⟨⟨outcome, rfl⟩, written⟩
  · rcases advance_cases sound.engine room uncommitted with
      ⟨pc', waits, uncommitted⟩ | ⟨left, commit, outcome, next, rfl, accepts, commits⟩
    · rw [TraceWorld.advance, waits]
      simp only [wrote_self]
      exact sound.wait (.inl ⟨nothing, uncommitted⟩)
    · have prepared : Prepared world.engine request commit := uncommitted
      rw [TraceWorld.advance, commits]
      obtain ⟨engine, logged, known, kept, others⟩ := sound.wrote accepts (room commit rfl)
        (by rintro j ⟨⟩; exact here) (keeps_appended sound accepts prepared i)
      refine ⟨engine, logged, by simpa using known, ?_, kept⟩
      intro j other pc' calledAfter
      by_cases same : i = j
      · subst same
        obtain ⟨-, rfl, rfl⟩ : i < world.calls.length ∧ request = other ∧
            TracePc.returned (.ok (some outcome)) = pc' := by
          simpa [List.getElem?_set] using calledAfter
        right
        refine ⟨⟨outcome, rfl⟩, ?_⟩
        change Written request ((world.wrote (some i) next).authored i)
        rw [authored_wrote accepts, nothing, if_pos rfl, List.nil_append]
        exact written_appended prepared
      · rw [List.getElem?_set_ne same] at calledAfter
        exact others j other pc' (by simpa using same) calledAfter
  · rw [TraceWorld.advance, Node.advance]
    simp only [wrote_self]
    exact sound.wait (.inr ⟨⟨outcome, rfl⟩, written⟩)

theorem Sound.other (sound : world.Sound) (room : world.engine.Room commit) :
    (world.wrote none (world.engine.commitRuntime commit).2).Sound := by
  rcases MemoryEngine.commitRuntime_cases sound.engine room with
    ⟨e, -, refused⟩ | ⟨outcome, next, accepted, accepts⟩
  · rw [refused, wrote_self]
    exact sound
  · rw [accepted]
    have keeps : Placed (fun before => Keeps (world.signed ++ before))
        ((world.engine.appended commit).map fun change => (none, change)) := by
      intro before entry after split i registry signedBy
      have member : entry ∈ (world.engine.appended commit).map fun change => (none, change) := by
        rw [split]
        simp
      obtain ⟨change, -, rfl⟩ := List.mem_map.mp member
      cases signedBy
    obtain ⟨engine, logged, known, kept, others⟩ := sound.wrote accepts room (by simp) keeps
    exact ⟨engine, logged, known, fun i request pc called => others i request pc (by simp) called, kept⟩

theorem Reachable.sound (reachable : world.Reachable) : world.Sound := by
  induction reachable with
  | refl => exact sound_start
  | tail _ step sound =>
    cases step with
    | call request => exact sound.call request
    | advance called room => exact sound.advance called room
    | other commit room => exact sound.other room

end TraceWorld

/-- Trace calls among each other and among any other commits. A call that records an event and
succeeds has appended one change with that event, and at most a registry; one that fails has
appended nothing. The registries the calls commit keep all other declarations of the one in force
before them, and the revisions of every scope go up one by one. -/
theorem trace_calls_contended {world : TraceWorld} (reachable : world.Reachable) :
    world.signed.map Prod.snd = world.engine.runtimeChanges ∧
    (∀ i scope actor event outcome,
      world.calls[i]? = some (.record scope actor event, .returned (.ok outcome)) →
      ∃ (stored : RuntimeEvent) (schemas : List RuntimeSchemaRegistry),
        event.intoRuntimeEvent = .ok stored ∧ schemas.length ≤ 1 ∧
        (world.authored i).map (·.mutation) = schemas.map RuntimeMutation.schema ++ [.event stored] ∧
        ∀ change ∈ world.authored i, change.scope = scope ∧ change.at_ = event.at_ ∧ change.actor = actor) ∧
    (∀ i request e, world.calls[i]? = some (request, .returned (.error e)) → world.authored i = []) ∧
    Placed Keeps world.signed ∧ Placed NextRevision world.engine.runtimeChanges := by
  have sound := reachable.sound
  refine ⟨sound.logged, ?_, ?_, sound.kept, sound.engine.revised⟩
  · intro i scope actor event outcome called
    have written : Written (.record scope actor event) (world.authored i) := by
      rcases sound.calls i _ _ called with ⟨-, uncommitted⟩ | ⟨-, written⟩
      · cases outcome <;> cases uncommitted
      · exact written
    obtain ⟨schemas, events, converted, few, mutations⟩ := written.made
    rcases TraceRequest.eventMutation_ok converted with ⟨-, ⟨⟩⟩ | ⟨event, stored, ⟨⟩, same, rfl⟩
    exact ⟨stored, schemas, same, few, mutations, written.header⟩
  · intro i request e called
    rcases sound.calls i request _ called with ⟨nothing, -⟩ | ⟨⟨outcome, ⟨⟩⟩, -⟩
    exact nothing

/-- A call that records the start of a span in a store that has no schema yet. -/
def sampleEvent : RuntimeTraceEvent :=
  { contractVersion := 1, traceId := ⟨"0af7651916cd43dd8448eb211c80319c", by decide +kernel⟩
    spanId := ⟨"b7ad6b7169203331", by decide +kernel⟩, parentSpanId := none, phase := .start
    domain := .tool, name := "PreToolUse", at_ := 5, durationMicros := none, outcome := .running
    dataClass := .control, links := [.runtimeCursor 0], attributes := [("tool", .string "Edit")] }

def sampleScope : ScopeId := .lit "shop" (Eq.refl true)

def sampleRequest : TraceRequest := .record sampleScope "clerk" sampleEvent

/-- What it commits. -/
def sampleCommit : RuntimeCommit :=
  { scope := sampleScope, at_ := 5, actor := "clerk", expectedCursor := 0
    mutations :=
      [.schema { RuntimeSchemaRegistry.empty 1 "install runtime trace contract" with
        events := [(RuntimeTraceEvent.eventType, RuntimeTraceEvent.eventSchema)] },
       .event { kind := RuntimeTraceEvent.eventType, subject := none, properties := sampleEvent.properties }] }

theorem sampleCommit_checked : MemoryEngine.new.checkCommit sampleCommit = .ok () := by decide +kernel

/-- The only call of a run takes a step that leaves the engine alone. -/
theorem TraceWorld.Reachable.wait {engine : MemoryEngine} {request : TraceRequest} {pc pc' : TracePc}
    {signed : List (Option Nat × RuntimeChange)}
    (reachable : Reachable { engine, calls := [(request, pc)], signed }) (idle : pc.commit = none)
    (waits : Node.advance engine request pc = (pc', engine)) :
    Reachable { engine, calls := [(request, pc')], signed } := by
  have step := @Step.advance { engine, calls := [(request, pc)], signed } 0 request pc rfl (by simp [idle])
  rw [TraceWorld.advance, waits] at step
  simp only [TraceWorld.wrote, MemoryEngine.since_self, List.map_nil, List.append_nil] at step
  exact reachable.tail step

theorem advance_committing {engine next : MemoryEngine} {request : TraceRequest} {left : Nat} {commit : RuntimeCommit}
    {outcome : RuntimeCommitOutcome} (accepted : engine.commitRuntime commit = (.ok outcome, next)) :
    Node.advance engine request (.committing left commit) = (.returned (.ok (some outcome)), next) := by
  simp only [Node.advance, accepted]

theorem TraceWorld.calls_advance {world : TraceWorld} {i : Nat} {request : TraceRequest} {pc pc' : TracePc}
    {next : MemoryEngine} (called : i < world.calls.length)
    (advanced : Node.advance world.engine request pc = (pc', next)) :
    (world.advance i request pc).calls[i]? = some (request, pc') := by
  simp only [TraceWorld.advance, advanced]
  simp [called]

theorem sampleRead : ∃ read, MemoryEngine.new.runtimeReadStamp sampleScope = .ok read ∧
    read.commitCursor = 0 ∧ read.schemaRevision = none :=
  ⟨_, rfl, rfl, rfl⟩

theorem trace_calls_contended_sample :
    ∃ world : TraceWorld, world.Reachable ∧
      (∃ outcome, world.calls[0]? = some (sampleRequest, .returned (.ok outcome))) ∧
      ∃ schemas : List RuntimeSchemaRegistry, schemas.length ≤ 1 ∧
        (world.authored 0).map (·.mutation) = schemas.map RuntimeMutation.schema ++
          [.event ⟨RuntimeTraceEvent.eventType, none, sampleEvent.properties⟩] := by
  have checked : sampleRequest.check = .ok () := by decide +kernel
  have made : sampleRequest.mutations none = .ok sampleCommit.mutations := by decide +kernel
  obtain ⟨read, stamped, cursor, revision⟩ := sampleRead
  have called : TraceWorld.Reachable { TraceWorld.start with calls := [(sampleRequest, .entered)] } :=
    .single (.call sampleRequest)
  have entered := called.wait rfl (show Node.advance _ sampleRequest .entered = (.attempt 16, _) by
    rw [Node.advance, checked]
    rfl)
  have attempted := entered.wait rfl (show Node.advance _ sampleRequest (.attempt 16) = (.stamped 15 read, _) by
    simp only [Node.advance]
    rw [show (TraceWorld.start.engine.runtimeReadStamp sampleRequest.scope) = .ok read from stamped])
  have prepared := attempted.wait rfl
    (show Node.advance _ sampleRequest (.stamped 15 read) = (.committing 15 sampleCommit, _) by
      have none : TraceWorld.start.engine.runtimeSchemas[sampleRequest.scope]? = none := by
        simp [TraceWorld.start, MemoryEngine.new]
      simp only [Node.advance, none, revision, made, cursor]
      rfl)
  have room : TraceWorld.start.engine.Room sampleCommit := by
    show 0 + 2 < 2 ^ 63
    decide
  rcases MemoryEngine.commitRuntime_cases MemoryEngine.sound_new room with
    ⟨e, refused, -⟩ | ⟨outcome, next, accepted, -⟩
  · rw [sampleCommit_checked] at refused
    cases refused
  have committed : TraceWorld.Reachable _ := prepared.tail
    (@TraceWorld.Step.advance _ 0 sampleRequest _ rfl (by rintro commit ⟨⟩; exact room))
  have returned : ∃ outcome, (TraceWorld.advance
      { TraceWorld.start with calls := [(sampleRequest, .committing 15 sampleCommit)] } 0 sampleRequest
      (.committing 15 sampleCommit)).calls[0]? = some (sampleRequest, .returned (.ok outcome)) :=
    ⟨some outcome, TraceWorld.calls_advance Nat.zero_lt_one (advance_committing accepted)⟩
  obtain ⟨outcome, returned⟩ := returned
  obtain ⟨stored, schemas, converted, few, mutations, -⟩ :=
    (trace_calls_contended committed).2.1 0 sampleScope "clerk" sampleEvent outcome returned
  have same : sampleEvent.intoRuntimeEvent =
      .ok ⟨RuntimeTraceEvent.eventType, none, sampleEvent.properties⟩ := by decide +kernel
  rw [same, Except.ok.injEq] at converted
  subst converted
  exact ⟨_, committed, ⟨outcome, returned⟩, schemas, few, mutations⟩

end Vyrm.Node
