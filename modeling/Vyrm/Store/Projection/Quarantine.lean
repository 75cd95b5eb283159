import Vyrm.Lib.Path
import Vyrm.Store.Projection

/-!
# Quarantine under concurrent operations

Any number of operations on the projection, their storage accesses in any order. The log
answers a read with anything; the projection is read as it was last written. A quarantine
stays until a later reset exactly when no other operation in flight can still write over it.
-/

namespace Vyrm.Store
open Lib Vyrm.Core

/-- The operations on the projection. -/
inductive Operation where
  | rebuild
  | ground (at_ : Millis)
  | reset
  deriving DecidableEq

/-- What an operation returns. -/
inductive Outcome where
  | rebuilt (outcome : RebuildOutcome)
  | grounding (report : GroundingReport)

/-- What the storage does with one access. A failed write may have been stored
(`Fjall::persist` after the insert). -/
inductive Answer where
  | read
  | counted (sequence : UInt64)
  | found (claims : List Claim)
  | wrote (failure : Option Error)
  | failed (e : Error)

namespace Program

variable {α β : Type}

/-- `Result::map` on what the operation returns. -/
def map (f : α → β) : Program α → Program β
  | .done result => .done (result.map f)
  | .getProjection next => .getProjection fun bytes => (next bytes).map f
  | .sequence next => .sequence fun n => (next n).map f
  | .claimsInRange from_ to_ next => .claimsInRange from_ to_ fun claims => (next claims).map f
  | .putProjection bytes durability next => .putProjection bytes durability (next.map f)

/-- One access: the rest of the operation, and the projection stored after it. -/
def access (stored : Option Bytes) : Program α → Answer → Option (Program α × Option Bytes)
  | .getProjection next, .read => some (next stored, stored)
  | .sequence next, .counted n => some (next n, stored)
  | .claimsInRange _ _ next, .found claims => some (next claims, stored)
  | .putProjection bytes _ next, .wrote none => some (next, some bytes)
  | .putProjection bytes _ _, .wrote (some e) => some (.done (.error e), some bytes)
  | .done _, _ => none
  | _, .failed e => some (.done (.error e), stored)
  | _, _ => none

/-- Whether the operation has returned. -/
def isDone : Program α → Bool
  | .done _ => true
  | _ => false

/-- The projection has been read, and the write is the last access. -/
def Tail : Program α → Prop
  | .done _ => True
  | .getProjection _ => False
  | .sequence next => ∀ n, (next n).Tail
  | .claimsInRange _ _ next => ∀ claims, (next claims).Tail
  | .putProjection _ _ next => ∃ result, next = .done result

variable {program rest : Program α} {stored later : Option Bytes} {answer : Answer}

theorem tail_map {f : α → β} (tail : program.Tail) : (program.map f).Tail := by
  induction program with
  | done => trivial
  | getProjection => exact tail
  | sequence next ih => exact fun n => ih _ (tail n)
  | claimsInRange from_ to_ next ih => exact fun claims => ih _ (tail claims)
  | putProjection bytes durability next ih =>
    obtain ⟨result, rfl⟩ := tail
    exact ⟨_, rfl⟩

/-- An access writes nothing, or ends the operation. -/
theorem access_tail (tail : program.Tail)
    (accessed : program.access stored answer = some (rest, later)) :
    rest.Tail ∧ (later = stored ∨ ∃ result, rest = .done result) := by
  cases program <;> cases answer
  case getProjection.read => cases tail
  case putProjection.wrote failure =>
    cases failure <;> cases accessed
    · obtain ⟨result, rfl⟩ := tail
      exact ⟨trivial, .inr ⟨_, rfl⟩⟩
    · exact ⟨trivial, .inr ⟨_, rfl⟩⟩
  all_goals cases accessed
  all_goals first | exact ⟨tail _, .inl rfl⟩ | exact ⟨trivial, .inl rfl⟩

/-- Only a write changes what is stored. -/
theorem access_keeps (accessed : program.access stored answer = some (rest, later))
    (other : ∀ failure, answer ≠ .wrote failure) : later = stored := by
  cases program <;> cases answer
  case putProjection.wrote failure => exact absurd rfl (other failure)
  all_goals cases accessed
  all_goals rfl

end Program

/-! ## Operations that cannot undo a quarantine -/

section

variable [Serde StoredProjection] {α β : Type}

/-- Whether a stored projection is quarantined. -/
def isQuarantined (stored : Option Bytes) : Bool :=
  match stored.map CurrentProjection.fromStoredBytes with
  | some (.ok { status := .quarantined _ _, .. }) => true
  | _ => false

theorem isQuarantined_some {bytes : Bytes} (halted : isQuarantined (some bytes)) :
    ∃ projection at_ differences, CurrentProjection.fromStoredBytes bytes = .ok projection ∧
      projection.status = .quarantined at_ differences := by
  unfold isQuarantined at halted
  rw [Option.map_some] at halted
  split at halted
  · next loaded =>
    rw [Option.some.injEq] at loaded
    exact ⟨_, _, _, loaded, rfl⟩
  · cases halted

namespace Program

variable {program rest : Program α} {stored later : Option Bytes} {answer : Answer}

/-- Once the stored projection is quarantined, whatever the operation still writes is quarantined. -/
def Harmless : Program α → Prop
  | .done _ => True
  | .getProjection next => ∀ bytes, isQuarantined (some bytes) → (next (some bytes)).Harmless
  | .sequence next => ∀ n, (next n).Harmless
  | .claimsInRange _ _ next => ∀ claims, (next claims).Harmless
  | .putProjection bytes _ next => isQuarantined (some bytes) ∧ next.Harmless

theorem harmless_of_isDone (done : program.isDone) : program.Harmless := by
  cases program with
  | done => trivial
  | _ => cases done

theorem harmless_map {f : α → β} (harmless : program.Harmless) : (program.map f).Harmless := by
  induction program with
  | done => trivial
  | getProjection next ih => exact fun bytes halted => ih _ (harmless bytes halted)
  | sequence next ih => exact fun n => ih _ (harmless n)
  | claimsInRange from_ to_ next ih => exact fun claims => ih _ (harmless claims)
  | putProjection bytes durability next ih => exact ⟨harmless.1, ih harmless.2⟩

theorem access_harmless (harmless : program.Harmless) (halted : isQuarantined stored)
    (accessed : program.access stored answer = some (rest, later)) :
    isQuarantined later ∧ rest.Harmless := by
  cases program <;> cases answer
  case getProjection.read next =>
    cases accessed
    cases stored with
    | none => cases halted
    | some bytes => exact ⟨halted, harmless bytes halted⟩
  case sequence.counted =>
    cases accessed
    exact ⟨halted, harmless _⟩
  case claimsInRange.found =>
    cases accessed
    exact ⟨halted, harmless _⟩
  case putProjection.wrote failure =>
    cases failure <;> cases accessed
    · exact harmless
    · exact ⟨harmless.1, trivial⟩
  all_goals
    cases accessed
  all_goals exact ⟨halted, trivial⟩

end Program

end

/-! ## Operations in flight -/

section

variable [Serde Claim] [Serde StoredProjection]

/-- What an operation does. -/
def Operation.program : Operation → Program Outcome
  | .rebuild => Engine.rebuildCurrent.map .rebuilt
  | .ground at_ => (Engine.groundCurrent at_).map .grounding
  | .reset => Engine.resetCurrent.map .rebuilt

/-- An operation and what is left of it. -/
structure Call where
  operation : Operation
  program : Program Outcome

/-- The stored projection, and the operations begun so far. -/
structure Calls where
  stored : Option Bytes
  running : List Call

/-- What happens next: an operation begins, or the storage answers one. -/
inductive CallEvent where
  | began (operation : Operation)
  | answered (call : Nat) (operation : Operation) (answer : Answer)

/-- The call that an event answers. -/
def CallEvent.call : CallEvent → Option Nat
  | .began _ => none
  | .answered i _ _ => some i

/-- One event. -/
def Calls.step (calls : Calls) : CallEvent → Option Calls
  | .began operation =>
    some { calls with running := calls.running ++ [⟨operation, operation.program⟩] }
  | .answered i operation answer => do
    let call ← calls.running[i]?
    if call.operation = operation then
      let (program, stored) ← call.program.access calls.stored answer
      return { stored, running := calls.running.set i { call with program } }
    else none

/-- The steps of the calls. -/
def Calls.Step (calls : Calls) (event : CallEvent) (next : Calls) : Prop :=
  calls.step event = some next

/-- From here on, the projection is quarantined until a reset that has not begun yet writes it. -/
def Calls.Sticky (calls : Calls) : Prop :=
  ∀ {events later}, Path Calls.Step calls events later →
    (∀ i failure, .answered i .reset (.wrote failure) ∈ events → i < calls.running.length) →
    isQuarantined later.stored

omit [Serde Claim] in
/-- A rebuild and a grounding read the projection first, and refuse a quarantined one. -/
theorem currentProjection_harmless {α : Type} {next : CurrentProjection → Program α}
    (refuses : ∀ projection at_ differences, projection.status = .quarantined at_ differences →
      (next projection).Harmless) : (Engine.currentProjection next).Harmless := by
  intro bytes halted
  obtain ⟨projection, at_, differences, loaded, status⟩ := isQuarantined_some halted
  dsimp only
  rw [loaded]
  exact refuses projection at_ differences status

theorem Operation.harmless {operation : Operation} (other : operation ≠ .reset) :
    operation.program.Harmless := by
  cases operation with
  | rebuild =>
    apply Program.harmless_map
    apply currentProjection_harmless
    intro projection at_ differences status
    rw [status]
    trivial
  | ground at_ =>
    apply Program.harmless_map
    apply currentProjection_harmless
    intro projection at_ differences status
    rw [status]
    trivial
  | reset => exact absurd rfl other

omit [Serde Claim] in
/-- After the first access of a rebuild or a grounding. -/
theorem currentProjection_tail {α β : Type} {next : CurrentProjection → Program α} {f : α → β}
    {rest : Program β} {stored later : Option Bytes} {answer : Answer}
    (tail : ∀ projection, (next projection).Tail)
    (accessed : ((Engine.currentProjection next).map f).access stored answer = some (rest, later)) :
    rest.Tail ∧ later = stored := by
  cases answer
  case read =>
    cases accessed
    refine ⟨Program.tail_map ?_, rfl⟩
    dsimp only
    split
    · split
      · exact tail _
      · trivial
    · exact tail _
  case failed e =>
    cases accessed
    exact ⟨trivial, rfl⟩
  all_goals cases accessed

theorem Operation.access_tail {operation : Operation} (other : operation ≠ .reset)
    {rest : Program Outcome} {stored later : Option Bytes} {answer : Answer}
    (accessed : operation.program.access stored answer = some (rest, later)) :
    rest.Tail ∧ later = stored := by
  cases operation with
  | rebuild =>
    apply currentProjection_tail _ accessed
    intro projection
    split
    · trivial
    · exact fun _ _ => ⟨_, rfl⟩
  | ground at_ =>
    apply currentProjection_tail _ accessed
    intro projection
    split
    · trivial
    · intro claims
      dsimp only
      split
      · exact ⟨_, rfl⟩
      · exact ⟨_, rfl⟩
  | reset => exact absurd rfl other

/-! ## Runs -/

namespace Calls

variable {calls next : Calls} {event : CallEvent} {n : Nat}

theorem step_cases (step : calls.Step event next) :
    (∃ operation, event = .began operation ∧
      next = { calls with running := calls.running ++ [⟨operation, operation.program⟩] }) ∨
    ∃ i call answer rest stored, event = .answered i call.operation answer ∧
      calls.running[i]? = some call ∧
      call.program.access calls.stored answer = some (rest, stored) ∧
      next = { stored, running := calls.running.set i { call with program := rest } } := by
  cases event with
  | began operation => exact .inl ⟨operation, rfl, (Option.some.inj step).symm⟩
  | answered i operation answer =>
    refine .inr ?_
    obtain ⟨call, found, step⟩ := Option.bind_eq_some_iff.mp step
    split at step
    · next same =>
      obtain ⟨⟨rest, stored⟩, accessed, isNext⟩ := Option.bind_eq_some_iff.mp step
      cases same
      exact ⟨i, call, answer, rest, stored, rfl, found, accessed, (Option.some.inj isNext).symm⟩
    · cases step

theorem step_answered {i : Nat} {call : Call} {answer : Answer} {rest : Program Outcome}
    {stored : Option Bytes} (found : calls.running[i]? = some call)
    (accessed : call.program.access calls.stored answer = some (rest, stored)) :
    calls.Step (.answered i call.operation answer)
      { stored, running := calls.running.set i { call with program := rest } } := by
  simp [Step, Calls.step, found, accessed]

/-- The projection is quarantined, and only a reset that began after call `n` can write over it. -/
structure Guarded (n : Nat) (calls : Calls) : Prop where
  halted : isQuarantined calls.stored
  begun : n ≤ calls.running.length
  harmless : ∀ i call, calls.running[i]? = some call →
    call.program.Harmless ∨ call.operation = .reset ∧ n ≤ i

theorem Guarded.step (guarded : calls.Guarded n) (step : calls.Step event next)
    (early : ∀ i failure, event = .answered i .reset (.wrote failure) → i < n) :
    next.Guarded n := by
  rcases step_cases step with ⟨operation, rfl, rfl⟩ | ⟨i, call, answer, rest, stored, rfl, found, accessed, rfl⟩
  · refine ⟨guarded.halted, ?_, ?_⟩
    · rw [List.length_append]
      exact Nat.le_add_right_of_le guarded.begun
    · intro j call found
      by_cases old : j < calls.running.length
      · rw [List.getElem?_append_left old] at found
        exact guarded.harmless j call found
      · rw [List.getElem?_append_right (Nat.le_of_not_lt old), List.getElem?_singleton] at found
        split at found
        · cases found
          by_cases reset : operation = .reset
          · exact .inr ⟨reset, by have := guarded.begun; omega⟩
          · exact .inl (Operation.harmless reset)
        · cases found
  · have kept : isQuarantined stored ∧ (rest.Harmless ∨ call.operation = .reset ∧ n ≤ i) := by
      rcases guarded.harmless i call found with harmless | ⟨reset, late⟩
      · obtain ⟨halted, harmless⟩ := Program.access_harmless harmless guarded.halted accessed
        exact ⟨halted, .inl harmless⟩
      · have other : ∀ failure, answer ≠ .wrote failure := by
          intro failure isWrite
          have := early i failure (by rw [reset, isWrite])
          omega
        rw [Program.access_keeps accessed other]
        exact ⟨guarded.halted, .inr ⟨reset, late⟩⟩
    refine ⟨kept.1, ?_, ?_⟩
    · rw [List.length_set]
      exact guarded.begun
    · intro j other found'
      by_cases same : i = j
      · subst same
        rw [List.getElem?_set_self (List.getElem?_eq_some_iff.mp found).1] at found'
        cases found'
        exact kept.2
      · rw [List.getElem?_set_ne same] at found'
        exact guarded.harmless j other found'

theorem Guarded.path {events : List CallEvent} (guarded : calls.Guarded n)
    (path : Path Step calls events next)
    (early : ∀ i failure, .answered i .reset (.wrote failure) ∈ events → i < n) : next.Guarded n := by
  induction path with
  | nil => exact guarded
  | cons first _ ih =>
    apply ih
    · apply guarded.step first
      intro i failure isFirst
      exact early i failure (isFirst ▸ List.mem_cons_self)
    · intro i failure member
      exact early i failure (List.mem_cons_of_mem _ member)

/-- A call past its read that could write anything else can lose the quarantine on its own. -/
theorem exists_lost {i : Nat} {operation : Operation} {program : Program Outcome}
    (tail : program.Tail) (harmful : ¬ program.Harmless)
    (found : calls.running[i]? = some ⟨operation, program⟩) :
    ∃ events later, Path Step calls events later ∧ ¬ isQuarantined later.stored ∧
      ∀ j other answer, .answered j other answer ∈ events → j = i := by
  induction program generalizing calls with
  | done => exact absurd trivial harmful
  | getProjection => exact tail.elim
  | sequence following ih =>
    obtain ⟨n, harmful⟩ := not_forall.mp harmful
    have first : calls.Step (.answered i operation (.counted n)) _ := step_answered found rfl
    have found : (calls.running.set i ⟨operation, following n⟩)[i]? = some ⟨operation, following n⟩ :=
      List.getElem?_set_self (List.getElem?_eq_some_iff.mp found).1
    obtain ⟨events, later, path, lost, only⟩ := @ih n ⟨calls.stored, _⟩ (tail n) harmful found
    refine ⟨_, later, .cons first path, lost, ?_⟩
    intro j other answer member
    cases member with
    | head => rfl
    | tail _ member => exact only j other answer member
  | claimsInRange from_ to_ following ih =>
    obtain ⟨claims, harmful⟩ := not_forall.mp harmful
    have first : calls.Step (.answered i operation (.found claims)) _ := step_answered found rfl
    have found : (calls.running.set i ⟨operation, following claims⟩)[i]? = some ⟨operation, following claims⟩ :=
      List.getElem?_set_self (List.getElem?_eq_some_iff.mp found).1
    obtain ⟨events, later, path, lost, only⟩ := @ih claims ⟨calls.stored, _⟩ (tail claims) harmful found
    refine ⟨_, later, .cons first path, lost, ?_⟩
    intro j other answer member
    cases member with
    | head => rfl
    | tail _ member => exact only j other answer member
  | putProjection bytes durability following ih =>
    obtain ⟨result, rfl⟩ := tail
    have first : calls.Step (.answered i operation (.wrote none)) _ := step_answered found rfl
    refine ⟨_, _, .cons first (.nil _), fun halted => harmful ⟨halted, trivial⟩, ?_⟩
    intro j other answer member
    cases member with
    | head => rfl
    | tail _ member => cases member

/-- A run that computes through all its events. -/
theorem exists_path {events : List CallEvent} {check : Calls → Bool}
    (computed : (events.foldlM step calls).any check) :
    ∃ later, Path Step calls events later ∧ check later := by
  obtain ⟨later, reached, passes⟩ := (Option.any_eq_true _ _).mp computed
  exact ⟨later, Path.of_foldlM reached, passes⟩

/-- Every call has yet to read the projection, or is past its read. -/
def Ordered (calls : Calls) : Prop :=
  ∀ call ∈ calls.running, call.program.Tail ∨
    call.program = call.operation.program ∧ call.operation ≠ .reset

theorem Ordered.access {call : Call} {rest : Program Outcome} {stored : Option Bytes}
    {answer : Answer} (ordered : calls.Ordered) (member : call ∈ calls.running)
    (accessed : call.program.access calls.stored answer = some (rest, stored)) :
    rest.Tail ∧ (stored = calls.stored ∨ ∃ result, rest = .done result) := by
  rcases ordered call member with tail | ⟨unread, other⟩
  · exact Program.access_tail tail accessed
  · rw [unread] at accessed
    obtain ⟨tail, same⟩ := Operation.access_tail other accessed
    exact ⟨tail, .inl same⟩

theorem Ordered.step (ordered : calls.Ordered) (step : calls.Step event next) : next.Ordered := by
  intro call member
  rcases step_cases step with ⟨operation, rfl, rfl⟩ | ⟨i, answered, answer, rest, stored, rfl, found, accessed, rfl⟩
  · rcases List.mem_append.mp member with old | new
    · exact ordered call old
    · rw [List.mem_singleton] at new
      subst new
      by_cases reset : operation = .reset
      · subst reset
        exact .inl (Program.tail_map fun _ _ => ⟨_, rfl⟩)
      · exact .inr ⟨rfl, reset⟩
  · rcases List.mem_or_eq_of_mem_set member with old | new
    · exact ordered call old
    · subst new
      exact .inl (ordered.access (List.mem_of_getElem? found) accessed).1

theorem sticky_iff (ordered : calls.Ordered) (halted : isQuarantined calls.stored) :
    calls.Sticky ↔ ∀ call ∈ calls.running, call.program.Harmless := by
  constructor
  · intro sticky call member
    rcases ordered call member with tail | ⟨unread, other⟩
    · by_contra harmful
      obtain ⟨i, found⟩ := List.mem_iff_getElem?.mp member
      obtain ⟨events, later, path, lost, only⟩ := exists_lost tail harmful found
      refine lost (sticky path ?_)
      intro j failure wrote
      rw [only j _ _ wrote]
      exact (List.getElem?_eq_some_iff.mp found).1
    · rw [unread]
      exact Operation.harmless other
  · intro harmless events later path early
    have guarded : calls.Guarded calls.running.length :=
      ⟨halted, Nat.le_refl _, fun _ call found => .inl (harmless call (List.mem_of_getElem? found))⟩
    exact (guarded.path path early).halted

/-- No other call in flight can still write over a quarantine. -/
def Alone (calls : Calls) (event : CallEvent) : Prop :=
  ∀ i call, calls.running[i]? = some call → event.call ≠ some i → call.program.Harmless

omit [Serde Claim] in
theorem alone_of_isDone {i : Nat} {operation : Operation} {answer : Answer}
    (done : calls.running.zipIdx.all fun (call, j) => i = j || call.program.isDone) :
    calls.Alone (.answered i operation answer) := by
  intro j call found other
  have checked := List.all_eq_true.mp done (call, j) (List.mem_zipIdx_iff_getElem?.mpr found)
  rw [Bool.or_eq_true, decide_eq_true_eq] at checked
  rcases checked with rfl | finished
  · exact absurd rfl other
  · exact Program.harmless_of_isDone finished

/-- A quarantine that a step writes stays until a later reset exactly when no other call in flight
can still write over it; one that the store was opened with stays. -/
theorem quarantine_sticky {start halted : Calls} {events : List CallEvent}
    (opened : start.running = []) (path : Path Step start events calls) :
    (isQuarantined start.stored → start.Sticky) ∧
    (¬ isQuarantined calls.stored → calls.Step event halted → isQuarantined halted.stored →
      (halted.Sticky ↔ calls.Alone event)) := by
  have ordered : start.Ordered := by
    intro call member
    rw [opened] at member
    cases member
  constructor
  · intro quarantined
    rw [sticky_iff ordered quarantined, opened]
    intro call member
    cases member
  · intro active step quarantined
    have before : calls.Ordered := path.keeps (fun _ _ _ ordered step => ordered.step step) ordered
    rw [sticky_iff (before.step step) quarantined]
    rcases step_cases step with ⟨operation, rfl, rfl⟩ | ⟨i, call, answer, rest, stored, rfl, found, accessed, rfl⟩
    · exact absurd quarantined active
    · have finished : ∃ result, rest = .done result := by
        rcases (before.access (List.mem_of_getElem? found) accessed).2 with same | finished
        · rw [same] at quarantined
          exact absurd quarantined active
        · exact finished
      obtain ⟨result, rfl⟩ := finished
      constructor
      · intro harmless j other present elsewhere
        apply harmless
        have different : i ≠ j := fun same => elsewhere (congrArg some same)
        exact List.mem_of_getElem? ((List.getElem?_set_ne different).trans present)
      · intro alone other member
        obtain ⟨j, present⟩ := List.mem_iff_getElem?.mp member
        by_cases same : i = j
        · subst same
          rw [List.getElem?_set_self (List.getElem?_eq_some_iff.mp found).1] at present
          cases present
          trivial
        · rw [List.getElem?_set_ne same] at present
          exact alone j other present fun answered => same (Option.some.inj answered)

end Calls

end

/-! ## A door that is recorded twice -/

/-- What a sensor says about the door at one instant. -/
def door (object : String) : Claim :=
  { subject := .lit "door" (Eq.refl true), predicate := .lit "state" (Eq.refl true), object,
    validFrom := 5, validTo := none, txTime := 5, producer := ⟨"sensor", none, none⟩,
    confidence := none, supersedes := none, signature := none, tier := .localTier,
    promotionState := .unpromoted }

/-- A JSON string, of text without control characters. -/
def jsonText (text : String) : String :=
  quoted (String.join (text.toList.map fun c =>
    if c = '"' then "\\\"" else if c = '\\' then "\\\\" else String.singleton c))

/-- The JSON of a projection that was never grounded, of plain claims. -/
def plainProjection (stored : StoredProjection) : String :=
  let status := match stored.status with
    | .active => quoted "Active"
    | .quarantined at_ differences =>
      object [member "Quarantined" (some (object [member "at" (some (toString at_)),
        member "differences" (some ("[" ++ String.intercalate "," (differences.map jsonText) ++ "]"))]))]
  object [member "watermark" (some (toString stored.watermark)), member "status" (some status),
    member "last_grounded" (some "null"),
    member "entries" (some ("[" ++ String.intercalate "," (stored.entries.map plainClaim) ++ "]"))]

/-- The projection with the door open, as the first rebuild leaves it. -/
def doorOpened : CurrentProjection :=
  { CurrentProjection.empty.apply [door "open"] with watermark := 1 }

/-- The same after the grounding that finds the door shut. -/
def doorDisputed : CurrentProjection :=
  let recomputed := CurrentProjection.empty.apply [door "shut"]
  let differences := CurrentProjection.difference recomputed.entries doorOpened.entries
  { doorOpened with status := .quarantined 9 differences }

/-- The same after the rebuild that read it before the grounding wrote. -/
def doorRebuilt : CurrentProjection :=
  { doorOpened.apply [door "shut"] with watermark := 2 }

@[reducible] def doorClaims : Serde Claim := .ofTexts plainClaim [door "open", door "shut"]

@[reducible] def doorProjections : Serde StoredProjection :=
  .ofTexts plainProjection [doorOpened.toStored, doorDisputed.toStored, doorRebuilt.toStored]

/-- The first rebuild, with `open` in the log. -/
def doorRebuild : List CallEvent :=
  [.began .rebuild, .answered 0 .rebuild .read, .answered 0 .rebuild (.counted 1),
    .answered 0 .rebuild (.found [door "open"]), .answered 0 .rebuild (.wrote none)]

/-- The grounding, after `shut` was appended under the key of `open`: up to its write. -/
def doorGround : List CallEvent :=
  [.began (.ground 9), .answered 1 (.ground 9) .read, .answered 1 (.ground 9) (.found [door "shut"])]

/-- With no other call in flight the grounding's quarantine is sticky. -/
theorem quarantine_sticky_door : let _ := doorClaims; let _ := doorProjections
    ∃ calls halted, Path Calls.Step ⟨none, []⟩ (doorRebuild ++ doorGround) calls ∧
      calls.Step (.answered 1 (.ground 9) (.wrote none)) halted ∧ halted.Sticky := by
  let _ := doorClaims
  let _ := doorProjections
  obtain ⟨calls, path, checked⟩ : ∃ calls, Path Calls.Step ⟨none, []⟩ (doorRebuild ++ doorGround) calls ∧
      (! isQuarantined calls.stored &&
        (calls.running.zipIdx.all fun (call, j) => 1 = j || call.program.isDone) &&
        (calls.step (.answered 1 (.ground 9) (.wrote none))).any (isQuarantined ·.stored)) :=
    Calls.exists_path (by decide +kernel)
  simp only [Bool.and_eq_true, Bool.not_eq_true'] at checked
  obtain ⟨⟨active, done⟩, written⟩ := checked
  obtain ⟨halted, step, quarantined⟩ := (Option.any_eq_true _ _).mp written
  refine ⟨calls, halted, path, step, ?_⟩
  exact ((Calls.quarantine_sticky rfl path).2 (by rw [active]; decide) step quarantined).mpr
    (Calls.alone_of_isDone done)

/-- A rebuild that read the projection before the grounding wrote lifts the quarantine. -/
theorem rebuild_lifts_quarantine : let _ := doorClaims; let _ := doorProjections
    ∃ calls halted, Path Calls.Step ⟨none, []⟩
        (doorRebuild ++ doorGround ++ [.began .rebuild, .answered 2 .rebuild .read]) calls ∧
      ¬ isQuarantined calls.stored ∧ calls.Step (.answered 1 (.ground 9) (.wrote none)) halted ∧
      isQuarantined halted.stored ∧ ¬ halted.Sticky := by
  let _ := doorClaims
  let _ := doorProjections
  let rest : List CallEvent := [.answered 2 .rebuild (.counted 2), .answered 2 .rebuild (.found [door "shut"]),
    .answered 2 .rebuild (.wrote none)]
  obtain ⟨calls, path, checked⟩ : ∃ calls, Path Calls.Step ⟨none, []⟩
      (doorRebuild ++ doorGround ++ [.began .rebuild, .answered 2 .rebuild .read]) calls ∧
      (! isQuarantined calls.stored && (calls.step (.answered 1 (.ground 9) (.wrote none))).any fun halted =>
        isQuarantined halted.stored && (rest.foldlM Calls.step halted).any fun later =>
          ! isQuarantined later.stored) :=
    Calls.exists_path (by decide +kernel)
  simp only [Bool.and_eq_true, Bool.not_eq_true', Option.any_eq_true] at checked
  obtain ⟨active, halted, step, quarantined, later, reached, lifted⟩ := checked
  refine ⟨calls, halted, path, by rw [active]; decide, step, quarantined, ?_⟩
  intro sticky
  have still := sticky (Path.of_foldlM reached) (by simp [rest])
  rw [lifted] at still
  cases still

end Vyrm.Store
