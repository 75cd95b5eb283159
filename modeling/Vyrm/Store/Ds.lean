import Vyrm.Store.Memory.Log
import Vyrm.Store.Object

/-!
# Data transactions

`crates/vyrm-store/src/ds.rs`: `DataRuntime::commit_with_hook` as the separate steps it takes. The
objects of a transaction are verified one by one, the outcome of its commit is looked up, and when
there is none it is committed. Callers run side by side, and may stop anywhere.
-/

namespace Vyrm.Store
open Lib Vyrm.Core

/-- Where a call stands. The steps named after a hook run it. -/
inductive DataPc where
  | entered
  | beforeObjectVerification
  /-- The objects among the rest of the mutations have yet to be verified. -/
  | verifying (rest : List RuntimeMutation)
  | afterObjectVerification
  | beforeCommit
  | lookup
  | committing
  | afterCommit (outcome : RuntimeCommitOutcome)
  | returned (result : Except ObjectError RuntimeCommitOutcome)

/-- What is remembered of a run: the objects that were verified, with the bytes that were read, and
the commits the engine accepted, with the calls that made them. -/
inductive DataEvent where
  | verified (object : VerifiedObject) (bytes : Bytes)
  | accepted (call : Nat) (commit : RuntimeCommit) (outcome : RuntimeCommitOutcome)

/-- The checks of a verified object against its reference (`ds.rs:84-98`). -/
def checkObject (object : ObjectReference) (verified : VerifiedObject) : Except ObjectError Unit := do
  if verified.length ≠ object.length then
    throw (.objectLengthMismatch object.length verified.length)
  if verified.receipt.backend ≠ object.receipt.backend ∨ verified.receipt.key ≠ object.receipt.key ∨
      verified.receipt.version ≠ object.receipt.version then
    throw (.object "committed object receipt differs from verified backend evidence")

/-- `commit_data_transaction` (`engine.rs:143-149`). -/
def commitDataTransaction (engine : MemoryEngine) (transaction : DataTransaction) :
    Except Error RuntimeCommitOutcome × MemoryEngine :=
  match kernel transaction.validate with
  | .error e => (.error e, engine)
  | .ok () => engine.commitRuntime transaction.commit

/-- What a hook lets follow. -/
def hooked (answer : Except ObjectError Unit) (next : DataPc) : DataPc :=
  match answer with
  | .error e => .returned (.error e)
  | .ok () => next

/-- One mutation of the loop over the objects (`ds.rs:80-99`). -/
def verifyMutation (files : Files) (rest : List RuntimeMutation) : RuntimeMutation → DataPc × List DataEvent
  | .object object =>
    match verify files object.sha256 with
    | .error e => (.returned (.error e), [])
    | .ok verified =>
      let events := [.verified verified (files.held verified.receipt.key)]
      match checkObject object verified with
      | .error e => (.returned (.error e), events)
      | .ok () => (.verifying rest, events)
  | _ => (.verifying rest, [])

/-- The next step of a call (`ds.rs:78-108`), over what is in the files and what the hook answers.
With the place it leads to it gives the engine and what is to be remembered. -/
def advanceData (call : Nat) (engine : MemoryEngine) (files : Files) (answer : Except ObjectError Unit)
    (transaction : DataTransaction) : DataPc → DataPc × MemoryEngine × List DataEvent
  | .entered =>
    match transaction.validate with
    | .error e => (.returned (.error (.other (.kernel e))), engine, [])
    | .ok () => (.beforeObjectVerification, engine, [])
  | .beforeObjectVerification =>
    (hooked answer (.verifying transaction.commit.mutations), engine, [])
  | .verifying [] => (.afterObjectVerification, engine, [])
  | .verifying (mutation :: rest) =>
    let (pc, events) := verifyMutation files rest mutation
    (pc, engine, events)
  | .afterObjectVerification => (hooked answer .beforeCommit, engine, [])
  | .beforeCommit => (hooked answer .lookup, engine, [])
  | .lookup =>
    match engine.runtimeCommits[transaction.commit.digest]? with
    | some outcome => (.afterCommit outcome, engine, [])
    | none => (.committing, engine, [])
  | .committing =>
    match commitDataTransaction engine transaction with
    | (.error e, engine) => (.returned (.error (.other e)), engine, [])
    | (.ok outcome, engine) =>
      (.afterCommit outcome, engine, [.accepted call transaction.commit outcome])
  | .afterCommit outcome => (hooked answer (.returned (.ok outcome)), engine, [])
  | .returned result => (.returned result, engine, [])

/-! ## Runs -/

/-- The engine, what is in the object files, the calls and what is remembered. -/
structure DataWorld where
  engine : MemoryEngine
  files : Files
  calls : List (DataTransaction × DataPc)
  history : List DataEvent

namespace DataWorld

def start (files : Files) : DataWorld := { engine := MemoryEngine.new, files, calls := [], history := [] }

/-- A call takes its next step. -/
def advance (world : DataWorld) (i : Nat) (answer : Except ObjectError Unit) (transaction : DataTransaction)
    (pc : DataPc) : DataWorld :=
  let (pc, next, events) := advanceData i world.engine world.files answer transaction pc
  { world with
    engine := next
    calls := world.calls.set i (transaction, pc)
    history := world.history ++ events }

/-- What can happen: a call is made, a call takes a step, or the files change in any way. -/
inductive Step (world : DataWorld) : DataWorld → Prop where
  | call (transaction : DataTransaction) :
    Step world { world with calls := world.calls ++ [(transaction, .entered)] }
  | advance {i : Nat} {transaction : DataTransaction} {pc : DataPc} (answer : Except ObjectError Unit)
    (called : world.calls[i]? = some (transaction, pc))
    (room : pc = .committing → world.engine.Room transaction.commit) :
    Step world (world.advance i answer transaction pc)
  | files (files : Files) : Step world { world with files }

/-- The worlds that runs reach. -/
def Reachable (world : DataWorld) : Prop := ∃ files, Relation.ReflTransGen Step (start files) world

/-- The commits of the calls that were made. -/
def commits (world : DataWorld) : List RuntimeCommit := world.calls.map fun call => call.1.commit

end DataWorld

/-- The commits the engine accepted, with their outcomes. -/
def accepted (history : List DataEvent) : List (RuntimeCommit × RuntimeCommitOutcome) :=
  history.filterMap fun
    | .accepted _ commit outcome => some (commit, outcome)
    | .verified _ _ => none

/-- What a commit contributes to the log. -/
def contribution (commit : RuntimeCommit) : List (ScopeId × Millis × String × RuntimeMutation) :=
  commit.mutations.map fun mutation => (commit.scope, commit.at_, commit.actor, mutation)

/-- What a change of the log is, apart from its place in it. -/
def content (change : RuntimeChange) : ScopeId × Millis × String × RuntimeMutation :=
  (change.scope, change.at_, change.actor, change.mutation)

/-- The store has verified bytes with the digest and length of a reference. -/
def VerifiedIn (history : List DataEvent) (object : ObjectReference) : Prop :=
  ∃ verified bytes, DataEvent.verified verified bytes ∈ history ∧ verified.Names bytes ∧
    verified.sha256 = object.sha256 ∧ verified.length = object.length

/-- All objects a commit refers to are verified before it is accepted. -/
def ObjectsFirst (before : List DataEvent) (event : DataEvent) : Prop :=
  ∀ call commit outcome, event = .accepted call commit outcome →
    ∀ object, RuntimeMutation.object object ∈ commit.mutations → VerifiedIn before object

/-! ## One step -/

/-- What is known of a call from where it stands. -/
def Underway (history : List DataEvent) (transaction : DataTransaction) : DataPc → Prop
  | .verifying rest => ∃ done, transaction.commit.mutations = done ++ rest ∧
      ∀ object, RuntimeMutation.object object ∈ done → VerifiedIn history object
  | .afterObjectVerification | .beforeCommit | .lookup | .committing =>
    ∀ object, RuntimeMutation.object object ∈ transaction.commit.mutations → VerifiedIn history object
  | .afterCommit outcome | .returned (.ok outcome) =>
    ∃ commit, (commit, outcome) ∈ accepted history ∧ commit.digest = transaction.commit.digest
  | _ => True

section
variable {engine next : MemoryEngine} {commit : RuntimeCommit} {outcome : RuntimeCommitOutcome}
  {history more : List DataEvent} {transaction : DataTransaction} {pc : DataPc} {object : ObjectReference}

@[simp] theorem accepted_append : accepted (history ++ more) = accepted history ++ accepted more :=
  List.filterMap_append

theorem VerifiedIn.append (verified : VerifiedIn history object) : VerifiedIn (history ++ more) object := by
  obtain ⟨found, bytes, member, names⟩ := verified
  exact ⟨found, bytes, List.mem_append_left _ member, names⟩

/-- What is known of a call stays true. -/
theorem Underway.append (underway : Underway history transaction pc) :
    Underway (history ++ more) transaction pc := by
  cases pc with
  | verifying rest =>
    obtain ⟨done, split, verified⟩ := underway
    exact ⟨done, split, fun object member => (verified object member).append⟩
  | afterObjectVerification => exact fun object member => (underway object member).append
  | beforeCommit => exact fun object member => (underway object member).append
  | lookup => exact fun object member => (underway object member).append
  | committing => exact fun object member => (underway object member).append
  | afterCommit outcome =>
    obtain ⟨commit, member, same⟩ := underway
    exact ⟨commit, by simp [member], same⟩
  | returned result =>
    cases result with
    | error e => trivial
    | ok outcome =>
      obtain ⟨commit, member, same⟩ := underway
      exact ⟨commit, by simp [member], same⟩
  | entered => trivial
  | beforeObjectVerification => trivial

theorem Underway.hooked (underway : Underway history transaction pc) (answer : Except ObjectError Unit) :
    Underway history transaction (Store.hooked answer pc) := by
  cases answer with
  | error e => trivial
  | ok => exact underway

theorem checkObject_ok {verified : VerifiedObject} (checked : checkObject object verified = .ok ()) :
    verified.length = object.length := by
  simp only [checkObject, except_throw, except_error_bind, except_reject_ok, not_not] at checked
  exact checked.1

/-- What verifying a mutation remembers is true, and enough to go on with the rest. -/
theorem verifyMutation_cases (files : Files) (rest : List RuntimeMutation) (mutation : RuntimeMutation)
    (underway : Underway history transaction (.verifying (mutation :: rest))) :
    ∃ pc' events, verifyMutation files rest mutation = (pc', events) ∧
      Underway (history ++ events) transaction pc' ∧
      ∀ event ∈ events, ∃ verified bytes, event = .verified verified bytes ∧ verified.Names bytes := by
  obtain ⟨done, split, earlier⟩ := underway
  have split : transaction.commit.mutations = (done ++ [mutation]) ++ rest := by simpa using split
  cases mutation with
  | object object =>
    rw [verifyMutation]
    cases found : verify files object.sha256 with
    | error e => exact ⟨_, _, rfl, trivial, by simp⟩
    | ok verified =>
      obtain ⟨same, -, -, names⟩ := verify_ok found
      cases checked : checkObject object verified with
      | error e =>
        refine ⟨.returned (.error e), [.verified verified _], ?_, trivial, by simpa using names⟩
        simp only [checked]
      | ok =>
        refine ⟨.verifying rest, [.verified verified _], ?_, ⟨_, split, ?_⟩, by simpa using names⟩
        · simp only [checked]
        · intro other member
          rcases List.mem_append.mp member with old | new
          · exact (earlier other old).append
          · obtain rfl : other = object := by simpa using new
            exact ⟨verified, _, by simp, names, same, checkObject_ok checked⟩
  | _ =>
    refine ⟨_, [], rfl, ⟨_, split, ?_⟩, by simp⟩
    intro other member
    exact (earlier other (by simpa using member)).append

/-- A step leaves the engine alone, or is the commit of a transaction whose objects are verified. -/
theorem advanceData_cases {call : Nat} {files : Files} (answer : Except ObjectError Unit)
    (sound : engine.Sound) (room : pc = .committing → engine.Room transaction.commit)
    (outcomes : ∀ (id : String) (outcome : RuntimeCommitOutcome), engine.runtimeCommits[id]? = some outcome →
      ∃ commit, (commit, outcome) ∈ accepted history ∧ commit.digest = id)
    (underway : Underway history transaction pc) :
    ∃ pc' next events, advanceData call engine files answer transaction pc = (pc', next, events) ∧
      Underway (history ++ events) transaction pc' ∧
      (next = engine ∧ (∀ event ∈ events,
          ∃ verified bytes, event = .verified verified bytes ∧ verified.Names bytes) ∨
        ∃ outcome, pc = .committing ∧ engine.Accepts transaction.commit outcome next ∧
          events = [.accepted call transaction.commit outcome] ∧
          ∀ object, RuntimeMutation.object object ∈ transaction.commit.mutations →
            VerifiedIn history object) := by
  cases pc with
  | entered =>
    rw [advanceData]
    cases transaction.validate with
    | error e => exact ⟨_, _, _, rfl, trivial, .inl ⟨rfl, by simp⟩⟩
    | ok => exact ⟨_, _, _, rfl, trivial, .inl ⟨rfl, by simp⟩⟩
  | beforeObjectVerification =>
    have next : Underway history transaction (.verifying transaction.commit.mutations) := ⟨[], rfl, by simp⟩
    exact ⟨_, _, _, rfl, (next.hooked answer).append, .inl ⟨rfl, by simp⟩⟩
  | verifying rest =>
    cases rest with
    | nil =>
      obtain ⟨done, split, verified⟩ := underway
      refine ⟨_, _, _, rfl, ?_, .inl ⟨rfl, by simp⟩⟩
      rw [List.append_nil] at split
      rw [List.append_nil, Underway, split]
      exact verified
    | cons mutation rest =>
      obtain ⟨pc', events, verifies, after, names⟩ := verifyMutation_cases files rest mutation underway
      rw [advanceData, verifies]
      exact ⟨_, _, _, rfl, after, .inl ⟨rfl, names⟩⟩
  | afterObjectVerification =>
    have next : Underway history transaction .beforeCommit := underway
    exact ⟨_, _, _, rfl, (next.hooked answer).append, .inl ⟨rfl, by simp⟩⟩
  | beforeCommit =>
    have next : Underway history transaction .lookup := underway
    exact ⟨_, _, _, rfl, (next.hooked answer).append, .inl ⟨rfl, by simp⟩⟩
  | lookup =>
    rw [advanceData]
    cases found : engine.runtimeCommits[transaction.commit.digest]? with
    | none => exact ⟨_, _, _, rfl, Underway.append underway, .inl ⟨rfl, by simp⟩⟩
    | some outcome => exact ⟨_, _, _, rfl, Underway.append (outcomes _ _ found), .inl ⟨rfl, by simp⟩⟩
  | committing =>
    rw [advanceData, commitDataTransaction]
    cases kernel transaction.validate with
    | error e => exact ⟨_, _, _, rfl, trivial, .inl ⟨rfl, by simp⟩⟩
    | ok =>
      rcases MemoryEngine.commitRuntime_cases sound (room rfl) with
        ⟨e, -, refused⟩ | ⟨outcome, next, committed, accepts⟩
      · simp only [refused]
        exact ⟨_, _, _, rfl, trivial, .inl ⟨rfl, by simp⟩⟩
      · simp only [committed]
        refine ⟨_, _, _, rfl, ?_, .inr ⟨outcome, trivial, accepts, rfl, underway⟩⟩
        exact ⟨transaction.commit, by simp [accepted], rfl⟩
  | afterCommit outcome =>
    have next : Underway history transaction (.returned (.ok outcome)) := underway
    exact ⟨_, _, _, rfl, (next.hooked answer).append, .inl ⟨rfl, by simp⟩⟩
  | returned result => exact ⟨_, _, _, rfl, Underway.append underway, .inl ⟨rfl, by simp⟩⟩

/-- A commit adds its contribution to the log. -/
theorem content_accepts (accepts : engine.Accepts commit outcome next) :
    next.runtimeChanges.map content = engine.runtimeChanges.map content ++ contribution commit := by
  have headers : (engine.appended commit).map content =
      (engine.appended commit).map fun change => (commit.scope, commit.at_, commit.actor, change.mutation) := by
    apply List.map_congr_left
    intro change member
    obtain ⟨scope, at_, actor⟩ := header_commitChanges _ _ change member
    rw [content, scope, at_, actor]
  have mutations : (engine.appended commit).map (·.mutation) = commit.mutations := map_mutation_changesAfter
  rw [accepts.changes, List.map_append, headers, contribution, ← mutations, List.map_map]
  rfl

end

/-! ## All steps -/

namespace DataWorld

variable {world : DataWorld}

/-- What all steps preserve. -/
structure Sound (world : DataWorld) : Prop where
  engine : world.engine.Sound
  logged : world.engine.runtimeChanges.map content = (accepted world.history).flatMap fun entry => contribution entry.1
  past : ∀ entry ∈ accepted world.history, entry.1.expectedCursor.toNat < world.engine.runtimeChanges.length
  once : ((accepted world.history).map Prod.fst).Nodup
  outcomes : ∀ (id : String) (outcome : RuntimeCommitOutcome),
    world.engine.runtimeCommits[id]? = some outcome →
    ∃ commit, (commit, outcome) ∈ accepted world.history ∧ commit.digest = id
  called : ∀ entry ∈ accepted world.history, entry.1 ∈ world.commits
  objects : Placed ObjectsFirst world.history
  calls : ∀ (i : Nat) (transaction : DataTransaction) (pc : DataPc),
    world.calls[i]? = some (transaction, pc) → Underway world.history transaction pc

theorem sound_start (files : Files) : (start files).Sound where
  engine := MemoryEngine.sound_new
  logged := rfl
  past := by simp [start, accepted]
  once := List.nodup_nil
  outcomes := by simp [start, MemoryEngine.new]
  called := by simp [start, accepted]
  objects := Placed.nil
  calls := by simp [start]

theorem Sound.call (sound : world.Sound) (transaction : DataTransaction) :
    ({ world with calls := world.calls ++ [(transaction, .entered)] } : DataWorld).Sound where
  engine := sound.engine
  logged := sound.logged
  past := sound.past
  once := sound.once
  outcomes := sound.outcomes
  called entry member := by
    simpa [commits] using .inl (by simpa [commits] using sound.called entry member)
  objects := sound.objects
  calls i other pc called := by
    rw [List.getElem?_append] at called
    split at called
    · exact sound.calls i other pc called
    · obtain ⟨-, rfl, rfl⟩ : i - world.calls.length = 0 ∧ transaction = other ∧ DataPc.entered = pc := by
        simpa [List.getElem?_singleton] using called
      trivial

/-- The calls once one of them has taken a step. -/
theorem Sound.calls_set (sound : world.Sound) {i : Nat} {transaction : DataTransaction} {pc : DataPc}
    {events : List DataEvent} (underway : Underway (world.history ++ events) transaction pc) (j : Nat)
    (other : DataTransaction) (pc' : DataPc) (called : (world.calls.set i (transaction, pc))[j]? = some (other, pc')) :
    Underway (world.history ++ events) other pc' := by
  by_cases same : i = j
  · subst same
    obtain ⟨-, rfl, rfl⟩ : i < world.calls.length ∧ transaction = other ∧ pc = pc' := by
      simpa [List.getElem?_set] using called
    exact underway
  · rw [List.getElem?_set_ne same] at called
    exact (sound.calls j other pc' called).append

/-- A step makes no call. -/
theorem commits_set {i : Nat} {transaction : DataTransaction} {pc : DataPc}
    (called : world.calls[i]? = some (transaction, pc)) (pc' : DataPc) :
    (world.calls.set i (transaction, pc')).map (fun call => call.1.commit) = world.commits := by
  obtain ⟨inside, here⟩ := List.getElem?_eq_some_iff.mp called
  have long : i < world.commits.length := by simpa [commits] using inside
  have same : world.commits[i] = transaction.commit := by simp [commits, here]
  rw [List.map_set, ← commits, ← same, List.set_getElem_self]

theorem Sound.advance (sound : world.Sound) {i : Nat} {transaction : DataTransaction} {pc : DataPc}
    (answer : Except ObjectError Unit) (called : world.calls[i]? = some (transaction, pc))
    (room : pc = .committing → world.engine.Room transaction.commit) :
    (world.advance i answer transaction pc).Sound := by
  obtain ⟨pc', next, events, advances, underway, effect⟩ := @advanceData_cases _ _ _ _ i world.files answer
    sound.engine room sound.outcomes (sound.calls i transaction pc called)
  rw [DataWorld.advance, advances]
  have callers := commits_set called pc'
  rcases effect with ⟨rfl, names⟩ | ⟨outcome, rfl, accepts, rfl, verified⟩
  · have nothing : accepted events = [] := by
      rw [accepted, List.filterMap_eq_nil_iff]
      intro event member
      obtain ⟨object, bytes, rfl, -⟩ := names event member
      rfl
    have same : accepted (world.history ++ events) = accepted world.history := by
      rw [accepted_append, nothing, List.append_nil]
    refine ⟨sound.engine, ?_, ?_, ?_, ?_, ?_, ?_, sound.calls_set underway⟩
    · rw [same]; exact sound.logged
    · rw [same]; exact sound.past
    · rw [same]; exact sound.once
    · rw [same]; exact sound.outcomes
    · rw [same]
      intro entry member
      rw [commits, callers]
      exact sound.called entry member
    · apply sound.objects.append
      intro before event after split call commit outcome isAccepted
      obtain ⟨object, bytes, rfl, -⟩ := names event (by rw [split]; simp)
      cases isAccepted
  · have more : accepted (world.history ++ [.accepted i transaction.commit outcome]) =
        accepted world.history ++ [(transaction.commit, outcome)] := by
      rw [accepted_append]
      rfl
    have grown := accepts.length
    have nonempty := accepts.nonempty
    have head := MemoryEngine.toNat_head sound.engine.short
    refine ⟨accepts.sound sound.engine (room rfl), ?_, ?_, ?_, ?_, ?_, ?_, sound.calls_set underway⟩
    · rw [more, content_accepts accepts, sound.logged]
      simp
    · rw [more]
      intro entry member
      change entry.1.expectedCursor.toNat < next.runtimeChanges.length
      rcases List.mem_append.mp member with old | new
      · have := sound.past entry old
        omega
      · obtain rfl := List.mem_singleton.mp new
        rw [accepts.expected, head]
        omega
    · -- the log has grown beyond the cursor that every earlier commit expected
      rw [more, List.map_append, List.nodup_append]
      refine ⟨sound.once, by simp, ?_⟩
      intro earlier member commit last same
      obtain ⟨entry, old, rfl⟩ := List.mem_map.mp member
      obtain rfl : commit = transaction.commit := by simpa using last
      have past := sound.past entry old
      rw [same, accepts.expected, head] at past
      omega
    · rw [more, accepts.commits]
      intro id other found
      by_cases same : transaction.commit.digest = id
      · rw [same, OrdMap.getElem?_insert_self, Option.some.injEq] at found
        subst found
        exact ⟨transaction.commit, by simp, same⟩
      · rw [OrdMap.getElem?_insert_of_ne same] at found
        obtain ⟨commit, member, named⟩ := sound.outcomes id other found
        exact ⟨commit, by simp [member], named⟩
    · rw [more]
      intro entry member
      rw [commits, callers]
      rcases List.mem_append.mp member with old | new
      · exact sound.called entry old
      · obtain rfl := List.mem_singleton.mp new
        rw [commits, List.mem_map]
        exact ⟨(transaction, .committing), List.mem_of_getElem? called, rfl⟩
    · apply sound.objects.concat
      intro call commit outcome' isAccepted object member
      cases isAccepted
      exact verified object member

theorem Reachable.sound (reachable : world.Reachable) : world.Sound := by
  obtain ⟨files, run⟩ := reachable
  induction run with
  | refl => exact sound_start files
  | tail _ step sound =>
    cases step with
    | call transaction => exact sound.call transaction
    | advance answer called room => exact sound.advance answer called room
    | files files =>
      exact ⟨sound.engine, sound.logged, sound.past, sound.once, sound.outcomes, sound.called,
        sound.objects, sound.calls⟩

/-- A step of a call leaves the engine alone or is the commit of its transaction. -/
theorem Sound.advance_cases (sound : world.Sound) {i : Nat} {transaction : DataTransaction} {pc : DataPc}
    (answer : Except ObjectError Unit) (called : world.calls[i]? = some (transaction, pc))
    (room : pc = .committing → world.engine.Room transaction.commit) :
    (world.advance i answer transaction pc).engine = world.engine ∨
      ∃ outcome, (world.advance i answer transaction pc).history =
        world.history ++ [.accepted i transaction.commit outcome] := by
  obtain ⟨pc', next, events, advances, -, effect⟩ := @advanceData_cases _ _ _ _ i world.files answer
    sound.engine room sound.outcomes (sound.calls i transaction pc called)
  rw [DataWorld.advance, advances]
  rcases effect with ⟨rfl, -⟩ | ⟨outcome, -, -, rfl, -⟩
  · exact .inl rfl
  · exact .inr ⟨outcome, rfl⟩

/-- A call that succeeds returns the outcome of an accepted commit with its digest. -/
theorem Sound.returned (sound : world.Sound) {i : Nat} {transaction : DataTransaction}
    {outcome : RuntimeCommitOutcome} (called : world.calls[i]? = some (transaction, .returned (.ok outcome)))
    (distinct : Set.InjOn RuntimeCommit.digest {commit | commit ∈ world.commits}) :
    (transaction.commit, outcome) ∈ accepted world.history := by
  obtain ⟨commit, member, same⟩ := sound.calls i transaction _ called
  have mine : transaction.commit ∈ world.commits :=
    List.mem_map.mpr ⟨_, List.mem_of_getElem? called, rfl⟩
  rwa [← distinct (sound.called _ member) mine same]

end DataWorld

/-- Of two entries of a list whose first components differ, those with the same first component
are one. -/
theorem snd_eq_of_nodup {α β : Type} {entries : List (α × β)} (distinct : (entries.map Prod.fst).Nodup)
    {a : α} {b c : β} (first : (a, b) ∈ entries) (second : (a, c) ∈ entries) : b = c := by
  have same := List.inj_on_of_nodup_map distinct first second rfl
  exact (Prod.mk.inj same).2

/-- Calls of `commit` side by side, retried at will and abandoned anywhere. The log is what the
accepted commits contribute, each once. A step that is not the commit of its transaction leaves the
engine as it is. Unless two commits have one digest, all calls of a transaction that succeed return
the outcome of its one commit. Every object the log refers to was verified before its commit. -/
theorem data_transactions_once {world : DataWorld} (reachable : world.Reachable) :
    world.engine.runtimeChanges.map content =
      (accepted world.history).flatMap (fun entry => contribution entry.1) ∧
    ((accepted world.history).map Prod.fst).Nodup ∧
    (∀ i transaction pc answer, world.calls[i]? = some (transaction, pc) →
      (pc = .committing → world.engine.Room transaction.commit) →
      (world.advance i answer transaction pc).engine = world.engine ∨
      ∃ outcome, (world.advance i answer transaction pc).history =
        world.history ++ [.accepted i transaction.commit outcome]) ∧
    (Set.InjOn RuntimeCommit.digest {commit | commit ∈ world.commits} →
      ∀ (i j : Nat) (a b : DataTransaction) (outcomeA outcomeB : RuntimeCommitOutcome),
        world.calls[i]? = some (a, .returned (.ok outcomeA)) →
        world.calls[j]? = some (b, .returned (.ok outcomeB)) → a.commit = b.commit →
        (a.commit, outcomeA) ∈ accepted world.history ∧ outcomeA = outcomeB) ∧
    ∀ change ∈ world.engine.runtimeChanges, ∀ object, change.mutation = .object object →
      ∃ before call commit outcome after, world.history = before ++ .accepted call commit outcome :: after ∧
        RuntimeMutation.object object ∈ commit.mutations ∧ VerifiedIn before object := by
  have sound := reachable.sound
  refine ⟨sound.logged, sound.once, ?_, ?_, ?_⟩
  · intro i transaction pc answer called room
    exact sound.advance_cases answer called room
  · intro distinct i j a b outcomeA outcomeB first second same
    have acceptedA := sound.returned first distinct
    have acceptedB := sound.returned second distinct
    rw [← same] at acceptedB
    exact ⟨acceptedA, snd_eq_of_nodup sound.once acceptedA acceptedB⟩
  · intro change member object isObject
    have listed : content change ∈ (accepted world.history).flatMap fun entry => contribution entry.1 := by
      rw [← sound.logged]
      exact List.mem_map_of_mem member
    obtain ⟨⟨commit, outcome⟩, isAccepted, contributed⟩ := List.mem_flatMap.mp listed
    obtain ⟨mutation, made, same⟩ := List.mem_map.mp contributed
    have isObject : mutation = .object object := by
      rw [← isObject]
      exact congrArg (fun content => content.2.2.2) same
    subst isObject
    obtain ⟨event, recorded, isEntry⟩ := List.mem_filterMap.mp isAccepted
    cases event with
    | verified verified bytes => cases isEntry
    | accepted call commit' outcome' =>
      cases isEntry
      obtain ⟨before, after, split⟩ := List.append_of_mem recorded
      exact ⟨before, call, commit, outcome, after, split, made,
        sound.objects before _ after split call commit outcome rfl object made⟩

/-- A transaction that installs a schema and refers to an object of three bytes. -/
def sampleObject : ObjectReference :=
  { reference := ⟨.lit "scan" (Eq.refl true), .lit "7" (Eq.refl true)⟩, subject := none
    sha256 := "ba7816bf8f01cfea414140de5dae2223b00361a396177a9cb410ff61f20015ad", length := 3
    mediaType := "text/plain"
    receipt :=
      { backend := "local"
        key := "objects/sha256/ba/ba7816bf8f01cfea414140de5dae2223b00361a396177a9cb410ff61f20015ad"
        version := none, etag := none }
    properties := [] }

def sampleFiles : Files := fun key =>
  if key = sampleObject.receipt.key then .ok (some [0x61, 0x62, 0x63]) else .ok none

def sampleSchema : RuntimeSchemaRegistry :=
  { revision := 1, migration := "install", records := [], relations := []
    events := [(⟨"scanned", by decide, by decide⟩, ⟨false, [], [], true⟩)] }

def sampleScope : ScopeId := .lit "shop" (Eq.refl true)

def sampleTransaction : DataTransaction :=
  let read : ReadStamp :=
    { contractVersion := 1, scope := sampleScope, schemaRevision := none, catalogRevision := 0,
      commitCursor := 0, headDigest := none, manifestId := "" }
  { contractVersion := 1
    read := { read with manifestId := sha256Hex read.manifestBytes }
    commit :=
      { scope := sampleScope, at_ := 5, actor := "clerk", expectedCursor := 0,
        mutations := [.schema sampleSchema, .object sampleObject] } }

/-- The only call of a run takes a step. -/
theorem DataWorld.Reachable.alone {engine next : MemoryEngine} {files : Files} {transaction : DataTransaction}
    {pc pc' : DataPc} {history events : List DataEvent}
    (reachable : Reachable { engine, files, calls := [(transaction, pc)], history })
    (room : pc = .committing → engine.Room transaction.commit)
    (steps : advanceData 0 engine files (.ok ()) transaction pc = (pc', next, events)) :
    Reachable { engine := next, files, calls := [(transaction, pc')], history := history ++ events } := by
  obtain ⟨initial, run⟩ := reachable
  have step := @Step.advance { engine, files, calls := [(transaction, pc)], history } 0 transaction pc (.ok ())
    rfl room
  rw [DataWorld.advance, steps] at step
  exact ⟨initial, run.tail step⟩

theorem sampleTransaction_checked :
    sampleTransaction.validate = .ok () ∧ MemoryEngine.new.checkCommit sampleTransaction.commit = .ok () := by
  decide +kernel

theorem sampleObject_verified : ∃ verified, verify sampleFiles sampleObject.sha256 = .ok verified ∧
    checkObject sampleObject verified = .ok () := by
  refine ⟨{ sha256 := sampleObject.sha256, length := 3, receipt :=
    { sampleObject.receipt with etag := some sampleObject.sha256 } }, ?_⟩
  decide +kernel

section

variable {engine next : MemoryEngine} {files : Files} {answer : Except ObjectError Unit}
  {transaction : DataTransaction} {outcome : RuntimeCommitOutcome}

theorem advanceData_entered (valid : transaction.validate = .ok ()) :
    advanceData 0 engine files answer transaction .entered = (.beforeObjectVerification, engine, []) := by
  rw [advanceData, valid]

theorem advanceData_verifying {object : ObjectReference} {rest : List RuntimeMutation}
    {verified : VerifiedObject} (found : verify files object.sha256 = .ok verified)
    (agrees : checkObject object verified = .ok ()) :
    advanceData 0 engine files answer transaction (.verifying (.object object :: rest)) =
      (.verifying rest, engine, [.verified verified (files.held verified.receipt.key)]) := by
  rw [advanceData, verifyMutation, found]
  simp only [agrees]

theorem advanceData_lookup (none : engine.runtimeCommits[transaction.commit.digest]? = none) :
    advanceData 0 engine files answer transaction .lookup = (.committing, engine, []) := by
  rw [advanceData, none]

theorem advanceData_committing (valid : transaction.validate = .ok ())
    (committed : engine.commitRuntime transaction.commit = (.ok outcome, next)) :
    advanceData 0 engine files answer transaction .committing =
      (.afterCommit outcome, next, [.accepted 0 transaction.commit outcome]) := by
  rw [advanceData, commitDataTransaction, valid]
  simp only [kernel, committed]

end

theorem data_transactions_once_sample :
    ∃ world : DataWorld, world.Reachable ∧
      (∃ outcome, world.calls[0]? = some (sampleTransaction, .returned (.ok outcome)) ∧
        (sampleTransaction.commit, outcome) ∈ accepted world.history) ∧
      ∃ before, VerifiedIn before sampleObject := by
  obtain ⟨valid, checked⟩ := sampleTransaction_checked
  obtain ⟨verified, found, agrees⟩ := sampleObject_verified
  have called : DataWorld.Reachable
      { engine := MemoryEngine.new
        files := sampleFiles
        calls := [(sampleTransaction, .entered)]
        history := [] } :=
    ⟨sampleFiles, .single (.call sampleTransaction)⟩
  have validated := called.alone (by simp) (advanceData_entered valid)
  have schema := (validated.alone (by simp) rfl).alone (by simp [hooked]) rfl
  have object := schema.alone (by simp) (advanceData_verifying found agrees)
  have ready := ((object.alone (by simp) rfl).alone (by simp) rfl).alone (by simp [hooked]) rfl
  have nothing : ∀ commitId : String, MemoryEngine.new.runtimeCommits[commitId]? = none := by simp [MemoryEngine.new]
  have looked := ready.alone (by simp [hooked]) (advanceData_lookup (nothing _))
  have room : MemoryEngine.new.Room sampleTransaction.commit := by
    show 0 + 2 < 2 ^ 63
    decide
  rcases MemoryEngine.commitRuntime_cases MemoryEngine.sound_new room with
    ⟨e, refused, -⟩ | ⟨outcome, next, committed, -⟩
  · rw [checked] at refused
    cases refused
  have commits := looked.alone (fun _ => room) (advanceData_committing valid committed)
  have returned := commits.alone (by simp) rfl
  obtain ⟨logged, -, -, outcomes, objects⟩ := data_transactions_once returned
  have isAccepted := (outcomes (by simp [DataWorld.commits]) 0 0 sampleTransaction sampleTransaction outcome
    outcome rfl rfl rfl).1
  have listed : (sampleScope, 5, "clerk", RuntimeMutation.object sampleObject) ∈
      next.runtimeChanges.map content := by
    rw [logged]
    exact List.mem_flatMap.mpr ⟨_, isAccepted, by simp [contribution, sampleTransaction]⟩
  obtain ⟨change, member, same⟩ := List.mem_map.mp listed
  obtain ⟨before, -, -, -, -, -, -, verifiedIn⟩ := objects change member sampleObject
    (congrArg (fun content => content.2.2.2) same)
  exact ⟨_, returned, ⟨outcome, rfl, isAccepted⟩, before, verifiedIn⟩

end Vyrm.Store
