import Vyrm.Kv.Database.Run

/-!
# Scripts

A script is a list of operations with the oracles they meet. Playing it on a
concrete platform is a computation, and a script that plays is a run, so a
property of a run can be tried on a run that was evaluated.
-/

namespace Vyrm.Kv
open Lib Lib.FaultFs

variable [Platform]

/-- One step of a script. -/
inductive Step where
  | run (oracle : Oracle Path Directory) (op : Op)
  | reopen

/-- An undisturbed operation. -/
def Step.quiet (op : Op) : Step := .run noFaults op

/-- A test on an operation, to be evaluated when it has returned. -/
abbrev Guard := World Path Directory Process → Database → Op → Except Error Unit → Bool

/-- Plays a script from a state, as long as every operation returns and passes the guard. -/
def play (guard : Guard) : List Step → State → Option (List Event × State)
  | [], state => some ([], state)
  | .run oracle op :: rest, state =>
    let w : World Path Directory Process := ⟨state.files, state.process, oracle, 0⟩
    match op.run state.db w with
    | .ok (result, db) w' =>
      if guard w state.db op result then
        (play guard rest ⟨w'.files, w'.process, db⟩).map fun (events, last) =>
          (.did op result :: events, last)
      else none
    | .error _ _ => none
  | .reopen :: rest, state =>
    match Database.open ⟨state.files, state.process, noFaults, 0⟩ with
    | .ok db w' =>
      (play guard rest ⟨w'.files, w'.process, db⟩).map fun (events, last) =>
        (.reopened :: events, last)
    | .error _ _ => none

/-- Plays a script on a new database in an empty directory. -/
def playNew (guard : Guard) (script : List Step) : Option (List Event × State) :=
  match Database.create ⟨∅, Process.start 7, noFaults, 0⟩ with
  | .ok db w => play guard script ⟨w.files, w.process, db⟩
  | .error _ _ => none

variable {policy : Policy} {guard : Guard}

theorem run_of_play {script : List Step} {trace events : List Event} {state last : State}
    (before : Run policy trace state)
    (allowed : ∀ w db op result, .run w.oracle op ∈ script → guard w db op result = true →
      policy w db op result)
    (played : play guard script state = some (events, last)) :
    Run policy (trace ++ events) last := by
  induction script generalizing trace events state with
  | nil =>
    cases played
    rw [List.append_nil]
    exact before
  | cons step rest ih =>
    have later : ∀ w db op result, .run w.oracle op ∈ rest → guard w db op result = true →
        policy w db op result :=
      fun w db op result member => allowed w db op result (List.mem_cons_of_mem _ member)
    obtain ⟨files, process, db⟩ := state
    cases step with
    | run oracle op =>
      rw [play] at played
      dsimp only at played
      split at played
      · rename_i result db' w' ran
        split at played
        · rename_i passed
          obtain ⟨⟨events', last'⟩, rest_, same⟩ := Option.map_eq_some_iff.mp played
          cases same
          have next := ih (.step before (allowed _ _ _ _ List.mem_cons_self passed) ran) later rest_
          rwa [List.append_assoc] at next
        · cases played
      · cases played
    | reopen =>
      rw [play] at played
      split at played
      · rename_i db' w' opened
        obtain ⟨⟨events', last'⟩, rest_, same⟩ := Option.map_eq_some_iff.mp played
        cases same
        have next := ih (.reopen before opened) later rest_
        rwa [List.append_assoc] at next
      · cases played

/-- A script that was played on a new database, with a test of where it ended. -/
theorem exists_run {script : List Step} (test : List Event → State → Bool)
    (allowed : ∀ w db op result, .run w.oracle op ∈ script → guard w db op result = true →
      policy w db op result)
    (played : ((playNew guard script).any fun (events, last) => test events last) = true) :
    ∃ trace state, Run policy trace state ∧ test trace state = true := by
  unfold playNew at played
  split at played
  · rename_i db w created
    cases ended : play guard script ⟨w.files, w.process, db⟩ with
    | none =>
      rw [ended] at played
      cases played
    | some result =>
      rw [ended] at played
      have run := run_of_play (.create created) allowed ended
      exact ⟨_, _, run, played⟩
  · cases played

/-- A guard that lets successful operations pass. -/
def succeeds : Guard := fun _ _ _ result => result == .ok ()

/-- A script without faults whose operations succeed is calm. -/
theorem calm_of_quiet (ops : List Op) : ∀ w db op result, .run w.oracle op ∈ ops.map Step.quiet →
    succeeds w db op result = true → Calm w db op result := by
  intro w db op result member isOk
  obtain ⟨op', -, same⟩ := List.mem_map.mp member
  have quiet : w.oracle = noFaults := (Step.run.inj same).1.symm
  refine ⟨?_, ?_⟩
  · rw [quiet]
    exact fun faulty => not_hindered_noFaults faulty.hindered
  · intro _ e failed
    have ended : result = .ok () := eq_of_beq isOk
    rw [ended] at failed
    cases failed

end Vyrm.Kv
