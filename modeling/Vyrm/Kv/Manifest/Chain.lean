import Vyrm.Lib.HashChain
import Vyrm.Kv.Manifest.Spec
import Vyrm.Kv.Reference

/-!
# Publications in a row

Any holders of manifests, stale or not, call `publish` one after another, over any
leftovers of earlier attempts, with I/O errors and crashes wherever they strike. The
publications that moved `CURRENT` form one chain, and `CURRENT` names its last manifest.
-/

namespace Vyrm.Kv
open Lib Lib.FaultFs

variable [Platform]

/-- One call of `publish`: what its caller holds, and the environment and the process it runs in
(after a crash, another one). -/
structure Attempt where
  manifest : Manifest
  expected : Option Bytes
  oracle : Oracle Path Directory
  process : Process
  tick : Nat

namespace Attempt

def run (attempt : Attempt) (files : Files Path) :=
  ManifestStore.publish attempt.manifest attempt.expected
    ⟨files, attempt.process, attempt.oracle, attempt.tick⟩

/-- The files after the attempt, however it ended. -/
def after (attempt : Attempt) (files : Files Path) : Files Path :=
  match attempt.run files with
  | .ok _ w => w.files
  | .error _ w => w.files

/-- `publish` returned `Ok`. -/
def succeeds (attempt : Attempt) (files : Files Path) : Bool :=
  match attempt.run files with
  | .ok _ _ => true
  | .error _ _ => false

/-- `CURRENT` is not what it was. -/
def moves (attempt : Attempt) (files : Files Path) : Bool :=
  (attempt.after files).lookup .current != files.lookup .current

end Attempt

/-- The files after a sequence of attempts. -/
def afterAll (files : Files Path) (attempts : List Attempt) : Files Path :=
  attempts.foldl (fun files attempt => attempt.after files) files

/-- The manifests to which `CURRENT` moved, in order. -/
def publications : Files Path → List Attempt → List Manifest
  | _, [] => []
  | files, attempt :: rest =>
    (if attempt.moves files then [attempt.manifest] else []) ++
      publications (attempt.after files) rest

/-- The manifests whose `publish` returned `Ok`, in order. -/
def successes : Files Path → List Attempt → List Manifest
  | _, [] => []
  | files, attempt :: rest =>
    (if attempt.succeeds files then [attempt.manifest] else []) ++
      successes (attempt.after files) rest

/-- What `CURRENT` names: nothing, or a manifest whose file is there. -/
def Names (files : Files Path) : Option Manifest → Prop
  | none => files.lookup .current = none
  | some manifest => Published files manifest

/-- A chain of manifests, all of them on disk, the last one named by `CURRENT`. -/
structure Chained (files : Files Path) (chain : List Manifest) : Prop where
  linked : Linked (·.parent) (·.digest) none chain
  generations : chain.map (·.generation) = List.range' 1 chain.length
  stored : ∀ manifest ∈ chain,
    files.lookup (.manifest manifest.digest) = some (Platform.manifestJson.toVec manifest)
  names : Names files chain.getLast?

/-- `next` may follow `head`, and its holder knows `head`. -/
structure Follows (head : Option Manifest) (expected : Option Bytes) (next : Manifest) : Prop where
  valid : next.Valid
  expected : expected = head.map (·.digest)
  parent : next.parent = head.map (·.digest)
  generation : next.generation = (head.map (·.generation)).getD 0 + 1

section Publish

variable {oracle : Oracle Path Directory} {files files' : Files Path} {process : Process}
  {head : Option Manifest}

/-- `current` returns what `CURRENT` names. -/
theorem current_of_names (names : Names files head) :
    wp oracle ManifestStore.current (fun r f p => f = files ∧ p = process ∧
      ∀ current, r = .ok current →
        current = head.map fun manifest => (CurrentPointer.new manifest, manifest))
      files process := by
  cases head with
  | some manifest =>
    apply (current_wp names).mono
    rintro (stop | current) f p ⟨rfl, rfl, outcome⟩
    · exact ⟨rfl, rfl, fun current ended => by cases ended⟩
    · refine ⟨rfl, rfl, ?_⟩
      intro found same
      rw [← Except.ok.inj same]
      exact outcome
  | none =>
    unfold ManifestStore.current ManifestStore.readCurrent
    apply wp_bind
    apply wp_bind
    apply wp_attempt
    apply wp_readFile
    · intro bytes found
      rw [show files.lookup .current = none from names] at found
      cases found
    · intro _
      apply wp_pure
      apply wp_pure
      refine ⟨rfl, rfl, ?_⟩
      intro current ended
      exact (Except.ok.inj ended).symm
    · rintro stop (rfl | rfl) _
      · exact ⟨rfl, rfl, fun current ended => by cases ended⟩
      · exact wp_throw ⟨rfl, rfl, fun current ended => by cases ended⟩

theorem follows_of_admission {next : Manifest} {expected : Option Bytes} (valid : next.Valid)
    (admitted : ManifestStore.admission next expected
      (head.map fun manifest => (CurrentPointer.new manifest, manifest)) = .ok ()) :
    Follows head expected next := by
  unfold ManifestStore.admission at admitted
  simp only [except_bind_ok, rejectIf_ok, exists_const] at admitted
  obtain ⟨knows, extends_⟩ := admitted
  cases head with
  | none =>
    obtain ⟨generation, parent⟩ := not_not.mp (rejectIf_ok.mp extends_)
    exact ⟨valid, (not_not.mp knows).symm, parent, generation⟩
  | some manifest =>
    obtain ⟨generation, parent⟩ := not_not.mp (rejectIf_ok.mp extends_)
    exact ⟨valid, (not_not.mp knows).symm, parent, generation⟩

/-- Every way in which a publication of any manifest ends, over any `CURRENT`. -/
theorem publish_any_wp {next : Manifest} {expected : Option Bytes} (names : Names files head) :
    wp oracle (ManifestStore.publish next expected) (fun r f _ =>
      match r with
      | .ok _ => Follows head expected next ∧ Switched files f next
      | .error _ => Unmoved files f ∨ Faulty oracle (.syncDirectory .root) ∧
        Follows head expected next ∧ Switched files f next)
      files process := by
  unfold ManifestStore.publish
  apply wp_lift
  rotate_left
  · exact fun e _ => .inl (Unmoved.refl _)
  rintro ⟨⟩ validates
  have valid := Manifest.valid_of_validate validates
  apply wp_bind_of (current_of_names names)
  rotate_left
  · rintro stop f p ⟨rfl, -, -⟩
    exact .inl (Unmoved.refl _)
  rintro current f p ⟨rfl, rfl, found⟩
  cases found current rfl
  apply wp_lift
  rotate_left
  · exact fun e _ => .inl (Unmoved.refl _)
  rintro ⟨⟩ admitted
  have follows := follows_of_admission valid admitted
  apply (switch_wp valid).mono
  rintro (stop | pointer) f p outcome
  · rcases outcome.2 with unmoved | ⟨faulty, switched⟩
    · exact .inl unmoved
    · exact .inr ⟨faulty, follows, switched⟩
  · exact ⟨follows, outcome.2.2.2⟩

end Publish

/-! ## One attempt -/

variable {files files' : Files Path} {head : Option Manifest} {chain : List Manifest}

/-- What one attempt can do: nothing that `CURRENT` shows, or a publication that follows the
manifest `CURRENT` named. -/
theorem Attempt.cases_ (attempt : Attempt) (names : Names files head) :
    (attempt.succeeds files = false ∧ Unmoved files (attempt.after files)) ∨
    ((attempt.succeeds files = true ∨ Faulty attempt.oracle (.syncDirectory .root)) ∧
      Follows head attempt.expected attempt.manifest ∧
      Switched files (attempt.after files) attempt.manifest) := by
  have outcome : wp attempt.oracle (ManifestStore.publish attempt.manifest attempt.expected) _
      files attempt.process := publish_any_wp names
  have outcome := outcome attempt.tick
  unfold Attempt.succeeds Attempt.after Attempt.run
  split at outcome
  · rename_i pointer w ran
    rw [ran]
    exact .inr ⟨.inl rfl, outcome.2⟩
  · rename_i stop w ran
    rw [ran]
    rcases outcome.2 with unmoved | ⟨faulty, moved⟩
    · exact .inl ⟨rfl, unmoved⟩
    · exact .inr ⟨.inr faulty, moved⟩

/-- A pointer to a manifest that follows another is not the pointer to that one. -/
theorem Switched.current_ne {expected : Option Bytes} {next : Manifest}
    (names : Names files head) (follows : Follows head expected next)
    (switched : Switched files files' next) :
    files'.lookup .current ≠ files.lookup .current := by
  rw [switched.published.current]
  cases head with
  | none =>
    rw [show files.lookup .current = none from names]
    simp
  | some manifest =>
    intro same
    rw [Published.current names, Option.some.injEq] at same
    have pointers : CurrentPointer.new next = CurrentPointer.new manifest := by
      have parsed := congrArg Platform.pointerJson.fromSlice same
      rw [Platform.pointerJson.fromSlice_toVec, Platform.pointerJson.fromSlice_toVec] at parsed
      exact Except.ok.inj parsed
    have generations : next.generation = manifest.generation :=
      congrArg CurrentPointer.generation pointers
    have later := follows.generation
    simp only [Option.map_some, Option.getD_some] at later
    omega

theorem Chained.unmoved (chained : Chained files chain) (unmoved : Unmoved files files') :
    Chained files' chain := by
  have grows := unmoved.extends_.grows
  refine ⟨chained.linked, chained.generations, ?_, ?_⟩
  · exact fun manifest member => grows _ _ (chained.stored manifest member)
  · have names := chained.names
    cases last : chain.getLast? with
    | none =>
      rw [last] at names
      exact unmoved.current.trans names
    | some manifest =>
      rw [last] at names
      exact Published.grows names grows

/-- The generation of the last manifest of a chain is its length. -/
theorem Chained.generation_last (chained : Chained files chain) :
    (chain.getLast?.map (·.generation)).getD 0 = chain.length := by
  have generations := congrArg List.getLast? chained.generations
  rw [List.getLast?_map, List.getLast?_range'] at generations
  rw [generations]
  by_cases empty : chain.length = 0
  · simp [empty]
  · simp only [if_neg empty, Option.getD_some]
    omega

theorem Chained.switched {expected : Option Bytes} {next : Manifest}
    (chained : Chained files chain) (follows : Follows chain.getLast? expected next)
    (switched : Switched files files' next) : Chained files' (chain ++ [next]) := by
  refine ⟨?_, ?_, ?_, ?_⟩
  · rw [linked_append]
    refine ⟨chained.linked, ?_⟩
    rw [linked_singleton, tip, Option.or_none]
    exact follows.parent
  · have generation := follows.generation
    rw [chained.generation_last] at generation
    rw [List.map_append, List.map_singleton, List.length_append, List.length_singleton,
      List.range'_concat, chained.generations, generation]
    simp [Nat.add_comm]
  · intro manifest member
    rcases List.mem_append.mp member with old | new
    · exact switched.grows.lookup_erase (by simp) (chained.stored manifest old)
    · rw [List.mem_singleton.mp new]
      exact switched.published.stored
  · rw [List.getLast?_concat]
    exact switched.published

/-- One attempt extends the chain by what it published. -/
theorem Chained.attempt (chained : Chained files chain) (attempt : Attempt) :
    Chained (attempt.after files)
      (chain ++ if attempt.moves files then [attempt.manifest] else []) := by
  rcases attempt.cases_ chained.names with ⟨-, unmoved⟩ | ⟨-, follows, switched⟩
  · have still : attempt.moves files = false := by simp [Attempt.moves, unmoved.current]
    rw [still, if_neg Bool.false_ne_true, List.append_nil]
    exact chained.unmoved unmoved
  · have moved : attempt.moves files = true :=
      bne_iff_ne.mpr (Switched.current_ne chained.names follows switched)
    rw [moved, if_pos rfl]
    exact chained.switched follows switched

/-- A `publish` that returns `Ok` has moved `CURRENT`, and one that does not has moved it only
when the sync of the root directory failed. -/
theorem Attempt.moves_of_succeeds (attempt : Attempt) (names : Names files head)
    (succeeds : attempt.succeeds files = true) : attempt.moves files = true := by
  rcases attempt.cases_ names with ⟨fails, -⟩ | ⟨-, follows, switched⟩
  · rw [succeeds] at fails
    cases fails
  · exact bne_iff_ne.mpr (Switched.current_ne names follows switched)

theorem Attempt.succeeds_of_moves (attempt : Attempt) (names : Names files head)
    (synced : ¬ Faulty attempt.oracle (.syncDirectory .root))
    (moves : attempt.moves files = true) : attempt.succeeds files = true := by
  rcases attempt.cases_ names with ⟨-, unmoved⟩ | ⟨cause, -⟩
  · exact absurd unmoved.current (bne_iff_ne.mp moves)
  · exact cause.resolve_right synced

/-! ## Any number of attempts -/

theorem Chained.run (chained : Chained files chain) (attempts : List Attempt) :
    Chained (afterAll files attempts) (chain ++ publications files attempts) := by
  induction attempts generalizing files chain with
  | nil => rwa [publications, List.append_nil]
  | cons attempt rest ih =>
    have next := ih (chained.attempt attempt)
    rwa [List.append_assoc] at next

theorem successes_sublist (chained : Chained files chain) (attempts : List Attempt) :
    (successes files attempts).Sublist (publications files attempts) := by
  induction attempts generalizing files chain with
  | nil => exact List.Sublist.refl _
  | cons attempt rest ih =>
    refine List.Sublist.append ?_ (ih (chained.attempt attempt))
    by_cases succeeds : attempt.succeeds files = true
    · rw [if_pos succeeds, if_pos (attempt.moves_of_succeeds chained.names succeeds)]
    · rw [if_neg succeeds]
      exact List.nil_sublist _

theorem successes_eq (chained : Chained files chain) {attempts : List Attempt}
    (synced : ∀ attempt ∈ attempts, ¬ Faulty attempt.oracle (.syncDirectory .root)) :
    successes files attempts = publications files attempts := by
  induction attempts generalizing files chain with
  | nil => rfl
  | cons attempt rest ih =>
    have later := ih (chained.attempt attempt)
      fun other member => synced other (List.mem_cons_of_mem _ member)
    have same : attempt.succeeds files = attempt.moves files := by
      rw [Bool.eq_iff_iff]
      exact ⟨attempt.moves_of_succeeds chained.names,
        attempt.succeeds_of_moves chained.names (synced attempt List.mem_cons_self)⟩
    rw [successes, publications, later, same]

/-- A stale holder publishes nothing. -/
theorem Attempt.stale (attempt : Attempt) (names : Names files head)
    (stale : attempt.expected ≠ head.map (·.digest)) :
    attempt.succeeds files = false ∧ Unmoved files (attempt.after files) := by
  rcases attempt.cases_ names with unmoved | ⟨-, follows, -⟩
  · exact unmoved
  · exact absurd follows.expected stale

/-- Publication is a linear chain. From a directory without `CURRENT`, and whatever else it
holds, the manifests to which any sequence of attempts moves `CURRENT` are linked by parent and
digest, have generations 1, 2, 3, …, are all on disk, and the last one is what `CURRENT` names.
Every attempt that returned `Ok` is among them, and they are all of them unless a sync of the
root directory failed after the switch. A holder of another parent fails and moves nothing. -/
theorem publish_linear_chain (absent : files.lookup .current = none) (attempts : List Attempt) :
    Chained (afterAll files attempts) (publications files attempts) ∧
    (successes files attempts).Sublist (publications files attempts) ∧
    ((∀ attempt ∈ attempts, ¬ Faulty attempt.oracle (.syncDirectory .root)) →
      successes files attempts = publications files attempts) ∧
    ∀ late : Attempt,
      late.expected ≠ (publications files attempts).getLast?.map (·.digest) →
      late.succeeds (afterAll files attempts) = false ∧
      (late.after (afterAll files attempts)).lookup .current =
        (afterAll files attempts).lookup .current := by
  have start : Chained files [] := ⟨trivial, rfl, by simp, absent⟩
  have chained := start.run attempts
  rw [List.nil_append] at chained
  refine ⟨chained, successes_sublist start attempts, successes_eq start, ?_⟩
  intro late stale
  obtain ⟨fails, unmoved⟩ := late.stale chained.names stale
  exact ⟨fails, unmoved.current⟩

end Vyrm.Kv

namespace Vyrm.Kv
open Lib Lib.FaultFs

/-- An undisturbed attempt by a holder of `manifest`. -/
def Attempt.quiet [Platform] (manifest : Manifest) (expected : Option Bytes) : Attempt :=
  ⟨manifest, expected, noFaults, Process.start 7, 0⟩

/-- Two holders of the empty store publish a first manifest, and the one that came first goes on. -/
def twoHolders [Platform] : Except Error (List Attempt) := do
  let first ← Manifest.new 1 none 10 0 1 []
  let other ← Manifest.new 1 none 11 0 1 []
  let second ← Manifest.new 2 (some first.digest) 12 0 1 []
  return [.quiet first none, .quiet other none, .quiet second (some first.digest)]

set_option maxRecDepth 100000 in
theorem publish_linear_chain_twoHolders : ∃ attempts : List Attempt,
    (publications ∅ attempts).map (·.createdAt) = [10, 12] ∧
    Chained (afterAll ∅ attempts) (publications ∅ attempts) ∧
    successes ∅ attempts = publications ∅ attempts := by
  have ran : (match twoHolders with
      | .ok attempts => (publications ∅ attempts).map (·.createdAt) == [10, 12] &&
          (successes ∅ attempts == publications ∅ attempts)
      | .error _ => false) = true := by decide +kernel
  split at ran
  · rename_i attempts _
    obtain ⟨published, same⟩ := Bool.and_eq_true_iff.mp ran
    exact ⟨attempts, eq_of_beq published, (publish_linear_chain rfl attempts).1, eq_of_beq same⟩
  · cases ran

end Vyrm.Kv
