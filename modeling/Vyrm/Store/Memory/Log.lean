import Vyrm.Lib.Placed
import Vyrm.Store.Memory

/-!
# The log of the memory engine

A commit that `commit_runtime` (`crates/vyrm-store/src/engine.rs`) refuses leaves the engine as
it was. One that it accepts was made for the head of the log and appends a change for each of
its mutations, so no two accepted commits expect the same cursor.
-/

namespace Vyrm.Store
open Lib Vyrm.Core

/-! ## Schemas of a log -/

/-- The registry a change puts in force. -/
def schemaOf (change : RuntimeChange) : Option RuntimeSchemaRegistry :=
  match change.mutation with
  | .schema registry => some registry
  | _ => none

/-- The registry in force in a scope after some changes. -/
def schemaInForce (scope : ScopeId) (changes : List RuntimeChange) : Option RuntimeSchemaRegistry :=
  ((changes.filter fun change => change.scope = scope).filterMap schemaOf).getLast?

/-- The number of the revision in force; before the first there is none. -/
def revisionInForce (scope : ScopeId) (changes : List RuntimeChange) : Nat :=
  ((schemaInForce scope changes).map (·.revision.toNat)).getD 0

/-- A change that declares a registry declares the revision after the one in force. -/
def NextRevision (before : List RuntimeChange) (change : RuntimeChange) : Prop :=
  ∀ registry, change.mutation = .schema registry →
    registry.revision.toNat = revisionInForce change.scope before + 1

theorem schemaInForce_append (scope : ScopeId) (changes more : List RuntimeChange) :
    schemaInForce scope (changes ++ more) = (schemaInForce scope more).or (schemaInForce scope changes) := by
  simp [schemaInForce, List.getLast?_append]

theorem schemaInForce_concat (scope : ScopeId) (changes : List RuntimeChange) (change : RuntimeChange) :
    schemaInForce scope (changes ++ [change]) =
      (if change.scope = scope then schemaOf change else none).or (schemaInForce scope changes) := by
  rw [schemaInForce_append]
  by_cases same : change.scope = scope
  · cases declared : schemaOf change <;> simp [schemaInForce, same, declared]
  · simp [schemaInForce, same]

/-- There are no more revisions than changes. -/
theorem revisionInForce_le {changes : List RuntimeChange} (revised : Placed NextRevision changes)
    (scope : ScopeId) : revisionInForce scope changes ≤ changes.length := by
  induction changes using List.reverseRecOn with
  | nil => simp [revisionInForce, schemaInForce]
  | append_singleton changes change ih =>
    have before := ih revised.of_append
    rw [List.length_append, List.length_singleton]
    by_cases declares : ∃ registry, change.scope = scope ∧ change.mutation = .schema registry
    · obtain ⟨registry, rfl, declares⟩ := declares
      have number := revised.last registry declares
      have inForce : revisionInForce change.scope (changes ++ [change]) = registry.revision.toNat := by
        simp [revisionInForce, schemaInForce_concat, schemaOf, declares]
      omega
    · have none : (if change.scope = scope then schemaOf change else none) = none := by
        by_cases same : change.scope = scope
        · cases mutation : change.mutation with
          | schema registry => exact absurd ⟨registry, same, mutation⟩ declares
          | _ => simp [schemaOf, mutation]
        · simp [same]
      have same : revisionInForce scope (changes ++ [change]) = revisionInForce scope changes := by
        simp [revisionInForce, schemaInForce_concat, none]
      omega

/-! ## Changes of a commit -/

section
variable {commit : RuntimeCommit} {commitId : String} {start : UInt64} {previousDigest : Option String}

theorem mutation_commitChanges (mutations : List RuntimeMutation) (ordinal : Nat) :
    (commitChanges commit commitId start mutations ordinal previousDigest).map (·.mutation) = mutations := by
  induction mutations generalizing ordinal previousDigest with
  | nil => rfl
  | cons mutation mutations ih => simp [commitChanges, RuntimeChange.committed, ih]

/-- The changes of a commit repeat its header. -/
theorem header_commitChanges (mutations : List RuntimeMutation) (ordinal : Nat) :
    ∀ change ∈ commitChanges commit commitId start mutations ordinal previousDigest,
      change.scope = commit.scope ∧ change.at_ = commit.at_ ∧ change.actor = commit.actor := by
  induction mutations generalizing ordinal previousDigest with
  | nil => simp [commitChanges]
  | cons mutation mutations ih =>
    intro change member
    rw [commitChanges, List.mem_cons] at member
    rcases member with rfl | later
    · exact ⟨rfl, rfl, rfl⟩
    · exact ih _ change later

theorem commitId_commitChanges (mutations : List RuntimeMutation) (ordinal : Nat) :
    ∀ change ∈ commitChanges commit commitId start mutations ordinal previousDigest,
      change.commitId = commitId := by
  induction mutations generalizing ordinal previousDigest with
  | nil => simp [commitChanges]
  | cons mutation mutations ih =>
    intro change member
    rw [commitChanges, List.mem_cons] at member
    rcases member with rfl | later
    · rfl
    · exact ih _ change later

@[simp] theorem map_mutation_changesAfter :
    (commit.changesAfter commitId start previousDigest).map (·.mutation) = commit.mutations :=
  mutation_commitChanges _ _

@[simp] theorem length_changesAfter :
    (commit.changesAfter commitId start previousDigest).length = commit.mutations.length := by
  rw [← List.length_map (·.mutation), map_mutation_changesAfter]

/-- The registries a list of mutations declares. -/
def declared (mutations : List RuntimeMutation) : List RuntimeSchemaRegistry :=
  mutations.filterMap fun
    | .schema registry => some registry
    | _ => none

theorem filterMap_schemaOf_changesAfter :
    (commit.changesAfter commitId start previousDigest).filterMap schemaOf = declared commit.mutations := by
  have mutations : (commit.changesAfter commitId start previousDigest).map (·.mutation) = commit.mutations :=
    map_mutation_changesAfter
  rw [← mutations, declared, List.filterMap_map]
  rfl

/-- A commit that passes its checks declares at most one registry. -/
theorem declared_le_one {mutations : List RuntimeMutation} {identities : List (String × RuntimeRef)}
    {schemaCount : Nat} (valid : RuntimeCommit.validateMutations mutations identities schemaCount = .ok ()) :
    declared mutations = [] ∨ schemaCount = 0 ∧ (declared mutations).length = 1 := by
  induction mutations generalizing identities schemaCount with
  | nil => exact .inl rfl
  | cons mutation mutations ih =>
    cases mutation with
    | schema registry =>
      simp only [RuntimeCommit.validateMutations, invalid, except_error_bind, except_bind_ok] at valid
      obtain ⟨⟨⟩, -, rest⟩ := valid
      rw [except_reject_ok] at rest
      obtain ⟨few, rest⟩ := rest
      rcases ih rest with none | ⟨more, -⟩
      · exact .inr ⟨by omega, by simpa [declared] using none⟩
      · omega
    | claim claim =>
      obtain ⟨⟨⟩, -, rest⟩ := except_bind_ok.mp valid
      exact ih rest
    | event event =>
      obtain ⟨⟨⟩, -, rest⟩ := except_bind_ok.mp valid
      exact ih rest
    | record record =>
      obtain ⟨identities, -, rest⟩ := except_bind_ok.mp valid
      exact ih rest
    | relation relation =>
      obtain ⟨identities, -, rest⟩ := except_bind_ok.mp valid
      exact ih rest
    | vector vector =>
      obtain ⟨identities, -, rest⟩ := except_bind_ok.mp valid
      exact ih rest
    | seriesSample sample =>
      obtain ⟨identities, -, rest⟩ := except_bind_ok.mp valid
      exact ih rest
    | geo geo =>
      obtain ⟨identities, -, rest⟩ := except_bind_ok.mp valid
      exact ih rest
    | object object =>
      obtain ⟨identities, -, rest⟩ := except_bind_ok.mp valid
      exact ih rest

/-- The registry a commit proposes is the first it declares. -/
theorem proposedSchema_eq (commit : RuntimeCommit) : proposedSchema commit = (declared commit.mutations).head? := by
  exact List.head?_filterMap.symm

end

namespace MemoryEngine

variable {engine next : MemoryEngine} {commit : RuntimeCommit} {outcome : RuntimeCommitOutcome}

/-! ## Commits of an engine -/

/-- What all commits preserve. -/
structure Sound (engine : MemoryEngine) : Prop where
  /-- The head of the audit chain passes for a digest. -/
  audited : ∀ digest ∈ engine.runtimeLastAuditDigest, IsDigest digest
  schemas : ∀ scope, engine.runtimeSchemas[scope]? = schemaInForce scope engine.runtimeChanges
  /-- The revisions of every scope are 1, 2, 3 and so on. -/
  revised : Placed NextRevision engine.runtimeChanges
  /-- The cursors of the changes are 1, 2, 3 and so on. -/
  numbered : engine.runtimeChanges.map (·.cursor.toNat) = List.range' 1 engine.runtimeChanges.length
  /-- A vector has at most `isize::MAX` elements. -/
  short : engine.runtimeChanges.length < 2 ^ 63

theorem sound_new : new.Sound where
  audited := by simp [new]
  schemas := by simp [new, schemaInForce]
  revised := Placed.nil
  numbered := rfl
  short := by simp [new]

/-- The changes of a commit fit in the vector of all changes. A push that does not does not return. -/
def Room (engine : MemoryEngine) (commit : RuntimeCommit) : Prop :=
  engine.runtimeChanges.length + commit.mutations.length < 2 ^ 63

/-- The cursor of the last change. -/
def head (engine : MemoryEngine) : UInt64 := UInt64.ofNat engine.runtimeChanges.length

/-- The changes a commit appends. -/
def appended (engine : MemoryEngine) (commit : RuntimeCommit) : List RuntimeChange :=
  commit.changesAfter commit.digest engine.head (engine.runtimeChanges.getLast?.map (·.digest))

theorem toNat_head (short : engine.runtimeChanges.length < 2 ^ 63) :
    engine.head.toNat = engine.runtimeChanges.length := by
  rw [head, UInt64.toNat_ofNat']
  omega

/-- The changes that an engine has and an earlier one had not. -/
def since (engine next : MemoryEngine) : List RuntimeChange :=
  next.runtimeChanges.drop engine.runtimeChanges.length

@[simp] theorem since_self : engine.since engine = [] := by simp [since]

/-- An engine that accepts a commit, and what it becomes. -/
structure Accepts (engine : MemoryEngine) (commit : RuntimeCommit) (outcome : RuntimeCommitOutcome)
    (next : MemoryEngine) : Prop where
  checked : engine.checkCommit commit = .ok ()
  changes : next.runtimeChanges = engine.runtimeChanges ++ engine.appended commit
  schemas : next.runtimeSchemas =
    (declared commit.mutations).foldl (fun schemas registry => schemas.insert commit.scope registry)
      engine.runtimeSchemas
  commits : next.runtimeCommits = engine.runtimeCommits.insert commit.digest outcome
  audited : ∀ digest ∈ next.runtimeLastAuditDigest, IsDigest digest

/-! ### What the checks say -/

theorem checkCommit_ok (checked : engine.checkCommit commit = .ok ()) :
    commit.validate = .ok () ∧ commit.expectedCursor = engine.head ∧
      (∃ registry, effectiveSchema engine.runtimeSchemas[commit.scope]? commit = .ok registry) ∧
      ∀ claim ∈ commitClaims commit, claim.validate = .ok () := by
  simp only [checkCommit, except_bind_ok, except_throw, except_error_bind, except_reject_ok] at checked
  obtain ⟨⟨⟩, valid, expected, registry, effective, ⟨⟩, -, ⟨⟩, -, claims⟩ := checked
  rw [kernel_ok_iff] at valid
  rw [kernel_ok_iff, except_forM_ok] at claims
  exact ⟨valid, (not_not.mp expected).symm, ⟨registry, effective⟩, claims⟩

theorem validate_ok (valid : commit.validate = .ok ()) :
    (commit.actor ≠ "" ∧ sep ∉ utf8 commit.actor) ∧ commit.mutations ≠ [] ∧
      (declared commit.mutations).length ≤ 1 := by
  simp only [RuntimeCommit.validate, invalid, except_bind_ok, except_error_bind, except_reject_ok] at valid
  obtain ⟨⟨⟩, actor, some, mutations⟩ := valid
  refine ⟨validateIdentifier_ok_iff.mp actor, some, ?_⟩
  rcases declared_le_one mutations with none | ⟨-, one⟩
  · simp [none]
  · exact one.le

/-! ### What an accepted commit does -/

theorem commitWork_ok {commitId : String} {start : UInt64} {mutations : List RuntimeMutation} {ordinal : Nat}
    (isDigest : IsDigest commitId) (fits : start.toNat + ordinal + mutations.length < 2 ^ 64) :
    ∃ work, commitWork commit commitId start mutations ordinal = .ok work := by
  induction mutations generalizing ordinal with
  | nil => exact ⟨[], rfl⟩
  | cons mutation mutations ih =>
    rw [List.length_cons] at fits
    obtain ⟨rest, done⟩ := @ih (ordinal + 1) (by omega)
    cases family : projectionFamily mutation with
    | none => exact ⟨rest, by rw [commitWork, family]; exact done⟩
    | some family' =>
      have positive : start + UInt64.ofNat ordinal + 1 ≠ 0 := by
        intro zero
        have zero := congrArg UInt64.toNat zero
        rw [UInt64.toNat_add, UInt64.toNat_add, UInt64.toNat_ofNat'] at zero
        have one : (1 : UInt64).toNat = 1 := rfl
        have none : (0 : UInt64).toNat = 0 := rfl
        omega
      obtain ⟨work, made, -⟩ := @ProjectionWork.forChange_ok commit.scope _ (UInt64.ofNat ordinal) _ family'
        isDigest positive
      refine ⟨work :: rest, ?_⟩
      rw [commitWork, family]
      simp [made, done]

/-- Storing mutations inserts the registries they declare and leaves the log alone. -/
theorem foldl_store (scope : ScopeId) (mutations : List RuntimeMutation) (engine : MemoryEngine) :
    (mutations.foldl (store scope) engine).runtimeSchemas =
      (declared mutations).foldl (fun schemas registry => schemas.insert scope registry)
        engine.runtimeSchemas ∧
    (mutations.foldl (store scope) engine).runtimeChanges = engine.runtimeChanges ∧
    (mutations.foldl (store scope) engine).runtimeCommits = engine.runtimeCommits := by
  induction mutations generalizing engine with
  | nil => exact ⟨rfl, rfl, rfl⟩
  | cons mutation mutations ih =>
    obtain ⟨schemas, changes, commits⟩ := ih (store scope engine mutation)
    rw [List.foldl_cons, schemas, changes, commits]
    cases mutation <;> exact ⟨rfl, rfl, rfl⟩

/-- A commit is refused and nothing happens, or it is accepted. -/
theorem commitRuntime_cases (sound : engine.Sound) (room : engine.Room commit) :
    (∃ e, engine.checkCommit commit = .error e ∧ engine.commitRuntime commit = (.error e, engine)) ∨
    ∃ outcome next, engine.commitRuntime commit = (.ok outcome, next) ∧ engine.Accepts commit outcome next := by
  cases checked : engine.checkCommit commit with
  | error e => exact .inl ⟨e, rfl, by rw [commitRuntime, checked]⟩
  | ok =>
    obtain ⟨valid, -, -, claims⟩ := checkCommit_ok checked
    obtain ⟨actor, -, -⟩ := validate_ok valid
    obtain ⟨stored, inserted, -⟩ := engine.insertEach_valid claims
    have start := toNat_head sound.short
    obtain ⟨work, queued⟩ := @commitWork_ok commit commit.digest engine.head commit.mutations 0
      commit.isDigest_digest (by unfold Room at room; omega)
    obtain ⟨audit, sealed, -, -, audited, -⟩ := @AuditEnvelope.acceptedCommit_ok commit commit.digest
      (engine.head + UInt64.ofNat commit.mutations.length) engine.runtimeLastAuditDigest actor
      commit.isDigest_digest sound.audited
    have done : engine.commitRuntime commit =
        (.ok (MemoryEngine.outcome commit engine.head (UInt64.ofNat engine.order.length) work),
          publish { engine with claims := stored, order := engine.order ++ commitClaims commit } commit
            (engine.appended commit) work audit
            (MemoryEngine.outcome commit engine.head (UInt64.ofNat engine.order.length) work)) := by
      rw [commitRuntime, checked]
      simp only [applyCommit, inserted]
      rw [head] at queued sealed
      rw [queued]
      simp only [sealed]
      rfl
    obtain ⟨schemas, changes, commits⟩ := foldl_store commit.scope commit.mutations
      { engine with claims := stored, order := engine.order ++ commitClaims commit }
    refine .inr ⟨_, _, done, checked, ?_, ?_, ?_, ?_⟩
    · simp only [publish, changes]
    · simp only [publish, schemas]
    · simp only [publish, commits]
      rfl
    · simpa [publish] using audited

/-! ### Soundness -/

namespace Accepts

variable (accepts : engine.Accepts commit outcome next)
include accepts

theorem expected : commit.expectedCursor = engine.head := (checkCommit_ok accepts.checked).2.1

theorem valid : commit.validate = .ok () := (checkCommit_ok accepts.checked).1

theorem nonempty : 0 < commit.mutations.length :=
  List.length_pos_iff.mpr (validate_ok accepts.valid).2.1

theorem since : engine.since next = engine.appended commit := by
  simp [MemoryEngine.since, accepts.changes]

theorem length : next.runtimeChanges.length = engine.runtimeChanges.length + commit.mutations.length := by
  rw [accepts.changes, List.length_append, appended, length_changesAfter]

/-- A declared registry has the revision after the one in force. -/
theorem revision (sound : engine.Sound) {registry : RuntimeSchemaRegistry}
    (declares : declared commit.mutations = [registry]) :
    registry.revision.toNat = revisionInForce commit.scope engine.runtimeChanges + 1 := by
  obtain ⟨-, -, ⟨effective, made⟩, -⟩ := checkCommit_ok accepts.checked
  have proposed : proposedSchema commit = some registry := by rw [proposedSchema_eq, declares]; rfl
  have bound := revisionInForce_le sound.revised commit.scope
  have short := sound.short
  rw [revisionInForce] at bound ⊢
  cases inForce : schemaInForce commit.scope engine.runtimeChanges with
  | none =>
    simp only [effectiveSchema, sound.schemas, inForce, proposed] at made
    split at made
    · rename_i first
      simp [first]
    · cases made
  | some previous =>
    simp only [effectiveSchema, sound.schemas, inForce, proposed] at made
    split at made
    · rename_i following
      simp only [inForce, Option.map_some, Option.getD_some] at bound ⊢
      have notLast : previous.revision ≠ u64Max := by
        intro last
        have size : u64Max.toNat = 2 ^ 64 - 1 := by decide
        rw [last, size] at bound
        omega
      rw [following, saturatingSucc, if_neg notLast, UInt64.toNat_add]
      have one : (1 : UInt64).toNat = 1 := rfl
      omega
    · cases made

omit accepts in
theorem scope_appended (engine : MemoryEngine) (commit : RuntimeCommit) :
    ∀ change ∈ engine.appended commit, change.scope = commit.scope := scope_commitChanges

/-- A change of a commit that declares a registry is the only one of the commit that does. -/
theorem only_schema {earlier later : List RuntimeChange} {change : RuntimeChange}
    {registry : RuntimeSchemaRegistry} (split : engine.appended commit = earlier ++ change :: later)
    (declares : change.mutation = .schema registry) :
    declared commit.mutations = [registry] ∧ schemaInForce change.scope earlier = none := by
  have few := (validate_ok accepts.valid).2.2
  have parts : declared commit.mutations =
      earlier.filterMap schemaOf ++ registry :: later.filterMap schemaOf := by
    have all : (engine.appended commit).filterMap schemaOf = declared commit.mutations :=
      filterMap_schemaOf_changesAfter
    rw [← all, split]
    simp [schemaOf, declares]
  obtain ⟨first, last⟩ : earlier.filterMap schemaOf = [] ∧ later.filterMap schemaOf = [] := by
    rw [parts] at few
    simp only [List.length_append, List.length_cons] at few
    constructor
    · exact List.eq_nil_of_length_eq_zero (by omega)
    · exact List.eq_nil_of_length_eq_zero (by omega)
  constructor
  · rw [parts, first, last]
    rfl
  · have sublist : ((earlier.filter fun other => other.scope = change.scope).filterMap schemaOf).Sublist [] := by
      rw [← first]
      exact List.filter_sublist.filterMap _
    rw [schemaInForce, List.sublist_nil.mp sublist]
    rfl

theorem sound (before : engine.Sound) (room : engine.Room commit) : next.Sound := by
  have few := (validate_ok accepts.valid).2.2
  have declares : (engine.appended commit).filterMap schemaOf = declared commit.mutations :=
    filterMap_schemaOf_changesAfter
  refine ⟨accepts.audited, ?_, ?_, ?_, ?_⟩
  · intro scope
    rw [accepts.schemas, accepts.changes, schemaInForce_append]
    by_cases same : commit.scope = scope
    · have all : (engine.appended commit).filter (fun change => change.scope = scope) = engine.appended commit := by
        rw [List.filter_eq_self]
        intro change member
        simp [scope_appended engine commit change member, same]
      rw [schemaInForce, all, declares, ← before.schemas]
      match declared commit.mutations, few with
      | [], _ => simp
      | [registry], _ => simp [same]
    · have none : (engine.appended commit).filter (fun change => change.scope = scope) = [] := by
        rw [List.filter_eq_nil_iff]
        intro change member
        simp [scope_appended engine commit change member, same]
      rw [schemaInForce, none, ← before.schemas]
      match declared commit.mutations, few with
      | [], _ => simp
      | [registry], _ => simp [OrdMap.getElem?_insert_of_ne same]
  · rw [accepts.changes]
    apply before.revised.append
    intro earlier change later split registry isSchema
    obtain ⟨alone, nothing⟩ := accepts.only_schema split isSchema
    have here : change.scope = commit.scope := scope_appended engine commit change (by rw [split]; simp)
    rw [revisionInForce, schemaInForce_append, nothing, Option.none_or, here]
    exact accepts.revision before alone
  · have fits : engine.head.toNat + 0 + commit.mutations.length < 2 ^ 64 := by
      have bound : engine.runtimeChanges.length + commit.mutations.length < 2 ^ 63 := room
      rw [toNat_head before.short]
      omega
    have cursors : (engine.appended commit).map (·.cursor.toNat) =
        List.range' (engine.head.toNat + 0 + 1) commit.mutations.length := cursor_commitChanges fits
    rw [accepts.length, accepts.changes, List.map_append, before.numbered, cursors, toNat_head before.short,
      Nat.add_zero, Nat.add_comm _ 1, List.range'_append_1]
  · rw [accepts.length]
    exact room

end Accepts

end MemoryEngine

end Vyrm.Store
