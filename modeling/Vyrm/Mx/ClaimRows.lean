import Vyrm.Mx.Budget
import Vyrm.Core.Temporal.Order
import Vyrm.Store.Memory.Assert

/-!
# Claim queries

The rows of a claim query against the temporal kernel: the query resolves the claims of a
subject and predicate in the order they were committed, `as_of` newest first. The rows are those
of `as_of` exactly when the commit order leads the resolver to what is in force.
-/

namespace Vyrm.Mx
open Lib Vyrm.Core Vyrm.Ql

/-! ## The groups of a claim query -/

/-- Whether a row is of the subject and predicate. -/
def QueryRow.isOf (subject : Subject) (predicate : Predicate) (row : QueryRow) : Bool :=
  row.values.lookup "subject" = some (.string subject.asStr) &&
    row.values.lookup "predicate" = some (.string predicate.asStr)

theorem lookup_cons_ite (name key : String) (value : RuntimeValue) (rest : RuntimeProperties) :
    List.lookup name ((key, value) :: rest) = if name = key then some value else rest.lookup name := by
  rw [List.lookup_cons]
  by_cases same : name = key
  · simp [same]
  · simp [same, beq_eq_false_iff_ne.mpr same]

theorem lookup_insertValue (key name : String) (value : RuntimeValue) (properties : RuntimeProperties) :
    (insertValue key value properties).lookup name =
      if name = key then some value else properties.lookup name := by
  induction properties with
  | nil => rw [insertValue, lookup_cons_ite]
  | cons entry rest ih =>
    obtain ⟨other, stored⟩ := entry
    rw [insertValue]
    by_cases replaced : key = other
    · subst replaced
      rw [if_pos rfl, lookup_cons_ite, lookup_cons_ite]
      by_cases same : name = key
      · rw [if_pos same, if_pos same]
      · rw [if_neg same, if_neg same, if_neg same]
    rw [if_neg replaced]
    by_cases before : utf8 key < utf8 other
    · rw [if_pos before, lookup_cons_ite]
    · rw [if_neg before, lookup_cons_ite, lookup_cons_ite, ih]
      by_cases same : name = key
      · rw [if_pos same, if_pos same, if_neg (same ▸ replaced)]
      · rw [if_neg same, if_neg same]

theorem ident_asStr_inj {kind : IdentKind} {a b : Ident kind} : a.asStr = b.asStr ↔ a = b := by
  obtain ⟨a, _, _⟩ := a
  obtain ⟨b, _, _⟩ := b
  simp

theorem claimRow_isOf (subject subject' : Subject) (predicate predicate' : Predicate) (claim : Claim) :
    (claimRow subject' predicate' claim).isOf subject predicate =
      decide ((subject', predicate') = (subject, predicate)) := by
  simp [QueryRow.isOf, claimRow, insertValues, lookup_insertValue, ident_asStr_inj]

/-- The claims of a subject and predicate among changes of the scope, in the order they were committed. -/
def claimsOf (changes : List RuntimeChange) (scope : ScopeId) (subject : Subject) (predicate : Predicate) :
    List Claim :=
  changes.filterMap fun change =>
    match change.mutation with
    | .claim claim =>
      if change.scope = scope ∧ claim.subject = subject ∧ claim.predicate = predicate then some claim else none
    | _ => none

theorem claimGroups_append (claims : List Claim) (claim : Claim) :
    claimGroups (claims ++ [claim]) = (claimGroups claims).insert (claim.subject, claim.predicate)
      ((claimGroups claims)[(claim.subject, claim.predicate)]?.getD [] ++ [claim]) := by
  rw [claimGroups, List.foldl_append]
  rfl

/-- A group has the claims of its key, in order. -/
theorem claimGroups_getElem? (claims : List Claim) (key : Subject × Predicate) :
    (claimGroups claims)[key]?.getD [] = claims.filter fun claim => (claim.subject, claim.predicate) = key := by
  induction claims using List.reverseRecOn with
  | nil => simp [claimGroups]
  | append_singleton claims claim ih =>
    rw [claimGroups_append, List.filter_append]
    by_cases same : (claim.subject, claim.predicate) = key
    · rw [same, OrdMap.getElem?_insert_self, Option.getD_some, ih, List.filter_singleton, decide_eq_true same]
      rfl
    · rw [OrdMap.getElem?_insert_of_ne same, ih, List.filter_singleton, decide_eq_false same]
      exact (List.append_nil _).symm

theorem filter_selectClaim (changes : List RuntimeChange) (scope : ScopeId) {selected : Option Predicate}
    (subject : Subject) {predicate : Predicate} (matching : ∀ expected ∈ selected, predicate = expected) :
    ((changes.filterMap (selectClaim scope selected)).filter
      fun claim => (claim.subject, claim.predicate) = (subject, predicate)) = claimsOf changes scope subject predicate := by
  rw [claimsOf, List.filter_filterMap]
  congr 1
  funext change
  unfold selectClaim
  cases change.mutation with
  | claim claim =>
    by_cases both : claim.subject = subject ∧ claim.predicate = predicate
    · obtain ⟨rfl, rfl⟩ := both
      by_cases inScope : change.scope = scope
      · cases selected with
        | none => simp [inScope]
        | some expected =>
          have := matching expected rfl
          simp [inScope, this]
      · simp [inScope]
    · by_cases inScope : change.scope = scope ∧ selected.all fun expected => claim.predicate = expected
      · simpa [inScope, both] using fun same => not_and.mp both same
      · simp [inScope, both]
  | _ => rfl

theorem filter_toList_key {κ α : Type} [Keyed κ] [DecidableEq κ] (map : OrdMap κ α) (key : κ) :
    (map.toList.filter fun entry => entry.1 = key) = (map[key]?.map fun a => (key, a)).toList := by
  have distinct : map.toList.Pairwise fun a b => a.1 ≠ b.1 := by
    apply (Std.ExtTreeMap.distinct_keys_toList (t := map)).imp
    intro a b different same
    exact different (by rw [same]; exact Std.ReflCmp.compare_self)
  have stored : ∀ a, (key, a) ∈ map.toList ↔ map[key]? = some a :=
    fun a => Std.ExtTreeMap.mem_toList_iff_getElem?_eq_some
  generalize map.toList = entries at distinct stored
  generalize map[key]? = found at stored
  induction entries generalizing found with
  | nil =>
    cases found with
    | none => rfl
    | some a => cases (stored a).mpr rfl
  | cons entry entries ih =>
    obtain ⟨apart, inner⟩ := List.pairwise_cons.mp distinct
    obtain ⟨other, b⟩ := entry
    by_cases same : other = key
    · subst same
      have isFound := (stored b).mp List.mem_cons_self
      have none : ∀ entry ∈ entries, ¬ decide (entry.1 = other) = true :=
        fun entry member same => apart entry member (of_decide_eq_true same).symm
      rw [isFound, List.filter_cons_of_pos (by simp), List.filter_eq_nil_iff.mpr none]
      rfl
    · rw [List.filter_cons_of_neg (by simpa using same)]
      apply ih inner
      intro a
      rw [← stored a, List.mem_cons]
      exact ⟨.inr, fun member => member.resolve_left fun is => same (Prod.mk.inj is).1.symm⟩

/-- The rows of a subject and predicate in a claim query. -/
theorem claimRows_filter (changes : List RuntimeChange) (scope : ScopeId) {selected : Option Predicate}
    (subject : Subject) {predicate : Predicate} (validAt : UInt64)
    (matching : ∀ expected ∈ selected, predicate = expected) :
    (claimRows changes scope selected validAt).filter (·.isOf subject predicate) =
      ((resolveAsOf (claimsOf changes scope subject predicate) validAt).map (claimRow subject predicate)).toList := by
  have each : ∀ entry : (Subject × Predicate) × List Claim,
      (((resolveAsOf entry.2 validAt).map (claimRow entry.1.1 entry.1.2)).filter (·.isOf subject predicate)) =
        if entry.1 = (subject, predicate) then (resolveAsOf entry.2 validAt).map (claimRow subject predicate)
        else none := by
    intro ⟨⟨subject', predicate'⟩, candidates⟩
    cases resolveAsOf candidates validAt with
    | none => simp
    | some claim =>
      rw [Option.map_some, Option.filter_some, claimRow_isOf]
      by_cases same : (subject', predicate') = (subject, predicate)
      · cases same
        simp
      · simp [same]
  have group := claimGroups_getElem? (changes.filterMap (selectClaim scope selected)) (subject, predicate)
  rw [filter_selectClaim changes scope subject matching] at group
  rw [claimRows, List.filter_filterMap]
  calc _ = ((claimGroups (changes.filterMap (selectClaim scope selected))).toList.filter
        fun entry => entry.1 = (subject, predicate)).filterMap fun entry =>
          (resolveAsOf entry.2 validAt).map (claimRow subject predicate) := by
        rw [List.filterMap_filter]
        congr 1
        funext entry
        rw [each entry]
        simp
    _ = _ := by
        rw [filter_toList_key, ← group]
        cases (claimGroups (changes.filterMap (selectClaim scope selected)))[(subject, predicate)]? with
        | none => rfl
        | some candidates =>
          cases resolved : resolveAsOf candidates validAt <;> simp [resolved]

/-! ## A claim query against `as_of` -/

/-- The claims of a scope, subject and predicate that an engine has committed up to a cursor. -/
def knownClaims (engine : Store.MemoryEngine) (scope : ScopeId) (known : UInt64) (subject : Subject)
    (predicate : Predicate) : List Claim :=
  claimsOf (engine.runtimeChanges.take known.toNat) scope subject predicate

theorem claimsOf_filter (changes : List RuntimeChange) (scope : ScopeId) (subject : Subject) (predicate : Predicate) :
    claimsOf (changes.filter fun change => scope = change.scope) scope subject predicate =
      claimsOf changes scope subject predicate := by
  rw [claimsOf, List.filterMap_filter, claimsOf]
  congr 1
  funext change
  by_cases inScope : scope = change.scope
  · simp [inScope]
  · cases change.mutation with
    | claim claim => simp [inScope, Ne.symm inScope]
    | _ => simp [inScope]

/-- What is scanned is the log of the scope up to the known cursor. -/
theorem scanChanges_ok {engine : Store.MemoryEngine} {read : ReadStamp} {known : UInt64} {changes : List RuntimeChange}
    (scanned : scanChanges engine.runtimeReadChanges read known = .ok changes) :
    changes = (engine.runtimeChanges.take known.toNat).filter fun change => read.scope = change.scope := by
  unfold scanChanges at scanned
  by_cases zero : known = 0
  · rw [if_pos zero] at scanned
    cases scanned
    subst zero
    rfl
  rw [if_neg zero] at scanned
  split at scanned
  · cases scanned
  next page isPage =>
  dsimp only at scanned
  split at scanned
  · cases scanned
  next reached =>
  cases scanned
  rw [not_not] at reached
  unfold Store.MemoryEngine.runtimeReadChanges at isPage
  split at isPage
  · cases isPage
  obtain ⟨⟨⟩, -, isPage⟩ := except_bind_ok.mp isPage
  rw [except_pure, Except.ok.injEq] at isPage
  rw [← isPage, Store.MemoryEngine.changePage] at reached ⊢
  split at reached
  · exact absurd reached.symm zero
  next nonempty =>
  rw [if_neg nonempty]
  dsimp only at reached ⊢
  have stop : min (min ((0 : UInt64).toNat + known.toNat) read.commitCursor.toNat) engine.runtimeChanges.length =
      known.toNat := by
    have small := known.toNat_lt
    have same := congrArg UInt64.toNat reached
    rw [UInt64.toNat_ofNat'] at same
    simp only [UInt64.toNat_zero, Nat.zero_add] at same ⊢
    omega
  rw [stop]
  simp

/-- The rows of a plan that scans claims alone. -/
theorem claim_execution_filter {texts : Texts} {engine : Store.MemoryEngine} {plan : PhysicalPlan}
    {budget : ExecutionBudget} {execution : QueryExecution} {selected : Option Predicate} {subject : Subject}
    {predicate : Predicate} (ran : execute texts engine.runtimeReadChanges plan budget = .ok execution)
    (whole : execution.truncated = false)
    (claims : PlanShape.read plan = .ok ⟨.claim selected, [], .all, none⟩)
    (matching : ∀ expected ∈ selected, predicate = expected) :
    execution.rows.filter (·.isOf subject predicate) =
      ((resolveAsOf (knownClaims engine plan.logical.read.scope plan.explanation.contract.knownAtCursor subject
        predicate) plan.explanation.contract.validAt).map (claimRow subject predicate)).toList := by
  obtain ⟨changes, shape, scanned, shaped, rows⟩ := execute_rows ran whole
  rw [claims, Except.ok.injEq] at shaped
  subst shaped
  have sorted : (execution.rows.filter (·.isOf subject predicate)).Perm
      ((claimRows changes plan.logical.read.scope selected plan.explanation.contract.validAt).filter
        (·.isOf subject predicate)) := by
    rw [rows, selectRows]
    apply List.Perm.filter
    show (List.map id _).Perm _
    rw [List.map_id]
    simpa [rowsForSource] using List.mergeSort_perm _ _
  rw [claimRows_filter changes _ subject _ matching, scanChanges_ok scanned, claimsOf_filter] at sorted
  cases resolved : resolveAsOf (knownClaims engine plan.logical.read.scope plan.explanation.contract.knownAtCursor
      subject predicate) plan.explanation.contract.validAt with
  | none =>
    rw [knownClaims] at resolved
    rw [resolved] at sorted
    exact sorted.eq_nil
  | some claim =>
    rw [knownClaims] at resolved
    rw [resolved] at sorted
    exact List.perm_singleton.mp sorted

namespace DoorQuery

open Store MemoryEngine

def house : ScopeId := ⟨"house", by decide, by decide⟩

def registry : RuntimeSchemaRegistry :=
  { revision := 1, migration := "rooms", records := [(⟨"room", by decide, by decide⟩, ⟨[], true, []⟩)],
    relations := [], events := [] }

/-- Two claims about a door, the first open and the second closed, neither of which ends. -/
def commit : RuntimeCommit :=
  { scope := house, at_ := 2, actor := "guard", expectedCursor := 0
    mutations := [.schema registry, .claim openDoor, .claim closedDoor] }

def engine : MemoryEngine := (MemoryEngine.new.commitRuntime commit).2

def texts : Texts := ⟨fun _ _ _ => [], fun row => utf8 row.identity⟩

/-- `FROM claim AT VALID 10 KNOWN HEAD PROJECT *`, bound. -/
def bound (read : ReadStamp) : BoundQuery :=
  { contractVersion := queryContractVersion, read, source := .claim none, validAt := 10, knownAtCursor := 3,
    filters := [], projection := .all, limit := none, explainContract := false, schemaRevision := 1 }

/-- What the query returns. -/
def outcome : Option (ReadStamp × QueryExecution) := do
  let read ← (engine.runtimeReadStamp house).toOption
  let execution ← (execute texts engine.runtimeReadChanges (plan texts.plan (bound read)) .default).toOption
  return (read, execution)

theorem outcome_rows : outcome.map (fun run => (run.1.scope, run.2.truncated, run.2.rows)) =
    some (house, false, [claimRow openDoor.subject openDoor.predicate openDoor]) := by decide +kernel

theorem as_of_door : resolvedAsOf (knownClaims engine house 3 openDoor.subject openDoor.predicate) 10 =
    some closedDoor := by decide +kernel

theorem plan_shape (read : ReadStamp) :
    PlanShape.read (plan texts.plan (bound read)) = .ok ⟨.claim none, [], .all, none⟩ := rfl

/-- The query, run: it returns the row of the first claim. -/
theorem ran : ∃ read execution, read.scope = house ∧
    execute texts engine.runtimeReadChanges (plan texts.plan (bound read)) .default = .ok execution ∧
      execution.truncated = false ∧ execution.rows = [claimRow openDoor.subject openDoor.predicate openDoor] := by
  obtain ⟨⟨read, execution⟩, found, shows⟩ := Option.map_eq_some_iff.mp outcome_rows
  obtain ⟨scope, shows⟩ := Prod.mk.inj shows
  obtain ⟨whole, rows⟩ := Prod.mk.inj shows
  unfold outcome at found
  obtain ⟨_, -, found⟩ := Option.bind_eq_some_iff.mp found
  obtain ⟨_, isRun, found⟩ := Option.bind_eq_some_iff.mp found
  cases found
  exact ⟨read, execution, scope, except_toOption_eq_some.mp isRun, whole, rows⟩

end DoorQuery

end Vyrm.Mx
