import Vyrm.Mx.ClaimRows
import Vyrm.Store.Stamped

/-!
# Budgets and repetition

What a bound query returns under a budget, and that it returns it again. The rows are the longest
prefix of the rows that the query asks for within the row and the byte budget, whatever the size
of a batch; and since a read at a stamp is repeatable, so is the query.
-/

namespace Vyrm.Mx
open Lib Vyrm.Core Vyrm.Ql

/-! ## What a bound query asks for -/

/-- The rows of the source that pass the filters. -/
def BoundQuery.matching (bound : BoundQuery) (changes : List RuntimeChange) : List QueryRow :=
  (rowsForSource changes bound.read.scope bound.source bound.validAt bound.knownAtCursor).filter fun row =>
    bound.filters.all fun filter => row.values.lookup filter.field = some filter.value

/-- The cut of `LIMIT`. -/
def BoundQuery.cut (bound : BoundQuery) (rows : List QueryRow) : List QueryRow :=
  match bound.limit with
  | some limit => rows.take limit.toNat
  | none => rows

/-- The rows the query itself asks for: those that match, by identity, up to its limit. -/
def BoundQuery.asked (bound : BoundQuery) (changes : List RuntimeChange) : List QueryRow :=
  bound.cut ((bound.matching changes).mergeSort QueryRow.identityLe)

theorem QueryRow.pairwise_mergeSort (rows : List QueryRow) :
    (rows.mergeSort QueryRow.identityLe).Pairwise fun a b => utf8 a.identity ≤ utf8 b.identity := by
  have trans : ∀ a b c : QueryRow, a.identityLe b → b.identityLe c → a.identityLe c := by
    simp only [identityLe, decide_eq_true_eq]
    exact fun a b c => le_trans
  have total : ∀ a b : QueryRow, (a.identityLe b || b.identityLe a) = true := by
    simp only [identityLe, Bool.or_eq_true, decide_eq_true_eq]
    exact fun a b => le_total _ _
  simpa [identityLe] using List.pairwise_mergeSort trans total rows

/-- The shape of the plan of a bound query. -/
theorem plan_shape (json : PlanText) (bound : BoundQuery) :
    PlanShape.read (plan json bound) = .ok ⟨bound.source, bound.filters, bound.projection, bound.limit⟩ := by
  have collected : PlanShape.collect (plan json bound).logical.operators (none, [], none, none) =
      (some bound.source, bound.filters, some bound.projection, bound.limit) := by
    by_cases empty : bound.filters = []
    · cases limit : bound.limit <;> simp [plan, BoundQuery.operators, PlanShape.collect, empty, limit]
    · cases limit : bound.limit <;> simp [plan, BoundQuery.operators, PlanShape.collect, empty, limit]
  rw [PlanShape.read, collected]

theorem selectRows_plan (bound : BoundQuery) (changes : List RuntimeChange) :
    selectRows ⟨bound.source, bound.filters, bound.projection, bound.limit⟩
      (rowsForSource changes bound.read.scope bound.source bound.validAt bound.knownAtCursor) =
        bound.asked changes := by
  unfold selectRows BoundQuery.asked BoundQuery.matching BoundQuery.cut matchesFilter
  cases bound.limit <;> rfl

/-! ## Within the budget -/

/-- An execution that returns exactly what its budget allows of the rows that the query asks for. -/
structure BudgetExact (texts : Texts) (bound : BoundQuery) (budget : ExecutionBudget) (changes : List RuntimeChange)
    (execution : QueryExecution) : Prop where
  sorted : ∃ sorted, sorted.Perm (bound.matching changes) ∧
    (sorted.Pairwise fun a b => utf8 a.identity ≤ utf8 b.identity) ∧ bound.asked changes = bound.cut sorted
  rows : IsLongestPrefix
    (fun rows => rows.length ≤ budget.maxRows ∧ outputBytes texts.row rows ≤ budget.maxOutputBytes)
    ((bound.asked changes).map (applyProjection bound.projection)) execution.rows
  truncated : execution.truncated ↔ execution.rows.length < (bound.asked changes).length
  batches : Batched budget.maxBatchRows execution.batches
  returnedRows : execution.returnedRows = execution.rows.length
  outputBytes : execution.outputBytes = outputBytes texts.row execution.rows

section

variable {texts : Texts} {engine : ReadChanges} {bound : BoundQuery} {budget : ExecutionBudget}
  {execution : QueryExecution} {shape : PlanShape} {changes : List RuntimeChange}

theorem Runs.shape_eq (runs : Runs texts engine (plan texts.plan bound) budget shape changes) :
    shape = ⟨bound.source, bound.filters, bound.projection, bound.limit⟩ := by
  have shaped := runs.shaped
  rw [plan_shape, Except.ok.injEq] at shaped
  exact shaped.symm

theorem Runs.rows_eq (runs : Runs texts engine (plan texts.plan bound) budget shape changes) :
    (answer texts (plan texts.plan bound) budget shape changes).rows =
      (accept texts.row bound.projection budget.maxOutputBytes 0
        ((bound.asked changes).take budget.maxRows)).1 := by
  rw [runs.answer_rows, runs.shape_eq]
  simp only [plan]
  rw [selectRows_plan]

theorem Runs.answer_eq (runs : Runs texts engine (plan texts.plan bound) budget shape changes) :
    let kept := (bound.asked changes).take budget.maxRows
    let accepted := accept texts.row bound.projection budget.maxOutputBytes 0 kept
    let execution := answer texts (plan texts.plan bound) budget shape changes
    execution.batches = batches budget.maxBatchRows accepted.1 ∧ execution.outputBytes = accepted.2.1 ∧
      execution.returnedRows = accepted.1.length ∧
      execution.truncated = (accepted.2.2 || decide (kept.length < (bound.asked changes).length)) := by
  rw [runs.shape_eq]
  simp [answer, plan, selectRows_plan]

/-- What `execute` returns is exact. -/
theorem Runs.budgetExact (runs : Runs texts engine (plan texts.plan bound) budget shape changes) :
    BudgetExact texts bound budget changes (answer texts (plan texts.plan bound) budget shape changes) := by
  obtain ⟨isBatches, isBytes, isCount, isTruncated⟩ := runs.answer_eq
  have isRows := runs.rows_eq
  have longest := @accept_longest texts.row bound.projection budget.maxOutputBytes 0 (Nat.zero_le _)
    ((bound.asked changes).take budget.maxRows)
  have bytes := @accept_bytes texts.row bound.projection budget.maxOutputBytes 0
    ((bound.asked changes).take budget.maxRows)
  have cut := @accept_cut texts.row bound.projection budget.maxOutputBytes 0
    ((bound.asked changes).take budget.maxRows)
  rw [← isRows] at isCount longest bytes cut
  refine ⟨⟨_, List.mergeSort_perm _ _, QueryRow.pairwise_mergeSort _, rfl⟩, ?_, ?_, ?_, isCount, ?_⟩
  · simp only [Nat.zero_add, List.map_take] at longest
    exact longest.of_take
  · have short := longest.isPrefix.length_le
    rw [isTruncated, cut, Bool.or_eq_true, decide_eq_true_eq, decide_eq_true_eq]
    rw [List.length_map, List.length_take] at short
    rw [List.length_take]
    omega
  · rw [isBatches]
    exact batched runs.positive _
  · rw [isBytes, bytes, Nat.zero_add]

end

/-! ## What is scanned -/

section

open Store

variable [Codec] {engine : Engine} {log changes : List RuntimeChange} {read : ReadStamp} {known : UInt64}

theorem native_scanned {rows : Rows} (holds : rows.Holds log)
    (scanned : scanChanges rows.view.runtimeReadChanges read known = .ok changes) :
    ∃ found, (Engine.native rows).Reads (log.take known.toNat) found ∧
      changes = found.filter (inScope (some read.scope)) := by
  unfold scanChanges at scanned
  by_cases zero : known = 0
  · rw [if_pos zero] at scanned
    cases scanned
    subst zero
    exact ⟨[], .nil, rfl⟩
  rw [if_neg zero] at scanned
  split at scanned
  · cases scanned
  next page isPage =>
  dsimp only at scanned
  split at scanned
  · cases scanned
  next reached =>
  cases scanned
  rw [not_not] at reached
  obtain ⟨⟨⟩, valid, isPage⟩ := except_bind_ok.mp isPage
  have stored := validateReadStamp_stored holds valid
  have none : (0 : UInt64).toNat = 0 := rfl
  unfold View.changePage at isPage
  by_cases past : (0 : UInt64) = u64Max ∨ read.commitCursor ≤ 0
  · simp only [if_pos past, except_throw, except_error_bind, except_reject_ok, except_pure, Except.ok.injEq] at isPage
    rw [← isPage.2] at reached
    exact absurd reached.symm zero
  · simp only [if_neg past, if_pos, except_throw, except_error_bind, except_reject_ok, except_pure, except_ok_bind,
      except_bind_ok, Except.ok.injEq] at isPage
    obtain ⟨-, ⟨through, found⟩, collected, rfl⟩ := isPage
    have fits : (0 : UInt64).toNat + (read.commitCursor - 0).toNat ≤ log.length := by
      rw [UInt64.sub_zero, none]
      omega
    obtain ⟨-, all, each, rfl⟩ := collectChanges_reads holds fits collected
    dsimp only at reached
    rw [none, List.drop_zero, reached] at each
    exact ⟨all, each, rfl⟩

/-- What is scanned is what the engine reads of its log up to the known cursor. -/
theorem scanned_reads (logs : engine.Logs log)
    (scanned : scanChanges engine.runtimeReadChanges read known = .ok changes) :
    ∃ found, engine.Reads (log.take known.toNat) found ∧ changes = found.filter (inScope (some read.scope)) := by
  cases engine with
  | memory engine =>
    obtain ⟨rfl, -⟩ := logs
    exact ⟨_, rfl, scanChanges_ok scanned⟩
  | native rows => exact native_scanned logs scanned

/-- A scan is the same after more commits. -/
theorem scanChanges_later {next : Engine} (logs : engine.Logs log) (later : engine.Later next)
    (scanned : scanChanges engine.runtimeReadChanges read known = .ok changes) :
    scanChanges next.runtimeReadChanges read known = .ok changes := by
  unfold scanChanges at scanned ⊢
  by_cases zero : known = 0
  · rw [if_pos zero] at scanned ⊢
    exact scanned
  · rw [if_neg zero] at scanned ⊢
    cases isPage : engine.runtimeReadChanges read 0 known.toNat with
    | error e =>
      rw [isPage] at scanned
      cases scanned
    | ok page =>
      rw [isPage] at scanned
      rw [Engine.runtimeReadChanges_later logs later isPage]
      exact scanned

/-! ## Executions -/

/-- An execution of a bound query returns exactly what its budget allows of the rows of the log up to
the known cursor, the same rows in batches of any size, and the same again after any more commits. -/
theorem execute_exact_repeatable {texts : Texts} {bound : BoundQuery} {budget : ExecutionBudget}
    {execution : QueryExecution} (history : engine.History)
    (ran : execute texts engine.runtimeReadChanges (plan texts.plan bound) budget = .ok execution) :
    (∃ log found, engine.Logs log ∧ engine.Reads (log.take bound.knownAtCursor.toNat) found ∧
      BudgetExact texts bound budget (found.filter (inScope (some bound.read.scope))) execution) ∧
    (∀ size, 0 < size → ∃ other, execute texts engine.runtimeReadChanges (plan texts.plan bound)
      { budget with maxBatchRows := size } = .ok other ∧ other.rows = execution.rows ∧
        other.truncated = execution.truncated) ∧
    ∀ next, engine.Later next →
      execute texts next.runtimeReadChanges (plan texts.plan bound) budget = .ok execution := by
  obtain ⟨log, logs⟩ := history.logs
  obtain ⟨shape, changes, runs, rfl⟩ := execute_ok_iff.mp ran
  refine ⟨?_, ?_, ?_⟩
  · obtain ⟨found, reads, rfl⟩ := scanned_reads logs runs.scanned
    exact ⟨log, found, logs, reads, runs.budgetExact⟩
  · intro size positive
    have budgeted : ({ budget with maxBatchRows := size } : ExecutionBudget).validate = .ok () := by
      obtain ⟨before, -⟩ := except_reject_ok.mp runs.budgeted
      refine except_reject_ok.mpr ⟨?_, rfl⟩
      dsimp only
      omega
    have again : Runs texts engine.runtimeReadChanges (plan texts.plan bound) { budget with maxBatchRows := size }
        shape changes := { runs with budgeted }
    refine ⟨_, execute_ok_iff.mpr ⟨shape, changes, again, rfl⟩, ?_, rfl⟩
    rw [again.rows_eq, runs.rows_eq]
  · intro next later
    have again : Runs texts next.runtimeReadChanges (plan texts.plan bound) budget shape changes :=
      { runs with scanned := scanChanges_later logs later runs.scanned }
    exact execute_ok_iff.mpr ⟨shape, changes, again, rfl⟩

end

open DoorQuery Store in
/-- The query for the door returns its row again after any more commits. -/
theorem execute_exact_repeatable_door : let _ := sureCodec none
    ∃ (read : ReadStamp) (execution : QueryExecution),
      execution.rows = [claimRow MemoryEngine.openDoor.subject MemoryEngine.openDoor.predicate MemoryEngine.openDoor] ∧
      ∀ next, (Engine.memory (MemoryEngine.new.commitRuntime commit).2).Later next →
        execute texts next.runtimeReadChanges (plan texts.plan (bound read)) .default = .ok execution := by
  let _ := sureCodec none
  obtain ⟨read, execution, -, executed, -, rows⟩ := ran
  have history : (Engine.memory (MemoryEngine.new.commitRuntime commit).2).History := by
    refine .inl (.single ⟨commit, rfl, ?_⟩)
    show (MemoryEngine.new.commitRuntime commit).2.runtimeChanges.length < 2 ^ 63
    decide +kernel
  obtain ⟨-, -, again⟩ := execute_exact_repeatable history executed
  exact ⟨read, execution, rows, again⟩

end Vyrm.Mx
