import Vyrm.Lib.LongestPrefix
import Vyrm.Mx.Execute

/-!
# What an execution returns

`execute` (`crates/vyrm-mx/src/execute.rs`) cuts the rows it selects to the row budget, then to
the byte budget of what the projection leaves of them. Together that is the longest prefix
within both, and the batches are that prefix, in order.
-/

namespace Vyrm.Mx
open Lib Vyrm.Core Vyrm.Ql

/-! ## The output budget -/

/-- The bytes of some rows. -/
def outputBytes (rowText : QueryRow → Bytes) (rows : List QueryRow) : Nat :=
  (rows.map fun row => (rowText row).length).sum

@[simp] theorem outputBytes_nil (rowText : QueryRow → Bytes) : outputBytes rowText [] = 0 := rfl

@[simp] theorem outputBytes_cons (rowText : QueryRow → Bytes) (row : QueryRow) (rows : List QueryRow) :
    outputBytes rowText (row :: rows) = (rowText row).length + outputBytes rowText rows := by
  simp [outputBytes]

/-- The loop takes the longest prefix of the projected rows that stays within the budget. -/
theorem accept_longest {rowText : QueryRow → Bytes} {projection : Projection} {maxBytes used : Nat}
    (within : used ≤ maxBytes) (rows : List QueryRow) :
    IsLongestPrefix (fun taken => used + outputBytes rowText taken ≤ maxBytes)
      (rows.map (applyProjection projection)) (accept rowText projection maxBytes used rows).1 := by
  induction rows generalizing used with
  | nil => exact IsLongestPrefix.nil (by simpa using within)
  | cons row rows ih =>
    rw [accept, List.map_cons]
    dsimp only
    split
    · next exceeds =>
      apply IsLongestPrefix.stop
      · simpa using within
      · intro rest
        rw [outputBytes_cons]
        omega
    · next fits =>
      apply IsLongestPrefix.cons
      simpa [Nat.add_assoc] using ih (Nat.not_lt.mp fits)

theorem accept_bytes {rowText : QueryRow → Bytes} {projection : Projection} {maxBytes used : Nat}
    (rows : List QueryRow) :
    (accept rowText projection maxBytes used rows).2.1 =
      used + outputBytes rowText (accept rowText projection maxBytes used rows).1 := by
  induction rows generalizing used with
  | nil => rfl
  | cons row rows ih =>
    rw [accept]
    dsimp only
    split
    · rfl
    · rw [outputBytes_cons, ih]
      omega

/-- The loop says that it was cut when it leaves a row out. -/
theorem accept_cut {rowText : QueryRow → Bytes} {projection : Projection} {maxBytes used : Nat}
    (rows : List QueryRow) :
    (accept rowText projection maxBytes used rows).2.2 =
      decide ((accept rowText projection maxBytes used rows).1.length < rows.length) := by
  induction rows generalizing used with
  | nil => rfl
  | cons row rows ih =>
    rw [accept]
    dsimp only
    split
    · simp
    · rw [ih]
      simp

theorem accept_whole {rowText : QueryRow → Bytes} {projection : Projection} {maxBytes used : Nat}
    {rows : List QueryRow} (whole : (accept rowText projection maxBytes used rows).2.2 = false) :
    (accept rowText projection maxBytes used rows).1 = rows.map (applyProjection projection) := by
  induction rows generalizing used with
  | nil => rfl
  | cons row rows ih =>
    rw [accept] at whole ⊢
    dsimp only at whole ⊢
    split at whole
    · cases whole
    · next fits =>
      rw [if_neg fits, List.map_cons, ← ih whole]

/-! ## Batches -/

theorem flatMap_chunks (size count : Nat) (rows : List QueryRow) :
    ((List.range count).flatMap fun ordinal => (rows.drop (ordinal * size)).take size) = rows.take (count * size) := by
  induction count with
  | zero => simp
  | succ count ih =>
    rw [List.range_succ, List.flatMap_append, ih, List.flatMap_singleton, Nat.succ_mul, List.take_add]

theorem batches_rows {size : Nat} (positive : size ≠ 0) (accepted : List QueryRow) :
    (batches size accepted).flatMap (·.rows) = accepted := by
  have enough : accepted.length ≤ (accepted.length + size - 1) / size * size := by
    have := Nat.div_add_mod (accepted.length + size - 1) size
    have := Nat.mod_lt (accepted.length + size - 1) (Nat.pos_of_ne_zero positive)
    rw [Nat.mul_comm]
    omega
  rw [batches, List.flatMap_map, flatMap_chunks, List.take_of_length_le enough]

/-- Batches that are numbered from 0 on. All but the last are full, none is empty, and only the last
is marked. -/
structure Batched (size : Nat) (batches : List QueryBatch) : Prop where
  ordinals : batches.map (·.ordinal) = List.range batches.length
  some_ : ∀ batch ∈ batches, batch.rows ≠ []
  few : ∀ batch ∈ batches, batch.rows.length ≤ size
  full : ∀ batch ∈ batches, batch.done = false → batch.rows.length = size
  marked : ∀ batch ∈ batches, batch.done ↔ batch.ordinal + 1 = batches.length

theorem batched {size : Nat} (positive : size ≠ 0) (accepted : List QueryRow) :
    Batched size (batches size accepted) := by
  have length : (batches size accepted).length = (accepted.length + size - 1) / size := by simp [batches]
  have division := Nat.div_add_mod (accepted.length + size - 1) size
  have small := Nat.mod_lt (accepted.length + size - 1) (Nat.pos_of_ne_zero positive)
  have each : ∀ batch ∈ batches size accepted, ∃ ordinal, ordinal < (accepted.length + size - 1) / size ∧
      batch = { ordinal, rows := (accepted.drop (ordinal * size)).take size
                done := ordinal + 1 = (accepted.length + size - 1) / size } := by
    intro batch member
    obtain ⟨ordinal, below, same⟩ := List.mem_map.mp member
    exact ⟨ordinal, List.mem_range.mp below, same.symm⟩
  -- Before the last chunk there are `count - 1` full ones, and one row at least is left.
  have before : ∀ ordinal, ordinal < (accepted.length + size - 1) / size → ordinal * size < accepted.length ∧
      (ordinal + 1 ≠ (accepted.length + size - 1) / size → ordinal * size + size ≤ accepted.length) := by
    intro ordinal below
    generalize (accepted.length + size - 1) / size = count at *
    have atMost : (ordinal + 1) * size ≤ size * count := by
      rw [Nat.mul_comm size]
      exact Nat.mul_le_mul_right size below
    rw [Nat.succ_mul] at atMost
    refine ⟨by omega, ?_⟩
    intro notLast
    have less : (ordinal + 2) * size ≤ size * count := by
      rw [Nat.mul_comm size]
      exact Nat.mul_le_mul_right size (by omega)
    rw [Nat.add_mul] at less
    omega
  refine ⟨?_, ?_, ?_, ?_, ?_⟩
  · rw [length, batches]
    simp [Function.comp_def]
  · intro batch member
    obtain ⟨ordinal, below, rfl⟩ := each batch member
    have left := (before ordinal below).1
    have length : 0 < ((accepted.drop (ordinal * size)).take size).length := by
      rw [List.length_take, List.length_drop]
      omega
    exact List.ne_nil_of_length_pos length
  · intro batch member
    obtain ⟨ordinal, -, rfl⟩ := each batch member
    exact List.length_take_le _ _
  · intro batch member notDone
    obtain ⟨ordinal, below, rfl⟩ := each batch member
    have left := (before ordinal below).2 (of_decide_eq_false notDone)
    dsimp only
    rw [List.length_take, List.length_drop]
    omega
  · intro batch member
    obtain ⟨ordinal, -, rfl⟩ := each batch member
    rw [length, decide_eq_true_eq]

/-! ## Executions -/

/-- What `execute` returns once it has read the changes (`execute.rs:111-160`). -/
def answer (texts : Texts) (plan : PhysicalPlan) (budget : ExecutionBudget) (shape : PlanShape)
    (changes : List RuntimeChange) : QueryExecution :=
  let contract := plan.explanation.contract
  let rows := selectRows shape
    (rowsForSource changes plan.logical.read.scope shape.source contract.validAt contract.knownAtCursor)
  let kept := rows.take budget.maxRows
  let accepted := accept texts.row shape.projection budget.maxOutputBytes 0 kept
  { planDigest := plan.digest
    readManifest := plan.logical.read.manifestId
    validAt := contract.validAt
    knownAtCursor := contract.knownAtCursor
    scannedChanges := contract.knownAtCursor.toNat
    returnedRows := accepted.1.length
    outputBytes := accepted.2.1
    truncated := accepted.2.2 || decide (kept.length < rows.length)
    batches := batches budget.maxBatchRows accepted.1 }

/-- What it takes for an execution to return. -/
structure Runs (texts : Texts) (engine : ReadChanges) (plan : PhysicalPlan) (budget : ExecutionBudget)
    (shape : PlanShape) (changes : List RuntimeChange) : Prop where
  verified : plan.verify texts.plan = .ok ()
  budgeted : budget.validate = .ok ()
  stamped : plan.explanation.contract.readManifest = plan.logical.read.manifestId
  allowed : plan.explanation.contract.knownAtCursor.toNat ≤ budget.maxScannedChanges
  scanned : scanChanges engine plan.logical.read plan.explanation.contract.knownAtCursor = .ok changes
  shaped : PlanShape.read plan = .ok shape

theorem execute_ok_iff {texts : Texts} {engine : ReadChanges} {plan : PhysicalPlan} {budget : ExecutionBudget}
    {execution : QueryExecution} :
    execute texts engine plan budget = .ok execution ↔
      ∃ shape changes, Runs texts engine plan budget shape changes ∧
        answer texts plan budget shape changes = execution := by
  constructor
  · intro ran
    unfold execute at ran
    obtain ⟨⟨⟩, verified, ran⟩ := except_bind_ok.mp ran
    obtain ⟨⟨⟩, budgeted, ran⟩ := except_bind_ok.mp ran
    dsimp only at ran
    split at ran
    · cases ran
    next stamped =>
    split at ran
    · cases ran
    next allowed =>
    obtain ⟨changes, scanned, ran⟩ := except_bind_ok.mp ran
    obtain ⟨shape, shaped, ran⟩ := except_bind_ok.mp ran
    exact ⟨shape, changes, ⟨verified, budgeted, not_not.mp stamped, Nat.not_lt.mp allowed, scanned, shaped⟩,
      Except.ok.inj ran⟩
  · intro ⟨shape, changes, runs, same⟩
    unfold execute
    rw [runs.verified, runs.budgeted]
    simp only [except_ok_bind, runs.stamped, ne_eq, not_true, if_false, if_neg (Nat.not_lt.mpr runs.allowed),
      runs.scanned, runs.shaped]
    exact congrArg Except.ok same

namespace Runs

variable {texts : Texts} {engine : ReadChanges} {plan : PhysicalPlan} {budget : ExecutionBudget}
  {shape : PlanShape} {changes : List RuntimeChange}

theorem positive (runs : Runs texts engine plan budget shape changes) : budget.maxBatchRows ≠ 0 := by
  have budgeted := runs.budgeted
  unfold ExecutionBudget.validate at budgeted
  split at budgeted
  · cases budgeted
  · next allowed => exact fun none => allowed (.inr (.inr (.inr none)))

theorem answer_rows (runs : Runs texts engine plan budget shape changes) :
    (answer texts plan budget shape changes).rows =
      (accept texts.row shape.projection budget.maxOutputBytes 0
        ((selectRows shape (rowsForSource changes plan.logical.read.scope shape.source
          plan.explanation.contract.validAt plan.explanation.contract.knownAtCursor)).take budget.maxRows)).1 :=
  batches_rows runs.positive _

end Runs

/-- An execution that was not cut returns the selected rows of its source. -/
theorem execute_rows {texts : Texts} {engine : ReadChanges} {plan : PhysicalPlan} {budget : ExecutionBudget}
    {execution : QueryExecution} (ran : execute texts engine plan budget = .ok execution)
    (whole : execution.truncated = false) :
    ∃ changes shape, scanChanges engine plan.logical.read plan.explanation.contract.knownAtCursor = .ok changes ∧
      PlanShape.read plan = .ok shape ∧
      execution.rows = (selectRows shape (rowsForSource changes plan.logical.read.scope shape.source
        plan.explanation.contract.validAt plan.explanation.contract.knownAtCursor)).map
          (applyProjection shape.projection) := by
  obtain ⟨shape, changes, runs, rfl⟩ := execute_ok_iff.mp ran
  refine ⟨changes, shape, runs.scanned, runs.shaped, ?_⟩
  obtain ⟨taken, short⟩ := Bool.or_eq_false_iff.mp whole
  have all := of_decide_eq_false short
  rw [List.length_take] at all
  rw [runs.answer_rows, accept_whole taken, List.take_of_length_le (by omega)]

end Vyrm.Mx
