import Mathlib.Data.List.Induction
import Mathlib.Algebra.Order.Group.Int
import Mathlib.Algebra.BigOperators.Group.List.Basic
import Mathlib.Algebra.Ring.Int.Defs
import Mathlib.Order.Lattice

/-!
# Sweeping over windows

Windows that start and may end, as points in time at which one more or one less is open. The most that
are open at an instant is found in one sweep over the points, when ends come before starts.
-/

namespace Vyrm.Lib

variable {τ : Type} [LE τ] [LT τ] [DecidableLE τ] [Std.IsLinearOrder τ] [Std.LawfulOrderLT τ]

/-- What points up to an instant add up to. -/
def openAt (points : List (τ × Int)) (t : τ) : Int := ((points.filter fun point => point.1 ≤ t).map Prod.snd).sum

omit [LT τ] [Std.IsLinearOrder τ] [Std.LawfulOrderLT τ] in
theorem openAt_append (points more : List (τ × Int)) (t : τ) :
    openAt (points ++ more) t = openAt points t + openAt more t := by
  simp [openAt]

omit [LT τ] [Std.IsLinearOrder τ] [Std.LawfulOrderLT τ] in
@[simp] theorem openAt_singleton (point : τ × Int) (t : τ) :
    openAt [point] t = if point.1 ≤ t then point.2 else 0 := by
  by_cases past : point.1 ≤ t <;> simp [openAt, past]

omit [LT τ] [Std.IsLinearOrder τ] [Std.LawfulOrderLT τ] in
theorem openAt_of_past {points : List (τ × Int)} {t : τ} (past : ∀ point ∈ points, point.1 ≤ t) :
    openAt points t = (points.map Prod.snd).sum := by
  have all : points.filter (fun point => point.1 ≤ t) = points := by simpa using past
  rw [openAt, all]

omit [LT τ] [Std.IsLinearOrder τ] [Std.LawfulOrderLT τ] in
theorem openAt_perm {points other : List (τ × Int)} (perm : points.Perm other) (t : τ) :
    openAt points t = openAt other t :=
  ((perm.filter _).map _).sum_eq

omit [LT τ] [Std.IsLinearOrder τ] [Std.LawfulOrderLT τ] in
theorem openAt_flatMap {α : Type} (items : List α) (points : α → List (τ × Int)) (t : τ) :
    openAt (items.flatMap points) t = (items.map fun item => openAt (points item) t).sum := by
  induction items with
  | nil => rfl
  | cons item rest ih => rw [List.flatMap_cons, openAt_append, ih, List.map_cons, List.sum_cons]

/-- The sweep: what is open now, and the most so far. -/
def sweepPoints (points : List (τ × Int)) : Int × Int :=
  points.foldl (fun (current, maximum) (_, delta) => (current + delta, max maximum (current + delta))) (0, 0)

omit [LE τ] [LT τ] [DecidableLE τ] [Std.IsLinearOrder τ] [Std.LawfulOrderLT τ] in
theorem sweepPoints_snoc (points : List (τ × Int)) (point : τ × Int) :
    sweepPoints (points ++ [point]) =
      ((sweepPoints points).1 + point.2, max (sweepPoints points).2 ((sweepPoints points).1 + point.2)) := by
  simp [sweepPoints]

/-- Points in order of time, the ends before the starts. -/
def Swept (points : List (τ × Int)) : Prop :=
  (∀ point ∈ points, point.2 = 1 ∨ point.2 = -1) ∧ points.Pairwise fun a b => a.1 < b.1 ∨ a.1 = b.1 ∧ a.2 ≤ b.2

/-- The sweep so far has found the most that are open at an instant, which is one at which a window starts. -/
structure Peak (points : List (τ × Int)) (current maximum : Int) : Prop where
  current : current = (points.map Prod.snd).sum
  nonneg : 0 ≤ maximum
  bound : ∀ t, openAt points t ≤ maximum
  attained : maximum = 0 ∨ ∃ t, (t, 1) ∈ points ∧ openAt points t = maximum

theorem Peak.step {points : List (τ × Int)} {current maximum : Int} {point : τ × Int}
    (peak : Peak points current maximum) (delta : point.2 = 1 ∨ point.2 = -1)
    (after : ∀ before ∈ points, before.1 < point.1 ∨ before.1 = point.1 ∧ before.2 ≤ point.2) :
    Peak (points ++ [point]) (current + point.2) (max maximum (current + point.2)) := by
  have past : ∀ before ∈ points, before.1 ≤ point.1 := by
    intro before member
    rcases after before member with earlier | ⟨same, -⟩
    · exact Std.le_of_lt earlier
    · exact Std.le_of_eq same
  -- What is open when the point is reached.
  have here : openAt points point.1 = current := by rw [openAt_of_past past, peak.current]
  have most := here ▸ peak.bound point.1
  refine ⟨?_, le_max_of_le_left peak.nonneg, ?_, ?_⟩
  · rw [peak.current, List.map_append, List.sum_append]
    simp
  · intro t
    rw [openAt_append, openAt_singleton]
    split
    · rename_i reached
      have all : openAt points t = current := by
        rw [openAt_of_past fun before member => Std.le_trans (past before member) reached, peak.current]
      rw [all]
      exact le_max_right _ _
    · rw [Int.add_zero]
      exact le_max_of_le_left (peak.bound t)
  · -- A later point leaves what is open at an earlier start.
    have kept : ∀ t, t < point.1 → openAt points t = maximum → openAt (points ++ [point]) t = maximum := by
      intro t earlier attained
      rw [openAt_append, openAt_singleton, if_neg (Std.not_le.mpr earlier), Int.add_zero, attained]
    rcases delta with start | end_
    · by_cases risen : maximum < current + point.2
      · refine .inr ⟨point.1, ?_, ?_⟩
        · simp [← start]
        · rw [openAt_append, openAt_singleton, if_pos (Std.le_refl _), here, max_eq_right (Int.le_of_lt risen)]
      · rw [max_eq_left (Int.not_lt.mp risen)]
        refine peak.attained.imp id ?_
        intro ⟨t, member, attained⟩
        refine ⟨t, List.mem_append_left _ member, kept t ?_ attained⟩
        rcases after _ member with earlier | ⟨same, -⟩
        · exact earlier
        · subst same
          omega
    · rw [max_eq_left (by omega)]
      refine peak.attained.imp id ?_
      intro ⟨t, member, attained⟩
      refine ⟨t, List.mem_append_left _ member, kept t ?_ attained⟩
      rcases after _ member with earlier | ⟨-, before⟩
      · exact earlier
      · rw [end_] at before
        change (1 : Int) ≤ -1 at before
        omega

theorem peak_sweepPoints {points : List (τ × Int)} (swept : Swept points) :
    Peak points (sweepPoints points).1 (sweepPoints points).2 := by
  induction points using List.reverseRecOn with
  | nil => exact ⟨rfl, Int.le_refl 0, fun _ => Int.le_refl 0, .inl rfl⟩
  | append_singleton points point ih =>
    obtain ⟨deltas, ordered⟩ := swept
    rw [List.pairwise_append] at ordered
    have before := ih ⟨fun point member => deltas point (by simp [member]), ordered.1⟩
    rw [sweepPoints_snoc]
    exact before.step (deltas point (by simp)) fun earlier member => ordered.2.2 earlier member point (by simp)

/-- The points of a window that starts and may end. -/
def windowEnds (start : τ) : Option τ → List (τ × Int)
  | none => [(start, 1)]
  | some stop => [(start, 1), (stop, -1)]

/-- A window that ends after it starts is open from its start until its end. -/
theorem openAt_windowEnds [DecidableLT τ] {start t : τ} {stop : Option τ} (proper : ∀ last ∈ stop, start < last) :
    openAt (windowEnds start stop) t = if start ≤ t && stop.all fun last => t < last then 1 else 0 := by
  cases stop with
  | none => simp [windowEnds]
  | some last =>
    have proper : start < last := proper last rfl
    have split : openAt (windowEnds start (some last)) t = openAt [(start, 1)] t + openAt [(last, -1)] t :=
      openAt_append [(start, 1)] [(last, -1)] t
    rw [split, openAt_singleton, openAt_singleton]
    by_cases ended : last ≤ t
    · have started : start ≤ t := Std.le_trans (Std.le_of_lt proper) ended
      have closed : ¬ t < last := Std.not_lt.mpr ended
      simp [ended, started, closed]
    · have running : t < last := Std.not_le.mp ended
      by_cases started : start ≤ t <;> simp [ended, started, running]

end Vyrm.Lib
