import Vyrm.Core.Temporal

/-!
# Candidates in any order

What `resolve_as_of` returns on a list that need not be newest first, and what it returns on the
same claims once they are.
-/

namespace Vyrm.Core
open Lib

/-! ## Newest first -/

/-- Two claims that are versions under one key. -/
def Claim.SameTimes (a b : Claim) : Prop := a.validFrom = b.validFrom ∧ a.txTime = b.txTime

instance (a b : Claim) : Decidable (a.Newer b) := inferInstanceAs (Decidable (_ ∨ _))

instance (a b : Claim) : Decidable (a.SameTimes b) := inferInstanceAs (Decidable (_ ∧ _))

/-- Records a claim in a newest-first list; it replaces the one with its times. -/
def record (claim : Claim) : List Claim → List Claim
  | [] => [claim]
  | other :: rest =>
    if claim.Newer other then claim :: other :: rest
    else if claim.SameTimes other then claim :: rest
    else other :: record claim rest

/-- Claims in the order they were committed, newest first. -/
def newestFirst (claims : List Claim) : List Claim := claims.foldl (fun sorted claim => record claim sorted) []

/-- What `as_of` resolves at an instant from claims in the order they were committed. -/
def resolvedAsOf (claims : List Claim) (asOf : Millis) : Option Claim :=
  resolveAsOf ((newestFirst claims).filter fun claim => claim.validFrom ≤ asOf) asOf

/-- The last committed of the claims with its times. -/
def Recorded (claims : List Claim) (claim : Claim) : Prop :=
  ∃ before after, claims = before ++ claim :: after ∧ ∀ later ∈ after, ¬ later.SameTimes claim

theorem newer_or_same (a b : Claim) : a.Newer b ∨ a.SameTimes b ∨ b.Newer a := by
  unfold Claim.Newer Claim.SameTimes
  rcases UInt64.le_total a.validFrom b.validFrom with starts | starts
  all_goals rcases UInt64.le_total a.txTime b.txTime with recorded | recorded
  all_goals grind

theorem Claim.Newer.trans {a b c : Claim} (first : a.Newer b) (second : b.Newer c) : a.Newer c := by
  unfold Newer at *
  rcases first with first | ⟨same, first⟩
  · rcases second with second | ⟨same', -⟩
    · exact .inl (UInt64.lt_trans second first)
    · exact .inl (same' ▸ first)
  · rcases second with second | ⟨same', second⟩
    · exact .inl (same ▸ second)
    · exact .inr ⟨same.trans same', UInt64.lt_trans second first⟩

theorem Claim.Newer.irrefl (claim : Claim) : ¬ claim.Newer claim := by
  simp [Newer]

/-- A claim that is newer than another is newer than a third, or the third is newer than the other. -/
theorem Claim.Newer.split {a c : Claim} (newer : a.Newer c) (b : Claim) : a.Newer b ∨ b.Newer c := by
  simp only [Newer, UInt64.lt_iff_toNat_lt, ← UInt64.toNat_inj] at *
  omega

theorem Claim.Newer.congr_left {a b c : Claim} (newer : a.Newer c) (same : b.SameTimes a) : b.Newer c := by
  unfold Newer at *
  rw [same.1, same.2]
  exact newer

theorem Claim.Newer.congr_right {a b c : Claim} (newer : c.Newer a) (same : b.SameTimes a) : c.Newer b := by
  unfold Newer at *
  rw [same.1, same.2]
  exact newer

theorem Claim.Newer.not_sameTimes {a b : Claim} (newer : a.Newer b) : ¬ b.SameTimes a := by
  intro same
  rcases newer with less | ⟨-, less⟩
  · rw [same.1] at less
    exact UInt64.lt_irrefl _ less
  · rw [same.2] at less
    exact UInt64.lt_irrefl _ less

theorem mem_record {claim other : Claim} {sorted : List Claim} (newest : NewestFirst sorted) :
    other ∈ record claim sorted ↔ other = claim ∨ other ∈ sorted ∧ ¬ claim.SameTimes other := by
  induction sorted with
  | nil => simp [record]
  | cons head rest ih =>
    obtain ⟨newer, newest⟩ := List.pairwise_cons.mp newest
    have behind : claim.Newer head ∨ claim.SameTimes head → ∀ version ∈ rest, ¬ claim.SameTimes version := by
      intro before version member same
      have older : claim.Newer version := by
        rcases before with before | before
        · exact before.trans (newer version member)
        · exact (newer version member).congr_left before
      exact older.not_sameTimes ⟨same.1.symm, same.2.symm⟩
    rw [record]
    by_cases isNewer : claim.Newer head
    · rw [if_pos isNewer, List.mem_cons]
      have apart : ∀ version ∈ head :: rest, ¬ claim.SameTimes version := by
        rw [List.forall_mem_cons]
        exact ⟨fun same => isNewer.not_sameTimes ⟨same.1.symm, same.2.symm⟩, behind (.inl isNewer)⟩
      exact or_congr_right ⟨fun member => ⟨member, apart other member⟩, And.left⟩
    rw [if_neg isNewer]
    by_cases same : claim.SameTimes head
    · rw [if_pos same, List.mem_cons, List.mem_cons]
      refine or_congr_right ⟨fun member => ⟨.inr member, behind (.inr same) other member⟩, ?_⟩
      intro ⟨member, apart⟩
      rcases member with rfl | member
      · exact absurd same apart
      · exact member
    · rw [if_neg same, List.mem_cons, ih newest, List.mem_cons]
      constructor
      · intro member
        rcases member with rfl | rfl | ⟨member, apart⟩
        · exact .inr ⟨.inl rfl, same⟩
        · exact .inl rfl
        · exact .inr ⟨.inr member, apart⟩
      · intro member
        rcases member with rfl | ⟨rfl | member, apart⟩
        · exact .inr (.inl rfl)
        · exact .inl rfl
        · exact .inr (.inr ⟨member, apart⟩)

theorem newestFirst_record {sorted : List Claim} (newest : NewestFirst sorted) (claim : Claim) :
    NewestFirst (record claim sorted) := by
  induction sorted with
  | nil => exact List.pairwise_singleton _ _
  | cons head rest ih =>
    obtain ⟨newer, inner⟩ := List.pairwise_cons.mp newest
    rw [record]
    by_cases isNewer : claim.Newer head
    · rw [if_pos isNewer]
      refine List.pairwise_cons.mpr ⟨?_, newest⟩
      rw [List.forall_mem_cons]
      exact ⟨isNewer, fun version member => isNewer.trans (newer version member)⟩
    rw [if_neg isNewer]
    by_cases same : claim.SameTimes head
    · rw [if_pos same]
      exact List.pairwise_cons.mpr ⟨fun version member => (newer version member).congr_left same, inner⟩
    · rw [if_neg same]
      have older : head.Newer claim := ((newer_or_same claim head).resolve_left isNewer).resolve_left same
      refine List.pairwise_cons.mpr ⟨?_, ih inner⟩
      intro version member
      rcases (mem_record inner).mp member with rfl | ⟨member, -⟩
      · exact older
      · exact newer version member

theorem newestFirst_append (claims : List Claim) (claim : Claim) :
    newestFirst (claims ++ [claim]) = record claim (newestFirst claims) := by
  rw [newestFirst, List.foldl_append]
  rfl

theorem newestFirst_sorted (claims : List Claim) : NewestFirst (newestFirst claims) := by
  induction claims using List.reverseRecOn with
  | nil => exact .nil
  | append_singleton claims claim ih =>
    rw [newestFirst_append]
    exact newestFirst_record ih claim

theorem recorded_append {claims : List Claim} {claim other : Claim} :
    Recorded (claims ++ [claim]) other ↔ other = claim ∨ Recorded claims other ∧ ¬ claim.SameTimes other := by
  constructor
  · intro ⟨before, after, split, last⟩
    rcases List.eq_nil_or_concat after with rfl | ⟨after, final, rfl⟩
    · exact .inl (List.cons.inj (List.append_inj_right' split rfl)).1.symm
    · rw [List.concat_eq_append] at split last
      rw [← List.cons_append, ← List.append_assoc] at split
      obtain ⟨rfl, same⟩ := List.append_inj' split rfl
      cases same
      rw [List.forall_mem_append, List.forall_mem_singleton] at last
      exact .inr ⟨⟨before, after, rfl, last.1⟩, last.2⟩
  · intro either
    rcases either with rfl | ⟨⟨before, after, rfl, last⟩, apart⟩
    · exact ⟨claims, [], rfl, fun _ none => by cases none⟩
    · refine ⟨before, after ++ [claim], by simp, ?_⟩
      rw [List.forall_mem_append, List.forall_mem_singleton]
      exact ⟨last, apart⟩

theorem mem_newestFirst {claims : List Claim} {claim : Claim} : claim ∈ newestFirst claims ↔ Recorded claims claim := by
  induction claims using List.reverseRecOn generalizing claim with
  | nil =>
    constructor
    · intro member
      cases member
    · intro ⟨before, after, split, last⟩
      simp at split
  | append_singleton claims final ih =>
    rw [newestFirst_append, mem_record (newestFirst_sorted claims), ih, recorded_append]

/-- What `as_of` resolves is in force among the claims that were recorded. -/
theorem resolvedAsOf_eq_some_iff {claims : List Claim} {asOf : Millis} {claim : Claim} :
    resolvedAsOf claims asOf = some claim ↔ InForce (Recorded claims) asOf claim := by
  rw [resolvedAsOf, resolveAsOf_eq_some_iff ((newestFirst_sorted claims).filter _)]
  have same : ∀ version, version.validFrom ≤ asOf →
      (version ∈ (newestFirst claims).filter (fun claim => claim.validFrom ≤ asOf) ↔ Recorded claims version) := by
    intro version started
    rw [List.mem_filter, mem_newestFirst, decide_eq_true started, and_iff_left rfl]
  constructor
  · exact InForce.congr same
  · exact InForce.congr fun version started => (same version started).symm

/-! ## Any order -/

/-- The resolver looks at a claim behind `before`: it is valid, and the claim before it has another
start. -/
structure Exposed (asOf : Millis) (before : List Claim) (claim : Claim) : Prop where
  valid : claim.validAt asOf = true
  start : before.getLast?.map (·.validFrom) ≠ some claim.validFrom

/-- The first claim of a list that the resolver looks at. -/
def FirstExposed (asOf : Millis) (claims : List Claim) (claim : Claim) : Prop :=
  ∃ before after, claims = before ++ claim :: after ∧ Exposed asOf before claim ∧
    ∀ front other back, before = front ++ other :: back → ¬ Exposed asOf front other

theorem resolveFrom_first (asOf : Millis) (done rest : List Claim) :
    match resolveFrom asOf (done.getLast?.map (·.validFrom)) rest with
    | some claim => ∃ before after, rest = before ++ claim :: after ∧ Exposed asOf (done ++ before) claim ∧
        ∀ front other back, before = front ++ other :: back → ¬ Exposed asOf (done ++ front) other
    | none => ∀ before claim after, rest = before ++ claim :: after → ¬ Exposed asOf (done ++ before) claim := by
  induction rest generalizing done with
  | nil =>
    intro before claim after split
    simp at split
  | cons head rest ih =>
    have next := ih (done ++ [head])
    rw [List.getLast?_concat, Option.map_some] at next
    -- what the resolver passes over is not exposed, and it goes on as if it had been before
    have passed : ¬ Exposed asOf done head → resolveFrom asOf (done.getLast?.map (·.validFrom)) (head :: rest) =
        resolveFrom asOf (some head.validFrom) rest := by
      intro hidden
      rw [resolveFrom]
      by_cases same : done.getLast?.map (·.validFrom) = some head.validFrom
      · rw [if_pos same, same]
      · rw [if_neg same, if_neg fun valid => hidden ⟨valid, same⟩]
    by_cases exposed : Exposed asOf done head
    · rw [resolveFrom, if_neg exposed.start, if_pos exposed.valid]
      refine ⟨[], rest, rfl, by simpa using exposed, ?_⟩
      intro front other back split
      simp at split
    rw [passed exposed]
    have here : ∀ {front : List Claim} {other : Claim} {back list : List Claim}, head :: list = front ++ other :: back →
        (∀ front other back, list = front ++ other :: back → ¬ Exposed asOf (done ++ [head] ++ front) other) →
        ¬ Exposed asOf (done ++ front) other := by
      intro front other back list split hidden
      cases front with
      | nil =>
        cases split
        simpa using exposed
      | cons first front =>
        rw [List.cons_append] at split
        obtain ⟨rfl, split'⟩ := List.cons.inj split
        simpa using hidden front other back split'
    split
    · next claim found =>
      rw [found] at next
      obtain ⟨before, after, rfl, isExposed, hidden⟩ := next
      refine ⟨head :: before, after, rfl, by simpa using isExposed, ?_⟩
      intro front other back split
      exact here split hidden
    · next none =>
      rw [none] at next
      intro before claim after split
      exact here split next

/-- The resolver returns the first claim that it looks at. -/
theorem resolveAsOf_eq_some_first {claims : List Claim} {asOf : Millis} {claim : Claim}
    (resolved : resolveAsOf claims asOf = some claim) : FirstExposed asOf claims claim := by
  have first := resolveFrom_first asOf [] claims
  rw [List.getLast?_nil, Option.map_none, ← resolveAsOf, resolved] at first
  exact first

theorem resolveAsOf_eq_none {claims : List Claim} {asOf : Millis} (resolved : resolveAsOf claims asOf = none) :
    ∀ before claim after, claims = before ++ claim :: after → ¬ Exposed asOf before claim := by
  have first := resolveFrom_first asOf [] claims
  rw [List.getLast?_nil, Option.map_none, ← resolveAsOf, resolved] at first
  exact first

/-- The order of the claims leads the resolver to what is in force at an instant: every claim that
it could look at shows what is in force, or comes after one that does, and it looks at some claim
when one is in force. -/
structure Leads {α : Type} (shown : Claim → α) (claims : List Claim) (asOf : Millis) : Prop where
  ahead : ∀ before claim after, claims = before ++ claim :: after → Exposed asOf before claim →
    (∃ current, InForce (Recorded claims) asOf current ∧ shown claim = shown current) ∨
      ∃ front other back, before = front ++ other :: back ∧ Exposed asOf front other ∧
        ∃ current, InForce (Recorded claims) asOf current ∧ shown other = shown current
  exposed : ∀ current, InForce (Recorded claims) asOf current →
    ∃ before claim after, claims = before ++ claim :: after ∧ Exposed asOf before claim

/-- On claims in the order they were committed the resolver shows what `as_of` does exactly when
their order leads it there. -/
theorem resolveAsOf_shows_iff {α : Type} {shown : Claim → α} {claims : List Claim} {asOf : Millis} :
    (resolveAsOf claims asOf).map shown = (resolvedAsOf claims asOf).map shown ↔ Leads shown claims asOf := by
  constructor
  · intro same
    -- the first claim that the resolver looks at shows what is in force
    have leader : ∀ claim, resolveAsOf claims asOf = some claim →
        ∃ current, InForce (Recorded claims) asOf current ∧ shown claim = shown current := by
      intro claim resolved
      rw [resolved, Option.map_some] at same
      obtain ⟨current, inForce, shows⟩ := Option.map_eq_some_iff.mp same.symm
      exact ⟨current, resolvedAsOf_eq_some_iff.mp inForce, shows.symm⟩
    constructor
    · intro before claim after split exposed
      cases resolved : resolveAsOf claims asOf with
      | none => exact absurd exposed (resolveAsOf_eq_none resolved before claim after split)
      | some first =>
        obtain ⟨before', after', split', exposed', hidden⟩ := resolveAsOf_eq_some_first resolved
        obtain ⟨current, inForce, shows⟩ := leader first resolved
        rcases List.append_eq_append_iff.mp (split.symm.trans split') with ⟨middle, rfl, rest⟩ | ⟨middle, rfl, rest⟩
        · cases middle with
          | nil =>
            cases rest
            exact .inl ⟨current, inForce, shows⟩
          | cons other middle =>
            cases rest
            exact absurd exposed (hidden before claim middle rfl)
        · cases middle with
          | nil =>
            cases rest
            exact .inl ⟨current, inForce, shows⟩
          | cons other middle =>
            cases rest
            exact .inr ⟨before', first, middle, rfl, exposed', current, inForce, shows⟩
    · intro current inForce
      rw [resolvedAsOf_eq_some_iff.mpr inForce] at same
      obtain ⟨claim, resolved, -⟩ := Option.map_eq_some_iff.mp same
      obtain ⟨before, after, split, exposed, -⟩ := resolveAsOf_eq_some_first resolved
      exact ⟨before, claim, after, split, exposed⟩
  · intro leads
    cases resolved : resolveAsOf claims asOf with
    | none =>
      cases found : resolvedAsOf claims asOf with
      | none => rfl
      | some current =>
        obtain ⟨before, claim, after, split, exposed⟩ := leads.exposed current (resolvedAsOf_eq_some_iff.mp found)
        exact absurd exposed (resolveAsOf_eq_none resolved before claim after split)
    | some claim =>
      obtain ⟨before, after, split, exposed, hidden⟩ := resolveAsOf_eq_some_first resolved
      rcases leads.ahead before claim after split exposed with ⟨current, inForce, shows⟩ | ⟨front, other, back, inside, earlier, -⟩
      · rw [resolvedAsOf_eq_some_iff.mpr inForce, Option.map_some, Option.map_some, shows]
      · exact absurd earlier (hidden front other back inside)

end Vyrm.Core
