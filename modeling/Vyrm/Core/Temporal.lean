import Vyrm.Core.Claim
import Mathlib.Data.List.Pairwise

/-!
# Bi-temporal resolution

`crates/vyrm-core/src/temporal.rs`. Versions of one subject and predicate come
newest first: by the start of their validity, and among those with one start by
transaction time. The versions with one start correct each other, and only the
last recorded of them may be in force.
-/

namespace Vyrm.Core
open Lib

/-- The loops of `resolve_as_of`: `skipping` is the start of the group that the inner loop is
walking over. -/
def resolveFrom (asOf : Millis) : Option Millis → List Claim → Option Claim
  | _, [] => none
  | skipping, candidate :: rest =>
    if skipping = some candidate.validFrom then resolveFrom asOf skipping rest
    else if candidate.validAt asOf then some candidate
    else resolveFrom asOf (some candidate.validFrom) rest

/-- `resolve_as_of` (`temporal.rs:48-62`). -/
def resolveAsOf (candidates : List Claim) (asOf : Millis) : Option Claim :=
  resolveFrom asOf none candidates

/-! ## What is in force -/

/-- `a` comes before `b` in a newest-first list. -/
def Claim.Newer (a b : Claim) : Prop :=
  b.validFrom < a.validFrom ∨ a.validFrom = b.validFrom ∧ b.txTime < a.txTime

/-- A newest-first list of versions. -/
def NewestFirst (versions : List Claim) : Prop := versions.Pairwise Claim.Newer

/-- The last recorded of the versions with one start. -/
structure LastRecorded (versions : Claim → Prop) (claim : Claim) : Prop where
  version : versions claim
  last : ∀ other, versions other → other.validFrom = claim.validFrom → other.txTime ≤ claim.txTime

/-- The version in force at an instant: over the versions that have started, the last recorded one
of the latest group whose last recorded one is valid at the instant. -/
structure InForce (versions : Claim → Prop) (asOf : Millis) (claim : Claim) : Prop where
  recorded : LastRecorded (fun version => versions version ∧ version.validFrom ≤ asOf) claim
  valid : claim.validAt asOf = true
  latest : ∀ other, LastRecorded (fun version => versions version ∧ version.validFrom ≤ asOf) other →
    other.validAt asOf = true → other.validFrom ≤ claim.validFrom

theorem Claim.started_of_validAt {claim : Claim} {asOf : Millis} (valid : claim.validAt asOf = true) :
    claim.validFrom ≤ asOf := by
  by_contra early
  simp [validAt, UInt64.not_le.mp early] at valid

/-- A claim that passes validation is valid when it starts. -/
theorem Claim.validAt_start {claim : Claim} (valid : claim.validate = .ok ()) :
    claim.validAt claim.validFrom = true := by
  unfold validate at valid
  unfold validAt
  rw [if_neg (UInt64.lt_irrefl _)]
  cases closed : claim.validTo with
  | none => rfl
  | some validTo =>
    rw [closed] at valid
    simp only at valid
    split at valid
    · cases valid
    · rename_i later
      simpa using UInt64.not_le.mp later

/-- Versions that have not started do not matter for what is in force. -/
theorem InForce.congr {versions versions' : Claim → Prop} {asOf : Millis} {claim : Claim}
    (same : ∀ version, version.validFrom ≤ asOf → (versions version ↔ versions' version))
    (inForce : InForce versions asOf claim) : InForce versions' asOf claim := by
  have started : (fun version => versions version ∧ version.validFrom ≤ asOf) =
      fun version => versions' version ∧ version.validFrom ≤ asOf := by
    funext version
    rw [eq_iff_iff]
    constructor
    · intro h
      exact ⟨(same version h.2).mp h.1, h.2⟩
    · intro h
      exact ⟨(same version h.2).mpr h.1, h.2⟩
  obtain ⟨recorded, valid, latest⟩ := inForce
  rw [started] at recorded latest
  exact ⟨recorded, valid, latest⟩

/-! ## Resolution -/

theorem Claim.Newer.validFrom_le {a b : Claim} (newer : a.Newer b) : b.validFrom ≤ a.validFrom := by
  rcases newer with later | ⟨same, -⟩
  · exact UInt64.le_of_lt later
  · rw [same]
    exact UInt64.le_refl _

theorem Claim.Newer.txTime_lt {a b : Claim} (newer : a.Newer b) (same : b.validFrom = a.validFrom) :
    b.txTime < a.txTime := by
  rcases newer with later | ⟨-, after⟩
  · rw [same] at later
    exact absurd later (UInt64.lt_irrefl _)
  · exact after

/-- The last recorded of a group is the last recorded of it in a shorter list that has it. -/
theorem LastRecorded.mono {versions versions' : Claim → Prop} {claim : Claim}
    (recorded : LastRecorded versions claim) (member : versions' claim)
    (fewer : ∀ version, versions' version → versions version) : LastRecorded versions' claim :=
  ⟨member, fun other h => recorded.last other (fewer other h)⟩

/-- The group that is skipped is at the front. -/
def Skips (skipping : Option Millis) (versions : List Claim) : Prop :=
  ∀ start, skipping = some start → ∀ version ∈ versions, version.validFrom ≤ start

theorem Skips.tail {skipping : Option Millis} {head : Claim} {rest : List Claim}
    (skips : Skips skipping (head :: rest)) : Skips skipping rest :=
  fun start same version member => skips start same version (List.mem_cons_of_mem _ member)

theorem skips_head {head : Claim} {rest : List Claim} (newer : ∀ version ∈ rest, head.Newer version) :
    Skips (some head.validFrom) rest := by
  intro start same version member
  cases same
  exact (newer version member).validFrom_le

/-- What resolution returns is the last recorded of a group that is not skipped, and valid. -/
theorem resolveFrom_some {asOf : Millis} {skipping : Option Millis} {versions : List Claim} {claim : Claim}
    (sorted : NewestFirst versions) (skips : Skips skipping versions)
    (resolved : resolveFrom asOf skipping versions = some claim) :
    LastRecorded (· ∈ versions) claim ∧ claim.validAt asOf = true ∧ skipping ≠ some claim.validFrom := by
  induction versions generalizing skipping with
  | nil => cases resolved
  | cons head rest ih =>
    obtain ⟨newer, sorted⟩ := List.pairwise_cons.mp sorted
    rw [resolveFrom] at resolved
    -- a head that is not returned is of another group than what is
    have keep : head.validFrom ≠ claim.validFrom → LastRecorded (· ∈ rest) claim →
        LastRecorded (· ∈ head :: rest) claim := by
      intro different recorded
      refine ⟨List.mem_cons_of_mem _ recorded.version, fun other member same => ?_⟩
      rcases List.mem_cons.mp member with rfl | later
      · exact absurd same different
      · exact recorded.last other later same
    split at resolved
    · rename_i skipped
      obtain ⟨recorded, valid, apart⟩ := ih sorted skips.tail resolved
      refine ⟨keep (fun same => apart ?_) recorded, valid, apart⟩
      rw [skipped, same]
    · rename_i fresh
      split at resolved
      · rename_i valid
        cases resolved
        refine ⟨⟨List.mem_cons_self, fun other member same => ?_⟩, valid, fresh⟩
        rcases List.mem_cons.mp member with rfl | later
        · exact UInt64.le_refl _
        · exact UInt64.le_of_lt ((newer other later).txTime_lt same)
      · obtain ⟨recorded, valid, apart⟩ := ih sorted (skips_head newer) resolved
        have different : head.validFrom ≠ claim.validFrom := fun same => apart (by rw [same])
        refine ⟨keep different recorded, valid, fun skipped => different ?_⟩
        apply UInt64.le_antisymm
        · exact skips _ skipped head List.mem_cons_self
        · exact (newer claim recorded.version).validFrom_le

/-- Resolution returns a claim at least as late as every valid last recorded one. -/
theorem exists_resolveFrom {asOf : Millis} {skipping : Option Millis} {versions : List Claim} {claim : Claim}
    (sorted : NewestFirst versions) (recorded : LastRecorded (· ∈ versions) claim)
    (valid : claim.validAt asOf = true) (fresh : skipping ≠ some claim.validFrom) :
    ∃ resolved, resolveFrom asOf skipping versions = some resolved ∧
      claim.validFrom ≤ resolved.validFrom := by
  induction versions generalizing skipping with
  | nil => cases recorded.version
  | cons head rest ih =>
    obtain ⟨newer, sorted⟩ := List.pairwise_cons.mp sorted
    rw [resolveFrom]
    rcases List.mem_cons.mp recorded.version with rfl | later
    · rw [if_neg fresh, if_pos valid]
      exact ⟨_, rfl, UInt64.le_refl _⟩
    have recorded' := recorded.mono later fun _ => List.mem_cons_of_mem _
    split
    · exact ih sorted recorded' fresh
    · split
      · exact ⟨head, rfl, (newer claim later).validFrom_le⟩
      · apply ih sorted recorded'
        intro same
        rw [Option.some.injEq] at same
        have less := (newer claim later).txTime_lt same.symm
        have last := recorded.last head List.mem_cons_self same
        exact absurd less (UInt64.not_lt.mpr last)

theorem lastRecorded_started_iff {versions : Claim → Prop} {asOf : Millis} {claim : Claim} :
    LastRecorded (fun version => versions version ∧ version.validFrom ≤ asOf) claim ↔
      LastRecorded versions claim ∧ claim.validFrom ≤ asOf := by
  constructor
  · intro recorded
    refine ⟨⟨recorded.version.1, fun other member same => ?_⟩, recorded.version.2⟩
    exact recorded.last other ⟨member, by rw [same]; exact recorded.version.2⟩ same
  · rintro ⟨recorded, started⟩
    exact ⟨⟨recorded.version, started⟩, fun other h same => recorded.last other h.1 same⟩

/-- Versions of a newest-first list are told apart by their times. -/
theorem NewestFirst.eq {versions : List Claim} {a b : Claim} (sorted : NewestFirst versions)
    (memA : a ∈ versions) (memB : b ∈ versions) (starts : a.validFrom = b.validFrom)
    (recorded : a.txTime = b.txTime) : a = b := by
  induction versions with
  | nil => cases memA
  | cons head rest ih =>
    obtain ⟨newer, sorted⟩ := List.pairwise_cons.mp sorted
    rcases List.mem_cons.mp memA with rfl | laterA
    · rcases List.mem_cons.mp memB with rfl | laterB
      · rfl
      · have less := (newer b laterB).txTime_lt starts.symm
        rw [recorded] at less
        exact absurd less (UInt64.lt_irrefl _)
    · rcases List.mem_cons.mp memB with rfl | laterB
      · have less := (newer a laterA).txTime_lt starts
        rw [recorded] at less
        exact absurd less (UInt64.lt_irrefl _)
      · exact ih sorted laterA laterB

/-- On every newest-first list, resolution returns what is in force. -/
theorem resolveAsOf_eq_some_iff {versions : List Claim} (sorted : NewestFirst versions) (asOf : Millis)
    (claim : Claim) : resolveAsOf versions asOf = some claim ↔ InForce (· ∈ versions) asOf claim := by
  have noSkip : Skips none versions := by
    intro start same
    cases same
  constructor
  · intro resolved
    obtain ⟨recorded, valid, -⟩ := resolveFrom_some sorted noSkip resolved
    refine ⟨lastRecorded_started_iff.mpr ⟨recorded, Claim.started_of_validAt valid⟩, valid, ?_⟩
    intro other otherRecorded otherValid
    have fresh : none ≠ some other.validFrom := nofun
    obtain ⟨found, same, later⟩ :=
      exists_resolveFrom sorted (lastRecorded_started_iff.mp otherRecorded).1 otherValid fresh
    rw [resolveAsOf, same, Option.some.injEq] at resolved
    rwa [resolved] at later
  · intro inForce
    have recorded := (lastRecorded_started_iff.mp inForce.recorded).1
    have fresh : none ≠ some claim.validFrom := nofun
    obtain ⟨found, same, later⟩ := exists_resolveFrom sorted recorded inForce.valid fresh
    obtain ⟨foundRecorded, foundValid, -⟩ := resolveFrom_some sorted noSkip same
    have earlier := inForce.latest found
      (lastRecorded_started_iff.mpr ⟨foundRecorded, Claim.started_of_validAt foundValid⟩) foundValid
    have starts : found.validFrom = claim.validFrom := UInt64.le_antisymm earlier later
    rw [resolveAsOf, same, Option.some.injEq]
    apply sorted.eq foundRecorded.version recorded.version starts
    apply UInt64.le_antisymm
    · exact recorded.last found foundRecorded.version starts
    · exact foundRecorded.last claim recorded.version starts.symm

end Vyrm.Core
