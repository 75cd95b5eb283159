import Vyrm.Lib.HashChain
import Vyrm.Core.Runtime.Preview

/-!
# The runtime log

The changes of accepted commits, one commit after another: their cursors are 1, 2, 3 and so
on, each names the digest of the one before it, and each has the digest of its content.
-/

namespace Vyrm.Core
open Lib

/-- What every log of accepted commits is. -/
structure Chained (changes : List RuntimeChange) : Prop where
  numbered : changes.map (·.cursor.toNat) = List.range' 1 changes.length
  linked : Linked (·.previousDigest) (·.digest) none changes
  verified : ∀ change ∈ changes, change.verifyDigest

theorem chained_nil : Chained [] := ⟨rfl, trivial, by simp⟩

theorem RuntimeChange.verifyDigest_committed (cursor : UInt64) (commit : RuntimeCommit) (commitId : String)
    (ordinal : UInt64) (mutation : RuntimeMutation) (previousDigest : Option String) :
    (committed cursor commit commitId ordinal mutation previousDigest).verifyDigest := by
  simp only [verifyDigest, committed, canonicalBytes, decide_true]

section

variable {commit : RuntimeCommit} {commitId : String} {start : UInt64} {mutations : List RuntimeMutation}
  {ordinal : Nat} {previousDigest : Option String}

theorem verified_commitChanges :
    ∀ change ∈ commitChanges commit commitId start mutations ordinal previousDigest, change.verifyDigest := by
  induction mutations generalizing ordinal previousDigest with
  | nil => simp [commitChanges]
  | cons mutation mutations ih =>
    rw [commitChanges, List.forall_mem_cons]
    exact ⟨RuntimeChange.verifyDigest_committed _ _ _ _ _ _, ih⟩

theorem linked_commitChanges : Linked (·.previousDigest) (·.digest) previousDigest
    (commitChanges commit commitId start mutations ordinal previousDigest) := by
  induction mutations generalizing ordinal previousDigest with
  | nil => trivial
  | cons mutation mutations ih => exact ⟨rfl, ih⟩

theorem length_commitChanges :
    (commitChanges commit commitId start mutations ordinal previousDigest).length = mutations.length := by
  induction mutations generalizing ordinal previousDigest with
  | nil => rfl
  | cons mutation mutations ih => simp [commitChanges, ih]

end

namespace Chained

variable {changes : List RuntimeChange}

/-- A log goes on with the changes of a commit. -/
theorem append_commit (chained : Chained changes) (commit : RuntimeCommit) (commitId : String)
    (fits : changes.length + commit.mutations.length < 2 ^ 64) :
    Chained (changes ++ commit.changesAfter commitId (UInt64.ofNat changes.length)
      (changes.getLast?.map (·.digest))) where
  numbered := by
    have start : (UInt64.ofNat changes.length).toNat = changes.length := by
      rw [UInt64.toNat_ofNat']
      omega
    have cursors : (commit.changesAfter commitId (UInt64.ofNat changes.length)
        (changes.getLast?.map (·.digest))).map (·.cursor.toNat) =
        List.range' ((UInt64.ofNat changes.length).toNat + 0 + 1) commit.mutations.length :=
      cursor_commitChanges (by omega)
    have length : (commit.changesAfter commitId (UInt64.ofNat changes.length)
        (changes.getLast?.map (·.digest))).length = commit.mutations.length := length_commitChanges
    rw [List.map_append, cursors, chained.numbered, List.length_append, length, start, Nat.add_zero,
      Nat.add_comm changes.length 1, List.range'_append_1]
  linked := by
    rw [linked_append]
    refine ⟨chained.linked, ?_⟩
    have isTip : tip (·.digest) none changes = changes.getLast?.map (·.digest) := by
      simp [tip]
    rw [isTip]
    exact linked_commitChanges
  verified := by
    intro change member
    rcases List.mem_append.mp member with old | new
    · exact chained.verified change old
    · exact verified_commitChanges change new

/-- The change at a position has the cursor after it. -/
theorem cursor_getElem (chained : Chained changes) {n : Nat} {change : RuntimeChange}
    (found : changes[n]? = some change) : change.cursor.toNat = n + 1 := by
  have cursors := congrArg (·[n]?) chained.numbered
  have short := (List.getElem?_eq_some_iff.mp found).1
  simp only [List.getElem?_map, found, Option.map_some, List.getElem?_range' short, Option.some.injEq] at cursors
  omega

/-- The change at a position names the digest of the one before it. -/
theorem previousDigest_getElem (chained : Chained changes) {n : Nat} {change : RuntimeChange}
    (found : changes[n]? = some change) :
    change.previousDigest = (changes.take n).getLast?.map (·.digest) := by
  obtain ⟨short, isChange⟩ := List.getElem?_eq_some_iff.mp found
  have whole : changes = changes.take n ++ change :: changes.drop (n + 1) := by
    rw [← isChange, ← List.drop_eq_getElem_cons short, List.take_append_drop]
  have linked := chained.linked
  rw [whole, linked_append] at linked
  simpa [tip] using linked.2.1

end Chained

end Vyrm.Core
