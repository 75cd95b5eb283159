import Vyrm.Kv.Segment.ReadPaths
import Vyrm.Kv.Memtable
import Vyrm.Kv.Reference

/-!
# Segment reads against the full traversal

Every read path of a segment, in every format an opener accepts, answers what a filter
over `all_versions` would: per key the greatest sequence that the snapshot sees.
-/

namespace Vyrm.Kv
open Lib Mvcc

/-- What `all_versions` returned. -/
abbrev VersionGroups := List (Bytes × List VersionedValue)

namespace VersionGroups

/-- The versions listed for a key. -/
def versionsAt (groups : VersionGroups) (key : Bytes) : List VersionedValue :=
  (List.lookup key groups).getD []

/-- The version with the greatest sequence that `snapshot` sees of `key`. -/
def readVersion (groups : VersionGroups) (key : Bytes) (snapshot : Nat) : Option VersionedValue :=
  select snapshot (groups.versionsAt key)

/-- The versions that `snapshot` sees of the keys of a range, in key order. -/
def readRange (groups : VersionGroups) (start : Bytes) (stop : Option Bytes) (snapshot : Nat) :
    List (Bytes × VersionedValue) :=
  (groups.filter fun group => ¬ Segment.outside start stop group.1).filterMap fun (key, versions) =>
    (select snapshot versions).map fun version => (key, version)

/-- The live pairs that `snapshot` sees of the keys of a range, in key order. -/
def readLive (groups : VersionGroups) (start : Bytes) (stop : Option Bytes) (snapshot : Nat) :
    List (Bytes × Bytes) :=
  (groups.readRange start stop snapshot).filterMap fun (key, version) =>
    version.value.map fun value => (key, value)

end VersionGroups

namespace Segment

variable {entries : List Entry} {groups : VersionGroups}

theorem versionsOf_ungroup (groups : VersionGroups) (key : Bytes) :
    versionsOf key (ungroup groups) = (groups.filter fun group => group.1 = key).flatMap Prod.snd := by
  induction groups with
  | nil => rfl
  | cons group rest ih =>
    obtain ⟨first, versions⟩ := group
    have split : ungroup ((first, versions) :: rest) =
        versions.map (fun version => (first, version)) ++ ungroup rest := rfl
    rw [split, versionsOf_append, ih]
    by_cases same : first = key
    · simp [versionsOf, same, List.filter_map, Function.comp_def]
    · simp [versionsOf, same, List.filter_map, Function.comp_def]

/-- Groups in strict key order list every key once. -/
theorem filter_key_of_sorted (sorted : groups.Pairwise fun a b => a.1 < b.1) (key : Bytes) :
    (groups.filter fun group => group.1 = key).flatMap Prod.snd = groups.versionsAt key := by
  induction groups with
  | nil => rfl
  | cons group rest ih =>
    obtain ⟨below, ordered⟩ := List.pairwise_cons.mp sorted
    obtain ⟨first, versions⟩ := group
    have later := ih ordered
    unfold VersionGroups.versionsAt at later ⊢
    by_cases same : first = key
    · have absent : (rest.filter fun group => group.1 = key) = [] := by
        rw [List.filter_eq_nil_iff]
        intro other member found
        exact absurd (below other member) (by simp [same, of_decide_eq_true found])
      simp [same, absent]
    · have other : (key == first) = false := beq_false_of_ne fun h => same h.symm
      simp [List.lookup_cons, same, other, later]

theorem GroupInv.newest (inv : GroupInv entries groups) (key : Bytes) (s : Nat) :
    newest entries key s = groups.readVersion key s := by
  rw [Mvcc.newest, ← inv.content, versionsOf_ungroup, filter_key_of_sorted inv.sorted]
  rfl

theorem isGraph_groups (sorted : groups.Pairwise fun a b => a.1 < b.1) :
    IsGraph groups (fun key => List.lookup key groups) := by
  refine ⟨sorted, fun key versions => ?_⟩
  induction groups generalizing versions with
  | nil => simp
  | cons group rest ih =>
    obtain ⟨below, ordered⟩ := List.pairwise_cons.mp sorted
    obtain ⟨first, listed⟩ := group
    rw [List.mem_cons, ih ordered, List.lookup_cons]
    by_cases same : key = first
    · subst same
      have absent : ∀ versions, List.lookup key rest ≠ some versions := by
        intro versions found
        have member := (ih ordered _).mpr found
        exact absurd (below _ member) (lt_irrefl _)
      simp [absent, eq_comm]
    · simp [same, beq_false_of_ne same]

theorem GroupInv.isGraph_readRange (inv : GroupInv entries groups) (start : Bytes)
    (stop : Option Bytes) (s : Nat) :
    IsGraph (groups.readRange start stop s) (visibleIn entries start stop s) := by
  have inside := (isGraph_groups inv.sorted).filter fun key => ¬ outside start stop key
  have answers := inside.filterMap (select s)
  have same : (fun key => (if (¬ outside start stop key : Bool) then List.lookup key groups else none).bind
      (select s)) = visibleIn entries start stop s := by
    funext key
    rw [visibleIn, inv.newest, VersionGroups.readVersion, VersionGroups.versionsAt]
    by_cases out : outside start stop key
    · simp [out]
    · cases List.lookup key groups with
      | none => simp [out, select]
      | some versions => simp [out]
  rw [← same]
  exact answers

end Segment

/-- Every read of a segment that opened returns, without an error, the filter of its versions. -/
theorem segment_reads_equal_reference [Platform] (bytes : Bytes) (segment : Segment)
    (opened : Segment.openBytes bytes = .ok segment) :
    ∃ groups : VersionGroups, segment.allVersions = .ok groups ∧
      (∀ key s, segment.getVersion key s = .ok (groups.readVersion key s)) ∧
      (∀ keys s, segment.getVersions keys s = .ok (keys.map (groups.readVersion · s))) ∧
      (∀ start stop s, segment.visibleFrom start stop s = .ok (groups.readRange start stop s)) ∧
      ∀ start stop s, segment.scan start stop s = .ok (groups.readLive start stop s) := by
  obtain ⟨entries, holds⟩ := Segment.openBytes_holds opened
  obtain ⟨groups, all, inv⟩ := holds.allVersions
  have point : ∀ s, (newest entries · s) = (VersionGroups.readVersion groups · s) := fun s =>
    funext fun key => inv.newest key s
  refine ⟨groups, all, ?_, ?_, ?_, ?_⟩
  · intro key s
    rw [holds.getVersion, inv.newest]
  · intro keys s
    rw [holds.getVersions, point]
  · intro start stop s
    obtain ⟨pairs, visible, graph⟩ := holds.visibleFrom start stop s
    rw [visible, graph.unique (inv.isGraph_readRange start stop s)]
  · intro start stop s
    obtain ⟨pairs, scanned, graph⟩ := holds.scan start stop s
    have live := (inv.isGraph_readRange start stop s).filterMap (·.value)
    rw [scanned, graph.unique live]
    rfl

/-- A memtable with two versions of one key and a tombstone of another. -/
def sampleTable : Memtable :=
  ⟨((∅ : VersionMap).insert [1] [⟨1, some [7]⟩, ⟨3, some [8]⟩]).insert [2] [⟨2, none⟩], 3⟩

open Reference

theorem segment_reads_equal_reference_sample :
    ∃ bytes segment, encodeV3 sampleTable = .ok bytes ∧ Segment.openBytes bytes = .ok segment ∧
      ∃ groups : VersionGroups, segment.allVersions = .ok groups ∧
        segment.getVersion [1] 2 = .ok (groups.readVersion [1] 2) ∧
        segment.scan [] none 3 = .ok (groups.readLive [] none 3) := by
  have opens : ((encodeV3 sampleTable).bind Segment.openBytes).isOk = true := by decide +kernel
  cases encoded : encodeV3 sampleTable with
  | error e =>
    rw [encoded] at opens
    cases opens
  | ok bytes =>
    rw [encoded] at opens
    cases opened : Segment.openBytes bytes with
    | error e =>
      rw [Except.bind, opened] at opens
      cases opens
    | ok segment =>
      obtain ⟨groups, all, version, -, -, live⟩ := segment_reads_equal_reference bytes segment opened
      exact ⟨bytes, segment, rfl, opened, groups, all, version [1] 2, live [] none 3⟩

end Vyrm.Kv
