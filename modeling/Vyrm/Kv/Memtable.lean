import Vyrm.Kv.Wal

/-!
# The memtable

`crates/vyrm-kv/src/memtable.rs`: every version of every key written since the
last flush, in key order. The byte-size estimate of the source feeds no decision
of the storage code and is left out.
-/

namespace Vyrm.Kv
open Lib

/-- `VersionedValue` (`memtable.rs:6-9`). -/
structure VersionedValue where
  sequence : Nat
  value : Option Bytes
  deriving DecidableEq, Repr

/-- `BTreeMap<Vec<u8>, Vec<VersionedValue>>`. -/
abbrev VersionMap := Std.TreeMap Bytes (List VersionedValue)

/-- `Memtable` (`memtable.rs:14-18`). -/
structure Memtable where
  versions : VersionMap
  maximumSequence : Nat

namespace Memtable

/-- `Memtable::at_sequence` (`memtable.rs:33-38`). -/
def atSequence (sequence : Nat) : Memtable := ⟨∅, sequence⟩

/-- `self.versions.entry(key).or_default().push(version)`. -/
def pushVersion (versions : VersionMap) (key : Bytes) (version : VersionedValue) : VersionMap :=
  versions.alter key fun stored => some (stored.getD [] ++ [version])

/-- The loop of `apply_write_batch` (`memtable.rs:106-121`), numbering operations from
`sequence`. -/
def pushOperations (versions : VersionMap) : Nat → List Mutation → VersionMap
  | _, [] => versions
  | sequence, operation :: rest =>
    pushOperations (pushVersion versions operation.key ⟨sequence, operation.value⟩)
      (sequence + 1) rest

/-- `Memtable::apply_write_batch` (`memtable.rs:84-124`): every check comes before the first
change. The source's `operation_count - 1` does not underflow, a decoded or encoded batch being
non-empty. -/
def applyWriteBatch (table : Memtable) (batch : WriteBatch) (firstSequence lastSequence : Nat) :
    Except Error Memtable := do
  let expectedLast ← checkedAdd firstSequence (batch.operations.length - 1)
    (.invalidBatch "batch sequence range overflow")
  rejectIf (firstSequence ≠ saturatingAdd table.maximumSequence 1 ∨ lastSequence ≠ expectedLast)
    (.invalidBatch s!"batch sequence range {firstSequence}..={lastSequence} does not match {batch.operations.length} operation(s) after sequence {table.maximumSequence}")
  return ⟨pushOperations table.versions firstSequence batch.operations, lastSequence⟩

/-- `Memtable::apply_owned_write_batch` (`memtable.rs:126-163`), which moves the operations
instead of cloning them. -/
def applyOwnedWriteBatch (table : Memtable) (batch : WriteBatch)
    (firstSequence lastSequence : Nat) : Except Error Memtable :=
  table.applyWriteBatch batch firstSequence lastSequence

/-- `Memtable::apply` (`memtable.rs:75-82`). -/
def apply (table : Memtable) (recovered : RecoveredBatch) : Except Error Memtable := do
  let batch ← WriteBatch.decode recovered.payload
  table.applyWriteBatch batch recovered.firstSequence recovered.lastSequence

/-- `for batch in batches { table.apply(batch)? }`. -/
def applyAll (table : Memtable) : List RecoveredBatch → Except Error Memtable
  | [] => pure table
  | batch :: rest => do
    let table ← table.apply batch
    table.applyAll rest

/-- `Memtable::recover_from` (`memtable.rs:25-31`). -/
def recoverFrom (batches : List RecoveredBatch) (previousSequence : Nat) : Except Error Memtable :=
  (atSequence previousSequence).applyAll batches

/-- The inner loop of `from_versions` (`memtable.rs:51-66`). -/
def checkVersions (maximumSequence : Nat) : Nat → List VersionedValue → Except Error Unit
  | _, [] => pure ()
  | previous, value :: rest => do
    rejectIf (value.sequence = 0 ∨ value.sequence ≤ previous ∨ value.sequence > maximumSequence)
      (.invalidSegment "compacted versions are not strictly ordered")
    checkVersions maximumSequence value.sequence rest

/-- The outer loop of `from_versions` (`memtable.rs:45-67`). -/
def checkGroups (maximumSequence : Nat) : List (Bytes × List VersionedValue) → Except Error Unit
  | [] => pure ()
  | (key, values) :: rest => do
    rejectIf (key = [] ∨ values = [])
      (.invalidSegment "compacted memtable contains an empty key/version set")
    checkVersions maximumSequence 0 values
    checkGroups maximumSequence rest

/-- `Memtable::from_versions` (`memtable.rs:40-73`). -/
def fromVersions (versions : VersionMap) (maximumSequence : Nat) : Except Error Memtable := do
  checkGroups maximumSequence versions.toList
  return ⟨versions, maximumSequence⟩

/-- `versions.iter().rev().find(|version| version.sequence <= read_sequence)`. -/
def findVisible (versions : List VersionedValue) (readSequence : Nat) : Option VersionedValue :=
  versions.reverse.find? fun version => version.sequence ≤ readSequence

/-- `Memtable::get_version` (`memtable.rs:169-175`). -/
def getVersion (table : Memtable) (key : Bytes) (readSequence : Nat) : Option VersionedValue :=
  table.versions[key]?.bind (findVisible · readSequence)

/-- `Memtable::version_count` (`memtable.rs:207-209`). -/
def versionCount (table : Memtable) : Nat := (table.versions.values.map List.length).sum

/-- `Memtable::all_versions` (`memtable.rs:215-219`). -/
def allVersions (table : Memtable) : List (Bytes × List VersionedValue) := table.versions.toList

/-- `Memtable::visible_versions` (`memtable.rs:221-233`). -/
def visibleVersions (table : Memtable) (readSequence : Nat) : List (Bytes × VersionedValue) :=
  table.versions.toList.filterMap fun (key, versions) =>
    (findVisible versions readSequence).map fun version => (key, version)

end Memtable
end Vyrm.Kv
