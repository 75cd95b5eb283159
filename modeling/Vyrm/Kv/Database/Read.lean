import Vyrm.Kv.Database

/-!
# Reading the database

The three read paths of `crates/vyrm-kv/src/database.rs`. `get`, `get_many` and
`scan` are separate loops over the memtable and the segments in the source and
stay separate here; `Database.ReadSpec` proves that they agree.
-/

namespace Vyrm.Kv
open Lib

variable [Platform]

namespace Database

/-- The segment loop of `get` (`database.rs:774-781`). -/
def bestOver (key : Bytes) (readSequence : Nat) :
    List Segment → Nat → Option Bytes → Except Error (Option Bytes)
  | [], _, bestValue => pure bestValue
  | segment :: rest, bestSequence, bestValue => do
    match ← segment.getVersion key readSequence with
    | some version =>
      if version.sequence > bestSequence then
        bestOver key readSequence rest version.sequence version.value
      else bestOver key readSequence rest bestSequence bestValue
    | none => bestOver key readSequence rest bestSequence bestValue

/-- `Database::get` (`database.rs:764-783`). -/
def get (db : Database) (key : Bytes) (snapshot : Snapshot) : Except Error (Option Bytes) :=
  match db.memtable.getVersion key snapshot.sequence with
  | some version => pure version.value
  | none => bestOver key snapshot.sequence db.segments 0 none

/-- The assignments of the single-segment path of `get_many` (`database.rs:803-809`). -/
def assignEach : List Nat → List (Option SegmentVersion) → List (Option Bytes) →
    List (Option Bytes)
  | index :: unresolved, version :: versions, values =>
    assignEach unresolved versions (values.set index (version.bind (·.value)))
  | _, _, values => values

/-- One segment's assignments in the merging path of `get_many` (`database.rs:814-826`). -/
def assignBest : List Nat → List (Option SegmentVersion) → List Nat → List (Option Bytes) →
    List Nat × List (Option Bytes)
  | index :: unresolved, version :: versions, best :: bestSequences, values =>
    let (best, values) := match version with
      | some version =>
        if version.sequence > best then (version.sequence, values.set index version.value)
        else (best, values)
      | none => (best, values)
    let (bestSequences, values) := assignBest unresolved versions bestSequences values
    (best :: bestSequences, values)
  | _, _, bestSequences, values => (bestSequences, values)

/-- The segment loop of the merging path of `get_many` (`database.rs:812-827`). -/
def bestOverMany (keys : List Bytes) (unresolved : List Nat) (readSequence : Nat) :
    List Segment → List Nat → List (Option Bytes) → Except Error (List (Option Bytes))
  | [], _, values => pure values
  | segment :: rest, bestSequences, values => do
    let versions ← segment.getVersions keys readSequence
    let (bestSequences, values) := assignBest unresolved versions bestSequences values
    bestOverMany keys unresolved readSequence rest bestSequences values

/-- `Database::get_many` (`database.rs:785-828`). -/
def getMany (db : Database) (keys : List Bytes) (snapshot : Snapshot) :
    Except Error (List (Option Bytes)) :=
  let found := keys.map fun key => db.memtable.getVersion key snapshot.sequence
  let values := found.map fun version => version.bind (·.value)
  let unresolved := found.findIdxs fun version => version.isNone
  if unresolved = [] then pure values
  else
    let unresolvedKeys := unresolved.map fun index => keys.getD index []
    match db.segments with
    | [segment] =>
      if db.memtable.versionCount = 0 then do
        let versions ← segment.getVersions unresolvedKeys snapshot.sequence
        return assignEach unresolved versions values
      else
        bestOverMany unresolvedKeys unresolved snapshot.sequence db.segments
          (List.replicate unresolved.length 0) values
    | segments =>
      bestOverMany unresolvedKeys unresolved snapshot.sequence segments
        (List.replicate unresolved.length 0) values

/-- `if visible.get(&key).is_none_or(|current| version.sequence > current.sequence)
{ visible.insert(key, version) }`. -/
def insertNewer (visible : Std.TreeMap Bytes VersionedValue) (pair : Bytes × VersionedValue) :
    Std.TreeMap Bytes VersionedValue :=
  if visible[pair.1]?.all (fun current => pair.2.sequence > current.sequence) then
    visible.insert pair.1 pair.2
  else visible

/-- The segment loop of `scan` (`database.rs:840-849`). -/
def scanSegments (start : Bytes) (stop : Option Bytes) (readSequence : Nat) :
    List Segment → Std.TreeMap Bytes VersionedValue → Except Error (Std.TreeMap Bytes VersionedValue)
  | [], visible => pure visible
  | segment :: rest, visible => do
    let pairs ← segment.visibleFrom start stop readSequence
    scanSegments start stop readSequence rest (pairs.foldl insertNewer visible)

/-- The merging path of `Database::scan` (`database.rs:839-865`). -/
def scanMerged (db : Database) (start : Bytes) (stop : Option Bytes) (snapshot : Snapshot) :
    Except Error (List (Bytes × Bytes)) := do
  let visible ← scanSegments start stop snapshot.sequence db.segments ∅
  let overlay := (db.memtable.visibleVersions snapshot.sequence).filter fun pair =>
    ¬ Segment.outside start stop pair.1
  return (overlay.foldl insertNewer visible).toList.filterMap fun (key, version) =>
    version.value.map fun value => (key, value)

/-- `Database::scan` (`database.rs:830-865`). -/
def scan (db : Database) (start : Bytes) (stop : Option Bytes) (snapshot : Snapshot) :
    Except Error (List (Bytes × Bytes)) :=
  match db.segments with
  | [segment] =>
    if db.memtable.versionCount = 0 then segment.scan start stop snapshot.sequence
    else db.scanMerged start stop snapshot
  | _ => db.scanMerged start stop snapshot

end Database
end Vyrm.Kv
