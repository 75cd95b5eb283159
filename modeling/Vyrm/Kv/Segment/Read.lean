import Vyrm.Kv.Segment.Format

/-!
# Reading segments

The read paths of `crates/vyrm-kv/src/segment.rs`: point reads, batched point
reads, range scans and the full traversal, each on a blocked (version 3) and on
a legacy segment. They are separate loops in the source and stay separate here;
`Segment.Spec` proves that they agree.
-/

namespace Vyrm.Kv
open Lib

variable [Platform]

/-- `SegmentVersion` (`segment.rs:200-203`), which has the fields of a `VersionedValue`. -/
abbrev SegmentVersion := VersionedValue

/-- `DecodedBlock` (`segment.rs:109-113`). -/
structure DecodedBlock where
  bytes : Bytes
  recordOffsets : List Nat
  deriving DecidableEq, Repr

/-- `slice::partition_point`: the length of the leading run on which the predicate holds. -/
def partitionPoint {α : Type} (p : α → Bool) (items : List α) : Nat := (items.takeWhile p).length

/-- `self.is_none_or(|prior| version.sequence > prior.sequence)`, keeping the newer version. -/
def keepNewer (selected : Option SegmentVersion) (version : Option SegmentVersion) :
    Option SegmentVersion :=
  match version with
  | none => selected
  | some v => if selected.all (fun prior => v.sequence > prior.sequence) then some v else selected

namespace DecodedBlock

/-- The loop of `DecodedBlock::parse` (`segment.rs:117-132`). -/
def parseOffsets (bytes : Bytes) : Nat → Nat → Except Error (List Nat)
  | 0, _ => pure []
  | fuel + 1, cursor =>
    if cursor < bytes.length then do
      let offset ← u32TryFrom cursor (.invalidSegment "decoded block offset exceeds u32")
      let record ← parseRecord bytes cursor 1 u64Max
      let rest ← parseOffsets bytes fuel record.next
      return offset :: rest
    else pure []

/-- `DecodedBlock::parse` (`segment.rs:117-132`). -/
def parse (bytes : Bytes) : Except Error DecodedBlock := do
  let recordOffsets ← parseOffsets bytes bytes.length 0
  return ⟨bytes, recordOffsets⟩

/-- The binary search of `DecodedBlock::lower_bound` (`segment.rs:142-161`). -/
def lowerBoundLoop (block : DecodedBlock) (key : Bytes) : Nat → Nat → Nat → Except Error Nat
  | 0, left, _ => pure left
  | fuel + 1, left, right =>
    if left < right then do
      let middle := left + (right - left) / 2
      let record ← parseRecord block.bytes (block.recordOffsets.getD middle 0) 1 u64Max
      if record.key < key then lowerBoundLoop block key fuel (middle + 1) right
      else lowerBoundLoop block key fuel left middle
    else pure left

/-- `DecodedBlock::lower_bound` (`segment.rs:142-161`). -/
def lowerBound (block : DecodedBlock) (key : Bytes) : Except Error Nat :=
  lowerBoundLoop block key block.recordOffsets.length 0 block.recordOffsets.length

/-- The loop of `select_version_block` (`segment.rs:1431-1459`) over the remaining offsets. -/
def selectFrom (block : DecodedBlock) (key : Bytes) (readSequence : Nat) :
    List Nat → Option SegmentVersion → Except Error (Option SegmentVersion)
  | [], selected => pure selected
  | offset :: rest, selected => do
    let record ← parseRecord block.bytes offset 1 u64Max
    if record.key = key then
      if record.sequence ≤ readSequence then
        selectFrom block key readSequence rest (some ⟨record.sequence, record.value⟩)
      else selectFrom block key readSequence rest selected
    else return selected

/-- `select_version_block` (`segment.rs:1431-1459`). -/
def selectVersion (block : DecodedBlock) (key : Bytes) (readSequence : Nat) :
    Except Error (Option SegmentVersion) := do
  let first ← block.lowerBound key
  block.selectFrom key readSequence (block.recordOffsets.drop first) none

/-- `visit_decoded_records` (`segment.rs:1471-1486`), the visitor's state passed along. -/
def visit {σ : Type} (block : DecodedBlock) (collect : σ → Record → σ) :
    List Nat → σ → Except Error σ
  | [], state => pure state
  | offset :: rest, state => do
    let record ← parseRecord block.bytes offset 1 u64Max
    block.visit collect rest (collect state record)

end DecodedBlock

/-- `visit_records` (`segment.rs:1461-1469`). -/
def visitRecords {σ : Type} (bytes : Bytes) (collect : σ → Record → σ) :
    Nat → Nat → σ → Except Error σ
  | 0, _, state => pure state
  | fuel + 1, cursor, state =>
    if cursor < bytes.length then do
      let record ← parseRecord bytes cursor 1 u64Max
      visitRecords bytes collect fuel record.next (collect state record)
    else pure state

/-- `legacy_seek` (`segment.rs:1400-1405`). -/
def legacySeek (records : Bytes) (sparse : List SparseEntry) (key : Bytes) : Nat :=
  let position := partitionPoint (fun entry : SparseEntry => entry.key ≤ key) sparse
  match sparse[position - 1]? with
  | some entry => min entry.offset records.length
  | none => 0

/-- The loop of `select_version` (`segment.rs:1407-1429`). -/
def selectVersionLoop (bytes : Bytes) (key : Bytes) (readSequence : Nat) :
    Nat → Nat → Option SegmentVersion → Except Error (Option SegmentVersion)
  | 0, _, selected => pure selected
  | fuel + 1, cursor, selected =>
    if cursor < bytes.length then do
      let record ← parseRecord bytes cursor 1 u64Max
      if record.key < key then selectVersionLoop bytes key readSequence fuel record.next selected
      else if record.key = key then
        if record.sequence ≤ readSequence then
          selectVersionLoop bytes key readSequence fuel record.next
            (some ⟨record.sequence, record.value⟩)
        else selectVersionLoop bytes key readSequence fuel record.next selected
      else return selected
    else pure selected

/-- `read_and_decode_block` (`segment.rs:1188-1212`) and the parse of its result: what
`load_block` (`segment.rs:649-719`) returns on a cache miss. -/
def loadBlock (source : Bytes) (block : BlockDescriptor) : Except Error DecodedBlock := do
  let compressed ← okOr (slice? source block.offset (block.offset + block.physicalBytes))
    (.invalidSegment "v3 block range is absent")
  let decoded ← decodeCompressedBlock compressed block
  DecodedBlock.parse decoded

/-- The block loop of `get_version` (`segment.rs:400-421`). -/
def selectBlocks (source : Bytes) (key : Bytes) (readSequence : Nat) :
    List BlockDescriptor → Option SegmentVersion → Except Error (Option SegmentVersion)
  | [], selected => pure selected
  | block :: rest, selected => do
    let decoded ← loadBlock source block
    let version ← decoded.selectVersion key readSequence
    let selected := keepNewer selected version
    if block.lastKey > key then return selected
    else selectBlocks source key readSequence rest selected

/-- The block loop of `get_versions` (`segment.rs:449-472`): the same selection, over numbered
blocks, reusing the block that the previous key loaded last. -/
def selectBlocksLoaded (source : Bytes) (key : Bytes) (readSequence : Nat) :
    List (BlockDescriptor × Nat) → Option (Nat × DecodedBlock) → Option SegmentVersion →
      Except Error (Option SegmentVersion × Option (Nat × DecodedBlock))
  | [], loaded, selected => pure (selected, loaded)
  | (block, index) :: rest, loaded, selected => do
    let (decoded, loaded) ← match loaded with
      | some (loadedIndex, decoded) =>
        if loadedIndex = index then pure (decoded, loaded)
        else do
          let decoded ← loadBlock source block
          pure (decoded, some (index, decoded))
      | none => do
        let decoded ← loadBlock source block
        pure (decoded, some (index, decoded))
    let version ← decoded.selectVersion key readSequence
    let selected := keepNewer selected version
    if block.lastKey > key then return (selected, loaded)
    else selectBlocksLoaded source key readSequence rest loaded selected

/-- The traversal shared by `scan` and `visible_from` (`segment.rs:608-619`, `608-620`): blocks
from the first whose last key reaches `start`, records from `start` on, up to the block whose
last key reaches `end`. -/
def visitBlocks {σ : Type} (source start : Bytes) (stop : Option Bytes)
    (collect : σ → Record → σ) : List BlockDescriptor → Bool → σ → Except Error σ
  | [], _, state => pure state
  | block :: rest, isFirst, state => do
    let decoded ← loadBlock source block
    let firstRecord ← if isFirst then decoded.lowerBound start else pure 0
    let state ← decoded.visit collect (decoded.recordOffsets.drop firstRecord) state
    if ∃ bound ∈ stop, block.lastKey ≥ bound then return state
    else visitBlocks source start stop collect rest false state

namespace Segment

/-- Whether the descriptor rules a key or read sequence out (`segment.rs:385-390`). -/
def excludes (segment : Segment) (key : Bytes) (readSequence : Nat) : Prop :=
  key < segment.descriptor.firstKey ∨ key > segment.descriptor.lastKey ∨
    readSequence < segment.descriptor.minimumSequence

instance (segment : Segment) (key : Bytes) (readSequence : Nat) :
    Decidable (segment.excludes key readSequence) :=
  inferInstanceAs (Decidable (_ ∨ _))

/-- `Segment::get_version` (`segment.rs:380-421`). -/
def getVersion (segment : Segment) (key : Bytes) (readSequence : Nat) :
    Except Error (Option SegmentVersion) :=
  if segment.excludes key readSequence then pure none
  else
    match segment.storage with
    | .legacy records sparseIndex =>
      selectVersionLoop records key readSequence records.length
        (legacySeek records sparseIndex key) none
    | .blocked source blocks =>
      let first := partitionPoint (fun block : BlockDescriptor => block.lastKey < key) blocks
      selectBlocks source key readSequence (blocks.drop first) none

/-- `order.sort_by(...)` (`segment.rs:429-430`): positions by key, equal keys by position. -/
def keyOrder (keys : List Bytes) : List Nat :=
  (List.range keys.length).mergeSort fun left right =>
    (compare (keys.getD left []) (keys.getD right [])).then (compare left right) != .gt

/-- The key loop of `get_versions` on a blocked segment (`segment.rs:438-474`). -/
def getVersionsBlocked (segment : Segment) (source : Bytes) (blocks : List BlockDescriptor)
    (keys : List Bytes) (readSequence : Nat) :
    List Nat → Option (Nat × DecodedBlock) → List (Option SegmentVersion) →
      Except Error (List (Option SegmentVersion))
  | [], _, output => pure output
  | index :: rest, loaded, output => do
    let key := keys.getD index []
    if segment.excludes key readSequence then
      getVersionsBlocked segment source blocks keys readSequence rest loaded output
    else do
      let first := partitionPoint (fun block : BlockDescriptor => block.lastKey < key) blocks
      let (selected, loaded) ←
        selectBlocksLoaded source key readSequence (blocks.zipIdx.drop first) loaded none
      getVersionsBlocked segment source blocks keys readSequence rest loaded
        (output.set index selected)

/-- The key loop of `get_versions` on a legacy segment (`segment.rs:432-436`). -/
def getVersionsLegacy (segment : Segment) (keys : List Bytes) (readSequence : Nat) :
    List Nat → List (Option SegmentVersion) → Except Error (List (Option SegmentVersion))
  | [], output => pure output
  | index :: rest, output => do
    let version ← segment.getVersion (keys.getD index []) readSequence
    getVersionsLegacy segment keys readSequence rest (output.set index version)

/-- `Segment::get_versions` (`segment.rs:423-478`). -/
def getVersions (segment : Segment) (keys : List Bytes) (readSequence : Nat) :
    Except Error (List (Option SegmentVersion)) :=
  let output := List.replicate keys.length none
  match segment.storage with
  | .legacy _ _ => segment.getVersionsLegacy keys readSequence (keyOrder keys) output
  | .blocked source blocks =>
    segment.getVersionsBlocked source blocks keys readSequence (keyOrder keys) none output

/-- `record.key < start || end.is_some_and(|end| record.key >= end)`. -/
def outside (start : Bytes) (stop : Option Bytes) (key : Bytes) : Prop :=
  key < start ∨ ∃ bound ∈ stop, key ≥ bound

instance (start : Bytes) (stop : Option Bytes) (key : Bytes) : Decidable (outside start stop key) :=
  inferInstanceAs (Decidable (_ ∨ _))

/-- The `collect` closure of `visible_from` (`segment.rs:587-605`). -/
def collectVisible (start : Bytes) (stop : Option Bytes) (readSequence : Nat)
    (grouped : Std.TreeMap Bytes SegmentVersion) (record : Record) :
    Std.TreeMap Bytes SegmentVersion :=
  if outside start stop record.key then grouped
  else if record.sequence ≤ readSequence then
    if grouped[record.key]?.all (fun prior => record.sequence > prior.sequence) then
      grouped.insert record.key ⟨record.sequence, record.value⟩
    else grouped
  else grouped

/-- `Segment::visible_from` (`segment.rs:579-634`). -/
def visibleFrom (segment : Segment) (start : Bytes) (stop : Option Bytes) (readSequence : Nat) :
    Except Error (List (Bytes × VersionedValue)) := do
  let grouped ← match segment.storage with
    | .legacy records _ =>
      visitRecords records (collectVisible start stop readSequence) records.length 0 ∅
    | .blocked source blocks =>
      let first := partitionPoint (fun block : BlockDescriptor => block.lastKey < start) blocks
      visitBlocks source start stop (collectVisible start stop readSequence) (blocks.drop first)
        true ∅
  return grouped.toList

/-- The state of the `collect` closure of `scan` (`segment.rs:504-506`). -/
structure ScanState where
  output : List (Bytes × Bytes)
  currentKey : Bytes
  selected : Option SegmentVersion
  deriving DecidableEq, Repr

/-- The pair that a finished key group contributes, if its selected version is live. -/
def ScanState.flush (state : ScanState) : List (Bytes × Bytes) :=
  match state.selected.bind (·.value) with
  | some value => state.output ++ [(state.currentKey, value)]
  | none => state.output

/-- The `collect` closure of `scan` (`segment.rs:507-529`). -/
def collectScan (start : Bytes) (stop : Option Bytes) (readSequence : Nat) (state : ScanState)
    (record : Record) : ScanState :=
  if outside start stop record.key then state
  else
    let state :=
      if state.currentKey ≠ record.key then ⟨state.flush, record.key, none⟩ else state
    if record.sequence ≤ readSequence ∧
        state.selected.all (fun version => record.sequence > version.sequence) then
      { state with selected := some ⟨record.sequence, record.value⟩ }
    else state

/-- `Segment::scan` (`segment.rs:480-537`). -/
def scan (segment : Segment) (start : Bytes) (stop : Option Bytes) (readSequence : Nat) :
    Except Error (List (Bytes × Bytes)) :=
  match segment.storage with
  | .legacy _ _ => do
    let visible ← segment.visibleFrom start stop readSequence
    return visible.filterMap fun (key, version) => version.value.map fun value => (key, value)
  | .blocked source blocks => do
    let first := partitionPoint (fun block : BlockDescriptor => block.lastKey < start) blocks
    let state ← visitBlocks source start stop (collectScan start stop readSequence)
      (blocks.drop first) true ⟨[], [], none⟩
    return state.flush

/-- The closure of `all_versions` (`segment.rs:545-561`). -/
def collectGroup (output : List (Bytes × List VersionedValue)) (record : Record) :
    List (Bytes × List VersionedValue) :=
  match output.getLast? with
  | some (key, versions) =>
    if key = record.key then
      output.dropLast ++ [(key, versions ++ [⟨record.sequence, record.value⟩])]
    else output ++ [(record.key, [⟨record.sequence, record.value⟩])]
  | none => [(record.key, [⟨record.sequence, record.value⟩])]

/-- The block loop of `for_each_record` (`segment.rs:636-647`). -/
def visitAllBlocks {σ : Type} (source : Bytes) (collect : σ → Record → σ) :
    List BlockDescriptor → σ → Except Error σ
  | [], state => pure state
  | block :: rest, state => do
    let decoded ← loadBlock source block
    let state ← decoded.visit collect decoded.recordOffsets state
    visitAllBlocks source collect rest state

/-- `Segment::for_each_record` (`segment.rs:636-647`). -/
def forEachRecord {σ : Type} (segment : Segment) (collect : σ → Record → σ) (state : σ) :
    Except Error σ :=
  match segment.storage with
  | .legacy records _ => visitRecords records collect records.length 0 state
  | .blocked source blocks => visitAllBlocks source collect blocks state

/-- `Segment::all_versions` (`segment.rs:543-563`). -/
def allVersions (segment : Segment) : Except Error (List (Bytes × List VersionedValue)) :=
  segment.forEachRecord collectGroup []

end Segment
end Vyrm.Kv
