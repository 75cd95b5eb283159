import Vyrm.Kv.Database.Read
import Vyrm.Core.Runtime.Preview
import Vyrm.Core.Temporal
import Vyrm.Store.Commit

/-!
# What the native engine reads

`crates/vyrm-store/src/keyspaces.rs` and the reading half of `native.rs`. Every
operation reads through one snapshot of the database; `View` is what such a
snapshot answers.
-/

namespace Vyrm.Store
open Lib Vyrm.Core

/-! ## Encodings outside the repository -/

/-- How one type is written and read: `serde_json::to_vec` and `serde_json::from_slice`. No type here
has a map with keys that are not strings, so `to_vec` does not fail. -/
class Serde (α : Type) where
  toVec : α → Bytes
  fromSlice : Bytes → Except String α

/-- The types the engine stores. -/
class Codec where
  [claim : Serde Claim]
  [change : Serde RuntimeChange]
  [work : Serde ProjectionWork]
  [registry : Serde RuntimeSchemaRegistry]
  [record : Serde RuntimeRecord]
  [relation : Serde RuntimeRelation]
  [vector : Serde RuntimeVector]
  [sample : Serde RuntimeSeriesSample]
  [geo : Serde RuntimeGeo]
  [object : Serde ObjectReference]
  [audit : Serde AuditEnvelope]
  [outcome : Serde RuntimeCommitOutcome]

attribute [reducible, instance] Codec.claim Codec.change Codec.work Codec.registry Codec.record Codec.relation
  Codec.vector Codec.sample Codec.geo Codec.object Codec.audit Codec.outcome

open Serde

/-- A member of a JSON object; one that `skip_serializing_if` leaves out is `none`. -/
def member (name : String) (value : Option String) : List String :=
  (value.map fun value => "\"" ++ name ++ "\":" ++ value).toList

/-- A JSON string, of text that needs no escape. -/
def quoted (text : String) : String := "\"" ++ text ++ "\""

/-- A JSON object. -/
def object (members : List (List String)) : String :=
  "\x7b" ++ String.intercalate "," members.flatten ++ "\x7d"

/-- The JSON of a claim without a confidence whose texts need no escape. -/
def plainClaim (claim : Claim) : String :=
  object [member "subject" (quoted claim.subject.asStr), member "predicate" (quoted claim.predicate.asStr),
    member "object" (quoted claim.object), member "valid_from" (toString claim.validFrom),
    member "valid_to" (some ((claim.validTo.map toString).getD "null")),
    member "tx_time" (toString claim.txTime),
    member "producer" (object [member "actor" (quoted claim.producer.actor),
      member "on_behalf_of" (claim.producer.onBehalfOf.map quoted),
      member "session" (claim.producer.session.map quoted)]),
    member "confidence" (some "null"), member "supersedes" (claim.supersedes.map quoted),
    member "signature" (claim.signature.map quoted),
    member "tier" (quoted (match claim.tier with
      | .localTier => "local"
      | .primary => "primary"
      | .tenant => "tenant")),
    member "promotion_state" (quoted (match claim.promotionState with
      | .unpromoted => "unpromoted"
      | .pending => "pending"
      | .promoted => "promoted"
      | .denied => "denied"))]

/-- An encoding with the given texts, read back from a table. -/
@[reducible] def Serde.ofTexts {α : Type} (text : α → String) (known : List α) : Serde α where
  toVec a := utf8 (text a)
  fromSlice bytes :=
    match known.find? fun a => utf8 (text a) = bytes with
    | some a => .ok a
    | none => .error "expected value at line 1 column 1"

/-- `Error::from(serde_json::Error)`. -/
def json {α : Type} : Except String α → Except Error α
  | .ok a => .ok a
  | .error message => .error (.codec message)

/-- `Error::from(vyrm_kv::Error)`. -/
def storage {α : Type} : Except Kv.Error α → Except Error α
  | .ok a => .ok a
  | .error e => .error (.storage e)

/-! ## Keyspaces -/

/-- The keyspaces (`keyspaces.rs:11-58`). -/
inductive Keyspace where
  | claims
  | sequenceIndex
  | access
  | metadata
  | invocations
  | projections
  | runtimeChanges
  | runtimeRecords
  | runtimeRelations
  | runtimeVectors
  | runtimeSeries
  | runtimeGeo
  | runtimeObjects
  | runtimeOutbox
  | runtimeAudit
  | runtimeCommits
  | runtimeSchemas
  | runtimeSnapshots
  deriving DecidableEq, Repr

/-- `runtime_`. -/
def runtimeLabel : Bytes := [0x72, 0x75, 0x6e, 0x74, 0x69, 0x6d, 0x65, 0x5f]

/-- The name of a keyspace. -/
def Keyspace.name : Keyspace → Bytes
  | .claims => [0x63, 0x6c, 0x61, 0x69, 0x6d, 0x73]
  | .sequenceIndex =>
    [0x73, 0x65, 0x71, 0x75, 0x65, 0x6e, 0x63, 0x65, 0x5f, 0x69, 0x6e, 0x64, 0x65, 0x78]
  | .access => [0x61, 0x63, 0x63, 0x65, 0x73, 0x73]
  | .metadata => [0x6d, 0x65, 0x74, 0x61]
  | .invocations => [0x69, 0x6e, 0x76, 0x6f, 0x63, 0x61, 0x74, 0x69, 0x6f, 0x6e, 0x73]
  | .projections => [0x70, 0x72, 0x6f, 0x6a, 0x65, 0x63, 0x74, 0x69, 0x6f, 0x6e, 0x73]
  | .runtimeChanges => runtimeLabel ++ [0x63, 0x68, 0x61, 0x6e, 0x67, 0x65, 0x73]
  | .runtimeRecords => runtimeLabel ++ [0x72, 0x65, 0x63, 0x6f, 0x72, 0x64, 0x73]
  | .runtimeRelations => runtimeLabel ++ [0x72, 0x65, 0x6c, 0x61, 0x74, 0x69, 0x6f, 0x6e, 0x73]
  | .runtimeVectors => runtimeLabel ++ [0x76, 0x65, 0x63, 0x74, 0x6f, 0x72, 0x73]
  | .runtimeSeries => runtimeLabel ++ [0x73, 0x65, 0x72, 0x69, 0x65, 0x73]
  | .runtimeGeo => runtimeLabel ++ [0x67, 0x65, 0x6f]
  | .runtimeObjects => runtimeLabel ++ [0x6f, 0x62, 0x6a, 0x65, 0x63, 0x74, 0x73]
  | .runtimeOutbox => runtimeLabel ++ [0x6f, 0x75, 0x74, 0x62, 0x6f, 0x78]
  | .runtimeAudit => runtimeLabel ++ [0x61, 0x75, 0x64, 0x69, 0x74]
  | .runtimeCommits => runtimeLabel ++ [0x63, 0x6f, 0x6d, 0x6d, 0x69, 0x74, 0x73]
  | .runtimeSchemas => runtimeLabel ++ [0x73, 0x63, 0x68, 0x65, 0x6d, 0x61, 0x73]
  | .runtimeSnapshots => runtimeLabel ++ [0x73, 0x6e, 0x61, 0x70, 0x73, 0x68, 0x6f, 0x74, 0x73]

/-- `ALL` (`keyspaces.rs:64-83`). -/
def Keyspace.all : List Keyspace :=
  [.claims, .sequenceIndex, .access, .metadata, .invocations, .projections, .runtimeChanges,
    .runtimeRecords, .runtimeRelations, .runtimeVectors, .runtimeSeries, .runtimeGeo, .runtimeObjects,
    .runtimeOutbox, .runtimeAudit, .runtimeCommits, .runtimeSchemas, .runtimeSnapshots]

/-- The keys of the keyspace `meta` (`keyspaces.rs:86-94`). -/
inductive MetaKey where
  | sequenceWatermark
  | runtimeCursor
  | runtimeLastDigest
  | runtimeLastAuditDigest
  deriving DecidableEq, Repr

/-- `watermark/`. -/
def watermarkLabel : Bytes := [0x77, 0x61, 0x74, 0x65, 0x72, 0x6d, 0x61, 0x72, 0x6b, 0x2f]

def MetaKey.bytes : MetaKey → Bytes
  | .sequenceWatermark => watermarkLabel ++
    [0x63, 0x6c, 0x61, 0x69, 0x6d, 0x73, 0x2f, 0x73, 0x65, 0x71, 0x75, 0x65, 0x6e, 0x63, 0x65]
  | .runtimeCursor => watermarkLabel ++
    [0x72, 0x75, 0x6e, 0x74, 0x69, 0x6d, 0x65, 0x2f, 0x63, 0x75, 0x72, 0x73, 0x6f, 0x72]
  | .runtimeLastDigest => watermarkLabel ++
    [0x72, 0x75, 0x6e, 0x74, 0x69, 0x6d, 0x65, 0x2f, 0x6c, 0x61, 0x73, 0x74, 0x2d, 0x64, 0x69, 0x67,
     0x65, 0x73, 0x74]
  | .runtimeLastAuditDigest => watermarkLabel ++
    [0x72, 0x75, 0x6e, 0x74, 0x69, 0x6d, 0x65, 0x2f, 0x6c, 0x61, 0x73, 0x74, 0x2d, 0x61, 0x75, 0x64,
     0x69, 0x74, 0x2d, 0x64, 0x69, 0x67, 0x65, 0x73, 0x74]

/-- `storage_key` (`native.rs:1379-1385`). -/
def storageKey (space : Keyspace) (key : Bytes) : Bytes := space.name ++ [0] ++ key

/-- The name of a keyspace ends at the separator. -/
theorem Keyspace.sep_notMem_name (space : Keyspace) : (0 : UInt8) ∉ space.name := by
  cases space <;> decide

theorem Keyspace.name_inj {a b : Keyspace} (same : a.name = b.name) : a = b := by
  revert same
  cases a <;> cases b <;> decide

theorem takeWhile_storageKey (space : Keyspace) (key : Bytes) :
    (storageKey space key).takeWhile (· ≠ 0) = space.name := by
  have front : ∀ byte ∈ space.name, decide (byte ≠ 0) = true := by
    intro byte member
    exact decide_eq_true fun zero => space.sep_notMem_name (zero ▸ member)
  rw [storageKey, List.append_assoc, List.takeWhile_append_of_pos front]
  simp

theorem storageKey_inj {a b : Keyspace} {key key' : Bytes} :
    storageKey a key = storageKey b key' ↔ a = b ∧ key = key' := by
  constructor
  · intro same
    have names := congrArg (List.takeWhile (· ≠ 0)) same
    rw [takeWhile_storageKey, takeWhile_storageKey] at names
    obtain rfl := Keyspace.name_inj names
    exact ⟨rfl, List.append_cancel_left same⟩
  · intro ⟨front, back⟩
    rw [front, back]

/-- `runtime_identity_key` (`native.rs:1277-1287`). -/
def runtimeIdentityKey (scope : ScopeId) (reference : RuntimeRef) : Bytes :=
  scope.bytes ++ [0] ++ reference.kind.bytes ++ [0] ++ reference.id.bytes

/-! ## Reading -/

/-- What a snapshot of the database answers. -/
structure View where
  get : Bytes → Except Kv.Error (Option Bytes)
  scan : Bytes → Option Bytes → Except Kv.Error (List (Bytes × Bytes))

namespace View

variable [Codec]

/-- `get` (`native.rs:1331-1340`). -/
def read (view : View) (space : Keyspace) (key : Bytes) : Except Error (Option Bytes) :=
  storage (view.get (storageKey space key))

/-- `get_json` (`native.rs:1342-1351`). -/
def readJson {α : Type} [Serde α] (view : View) (space : Keyspace) (key : Bytes) :
    Except Error (Option α) := do
  match ← view.read space key with
  | none => return none
  | some bytes => return some (← json (fromSlice bytes))

/-- `serde_json::from_slice` of every value of a scan. -/
def fromSlices {α : Type} [Serde α] : List (Bytes × Bytes) → Except Error (List α)
  | [] => .ok []
  | (_, value) :: rest => do
    let a ← json (fromSlice value)
    return a :: (← fromSlices rest)

/-- `scan_space` (`native.rs:1353-1364`). -/
def scanSpace (view : View) (space : Keyspace) (front : Bytes) : Except Error (List (Bytes × Bytes)) :=
  let start := storageKey space front
  storage (view.scan start (prefixEnd start))

/-- `scan_space_from` (`native.rs:1366-1377`). -/
def scanSpaceFrom (view : View) (space : Keyspace) (from_ : Bytes) :
    Except Error (List (Bytes × Bytes)) :=
  storage (view.scan (storageKey space from_) (prefixEnd (storageKey space [])))

/-- `decode_sequence` (`native.rs:1324-1329`). -/
def decodeSequence (value : Bytes) : Except Error UInt64 :=
  match (fromUtf8 value).bind parseU64 with
  | some sequence => .ok sequence
  | none => .error (.corruptWatermark value)

omit [Codec] in
/-- A sequence is read back from its text. -/
theorem decodeSequence_print (sequence : UInt64) :
    decodeSequence (Format.nat.print sequence.toNat) = .ok sequence := by
  have small : ∀ byte ∈ Format.nat.print sequence.toNat, byte.toNat < 128 := by
    intro byte member
    have digits : (Format.nat.print sequence.toNat).all isDigit = true := Format.all_decimal _ _
    have := List.all_eq_true.mp digits byte member
    simp only [isDigit, Bool.and_eq_true, decide_eq_true_eq] at this
    omega
  obtain ⟨text, read, same⟩ := exists_utf8_of_ascii small
  have parsed : parseU64 text = some sequence := by
    simp only [parseU64, same, Decimal.parse_print, if_pos sequence.toNat_lt, UInt64.ofNat_toNat]
  simp [decodeSequence, read, parsed]

/-- `read_sequence` (`native.rs:1316-1322`). -/
def readSequence (view : View) (key : MetaKey) : Except Error UInt64 := do
  match ← view.read .metadata key.bytes with
  | none => return 0
  | some value => decodeSequence value

/-- The digest a chain continues from (`native.rs:833-857`). -/
def readDigest (view : View) (key : MetaKey) : Except Error (Option String) := do
  match ← view.read .metadata key.bytes with
  | none => return none
  | some value =>
    match fromUtf8 value with
    | some digest => return if digest = "" then none else some digest
    | none => throw (.corruptWatermark value)

/-- `native_values_for_scope` (`native.rs:1263-1275`). -/
def valuesForScope {α : Type} [Serde α] (view : View) (space : Keyspace) (scope : ScopeId) :
    Except Error (List α) := do
  fromSlices (← view.scanSpace space (scope.bytes ++ [0]))

/-! ### Claims -/

/-- `scan_claims` (`native.rs:1030-1041`). -/
def scanClaims (view : View) (front from_ : Bytes) : Except Error (List Claim) :=
  match prefixEnd (storageKey .claims front) with
  | none => .error (.substrate "native claim prefix has no upper bound")
  | some stop => do fromSlices (← storage (view.scan (storageKey .claims from_) (some stop)))

/-- `versions_at_or_before` (`native.rs:243-255`). -/
def versionsAtOrBefore (view : View) (subject : Subject) (predicate : Predicate) (asOf : Millis) :
    Except Error (List Claim) :=
  view.scanClaims (versionPrefix subject predicate) (seekKey subject predicate asOf)

/-- `all_versions` (`native.rs:257-261`). -/
def allVersions (view : View) (subject : Subject) (predicate : Predicate) : Except Error (List Claim) :=
  view.scanClaims (versionPrefix subject predicate) (versionPrefix subject predicate)

/-- `as_of` (`temporal.rs:76-84`). -/
def asOf (view : View) (subject : Subject) (predicate : Predicate) (at_ : Millis) :
    Except Error (Option Claim) := do
  return resolveAsOf (← view.versionsAtOrBefore subject predicate at_) at_

/-- `NATIVE_SEQUENCE_VALUE_MAGIC` (`native.rs:29`): `VYRNSI01`. -/
def sequenceValueMagic : Bytes := [0x56, 0x59, 0x52, 0x4e, 0x53, 0x49, 0x30, 0x31]

/-- `encode_native_sequence_value` (`native.rs:664-669`). -/
def encodeSequenceValue (encodedClaim : Bytes) : Bytes := sequenceValueMagic ++ encodedClaim

/-- `decode_native_sequence_value` (`native.rs:671-679`). -/
def decodeSequenceValue (value : Bytes) : Except Error (Option Bytes) :=
  match stripFront sequenceValueMagic value with
  | none => .ok none
  | some [] => .error (.substrate "empty native sequence envelope")
  | some encoded => .ok (some encoded)

/-- The claim of one value of the sequence index (`native.rs:356-370`). -/
def sequencedClaim (view : View) (from_ last : UInt64) (value : Bytes) : Except Error Claim := do
  match ← decodeSequenceValue value with
  | some encoded => json (fromSlice encoded)
  | none =>
    match ← view.read .claims value with
    | some encoded => json (fromSlice encoded)
    | none =>
      throw (.substrate s!"native sequence index references an absent claim in ({from_}, {last}]")

def sequencedClaims (view : View) (from_ last : UInt64) : List (Bytes × Bytes) → Except Error (List Claim)
  | [] => .ok []
  | (_, value) :: rest => do
    let claim ← view.sequencedClaim from_ last value
    return claim :: (← sequencedClaims view from_ last rest)

/-- `claims_in_range` (`native.rs:326-372`). -/
def claimsInRange (view : View) (from_ to_ : UInt64) : Except Error (List Claim) := do
  if to_ ≤ from_ then return []
  let head ← view.readSequence .sequenceWatermark
  let last := min to_ head
  if last ≤ from_ then return []
  let start := storageKey .sequenceIndex (sequenceKey (saturatingSucc from_))
  match prefixEnd (storageKey .sequenceIndex (sequenceKey last)) with
  | none => throw (.substrate "native sequence range has no upper bound")
  | some stop =>
    let index ← storage (view.scan start (some stop))
    let rows := index.length
    if rows ≠ (last - from_).toNat then
      throw (.substrate s!"native sequence index returned {rows} rows for expected interval ({from_}, {last}]")
    view.sequencedClaims from_ last index

/-! ### The runtime log -/

/-- The change at a cursor, which the log must have. -/
def changeAt (view : View) (cursor : UInt64) : Except Error RuntimeChange := do
  match ← view.readJson .runtimeChanges (be64 cursor) with
  | some change => return change
  | none => throw (.substrate s!"runtime log is missing cursor {cursor}")

/-- The loop of `native_change_page` (`native.rs:1228-1254`), over the cursors left up to the head:
the cursor reached, and the changes. -/
def collectChanges (view : View) (after : UInt64) (limit : Nat) (scope : Option ScopeId) :
    Nat → UInt64 → Option String → Except Error (UInt64 × List RuntimeChange)
  | 0, through, _ => .ok (through, [])
  | left + 1, through, previousDigest =>
    if limit ≤ (through - after).toNat then .ok (through, [])
    else do
      let expected := through + 1
      let change ← view.changeAt expected
      if change.cursor ≠ expected ∨ change.previousDigest ≠ previousDigest ∨ ¬ change.verifyDigest then
        throw (.substrate s!"runtime change {expected} failed cursor/hash-chain verification")
      let (reached, changes) ← collectChanges view after limit scope left expected (some change.digest)
      return (reached, if scope.all fun scope => scope = change.scope then change :: changes else changes)

/-- `native_change_page` (`native.rs:1190-1261`). -/
def changePage (view : View) (head after : UInt64) (limit : Nat) (scope : Option ScopeId) :
    Except Error RuntimeChangePage := do
  if limit = 0 then throw (.substrate "runtime change page limit must be greater than zero")
  if after = u64Max ∨ head ≤ after then
    return { requestedAfter := after, throughCursor := after, headCursor := head, changes := [] }
  let previousDigest ←
    if after = 0 then pure none
    else do
      let prior ← view.changeAt after
      if ¬ prior.verifyDigest then
        throw (.substrate s!"runtime change {after} failed digest verification")
      pure (some prior.digest)
  let (through, changes) ←
    view.collectChanges after limit scope (head - after).toNat after previousDigest
  return { requestedAfter := after, throughCursor := through, headCursor := head, changes }

/-- `runtime_changes_since` (`native.rs:604-614`). -/
def runtimeChangesSince (view : View) (after : UInt64) (limit : Nat) (scope : Option ScopeId) :
    Except Error RuntimeChangePage := do
  view.changePage (← view.readSequence .runtimeCursor) after limit scope

/-- `native_read_stamp` (`native.rs:1103-1135`). -/
def runtimeReadStamp (view : View) (scope : ScopeId) : Except Error ReadStamp := do
  let commitCursor ← view.readSequence .runtimeCursor
  let schema : Option RuntimeSchemaRegistry ← view.readJson .runtimeSchemas scope.bytes
  let headDigest ← view.readDigest .runtimeLastDigest
  kernel (ReadStamp.new scope (schema.map (·.revision)) 0 commitCursor headDigest)

/-- `validate_native_read_stamp` (`native.rs:1137-1188`). -/
def validateReadStamp (view : View) (read : ReadStamp) : Except Error Unit := do
  kernel read.validate
  let current ← view.readSequence .runtimeCursor
  if current < read.commitCursor then throw (.readStampUnavailable read.manifestId)
  let retainedHead ←
    if read.commitCursor = 0 then pure none
    else
      match ← view.readJson .runtimeChanges (be64 read.commitCursor) with
      | none => throw (.readStampUnavailable read.manifestId)
      | some (change : RuntimeChange) =>
        if ¬ change.verifyDigest then
          let cursor := read.commitCursor
          throw (.substrate s!"runtime change {cursor} failed digest verification")
        pure (some change.digest)
  let page ← view.changePage read.commitCursor 0 u64Max.toNat (some read.scope)
  let schemaRevision := (page.changes.filterMap fun change =>
    match change.mutation with
    | .schema registry => some registry.revision
    | _ => none).getLast?
  if read.catalogRevision ≠ 0 ∨ read.headDigest ≠ retainedHead ∨ read.schemaRevision ≠ schemaRevision then
    throw (.readStampMismatch read.manifestId)

/-- `runtime_read_changes` (`native.rs:577-594`). -/
def runtimeReadChanges (view : View) (read : ReadStamp) (after : UInt64) (limit : Nat) :
    Except Error RuntimeChangePage := do
  view.validateReadStamp read
  view.changePage read.commitCursor after limit (some read.scope)

/-- The work of the outbox, each checked as it is read (`native.rs:631-635`). -/
def checkedWork : List (Bytes × Bytes) → Except Error (List ProjectionWork)
  | [] => .ok []
  | (_, value) :: rest => do
    let work : ProjectionWork ← json (fromSlice value)
    kernel work.validate
    return work :: (← checkedWork rest)

/-- `runtime_outbox_since` (`native.rs:616-637`). -/
def runtimeOutboxSince (view : View) (after : UInt64) (limit : Nat) :
    Except Error (List ProjectionWork) := do
  if limit = 0 then throw (.substrate "runtime outbox page limit must be greater than zero")
  if after = u64Max then throw .sequenceOverflow
  let pairs ← view.scanSpaceFrom .runtimeOutbox (be64 (after + 1))
  checkedWork (pairs.take limit)

end View

end Vyrm.Store
