import Vyrm.Core.Schema

/-!
# Graph snapshots and transaction previews

`crates/vyrm-core/src/runtime.rs`: validation of commits, the graph reconstructed
from the change log, and the graph a transaction would produce if it committed.
-/

namespace Vyrm.Core
open Lib

/-! ## Validation of commits -/

/-- `duplicate_identity` (`runtime.rs:1430-1437`). -/
def duplicateIdentity (kind : String) (reference : RuntimeRef) : Except Error Unit :=
  let shown := reference.shown
  invalid s!"runtime commit contains duplicate {kind} identity {shown}"

/-- `validate_text` (`runtime.rs:1439-1441`). -/
def validateText (kind value : String) : Except Error Unit := validateIdentifier kind value

/-- `u8::is_ascii_hexdigit`. -/
def isHexDigit (byte : UInt8) : Bool :=
  isDigit byte || (97 ≤ byte.toNat && byte.toNat ≤ 102) || (65 ≤ byte.toNat && byte.toNat ≤ 70)

/-- `validate_digest` (`runtime.rs:1443-1450`). -/
def validateDigest (kind value : String) : Except Error Unit :=
  if (utf8 value).length ≠ 64 ∨ ¬ (utf8 value).all isHexDigit then
    invalid s!"{kind} must be a 64-character hexadecimal SHA-256 digest"
  else .ok ()

/-- A hexadecimal digit is one ASCII byte that counts as such a digit. -/
theorem hexDigit_spec : ∀ n : Fin 16, 0 < (hexDigit n.val).toNat ∧ (hexDigit n.val).toNat < 128 ∧
    isHexDigit (UInt8.ofNat (hexDigit n.val).toNat) = true := by decide

/-- What a digest is made of. -/
theorem hex_chars {bytes : Bytes} {c : Char}
    (member : c ∈ bytes.flatMap fun byte => [hexDigit (byte.toNat / 16), hexDigit (byte.toNat % 16)]) :
    0 < c.toNat ∧ c.toNat < 128 ∧ isHexDigit (UInt8.ofNat c.toNat) = true := by
  obtain ⟨byte, -, here⟩ := List.mem_flatMap.mp member
  have bound := UInt8.toNat_lt byte
  simp only [List.mem_cons, List.not_mem_nil, or_false] at here
  rcases here with rfl | rfl
  · exact hexDigit_spec ⟨byte.toNat / 16, by omega⟩
  · exact hexDigit_spec ⟨byte.toNat % 16, by omega⟩

theorem utf8_hex (bytes : Bytes) :
    utf8 (hex bytes) = (bytes.flatMap fun byte =>
      [hexDigit (byte.toNat / 16), hexDigit (byte.toNat % 16)]).map fun c => UInt8.ofNat c.toNat :=
  utf8_ofList_ascii fun _ member => (hex_chars member).2.1

theorem length_utf8_hex (bytes : Bytes) : (utf8 (hex bytes)).length = 2 * bytes.length := by
  rw [utf8_hex, List.length_map]
  induction bytes with
  | nil => rfl
  | cons byte bytes ih =>
    rw [List.flatMap_cons, List.length_append, ih]
    simp
    omega

/-- What `sha256_hex` returns is a digest. -/
@[simp] theorem validateDigest_sha256Hex (kind : String) (input : Bytes) :
    validateDigest kind (sha256Hex input) = .ok () := by
  have long : (utf8 (sha256Hex input)).length = 64 := by
    rw [sha256Hex, length_utf8_hex, length_sha256]
  have digits : (utf8 (sha256Hex input)).all isHexDigit = true := by
    rw [List.all_eq_true, sha256Hex, utf8_hex]
    intro byte member
    obtain ⟨c, listed, rfl⟩ := List.mem_map.mp member
    exact (hex_chars listed).2.2
  rw [validateDigest, if_neg]
  simp [long, digits]

/-- `valid_at_window` (`runtime.rs:1464-1466`). -/
def validAtWindow (validFrom : Millis) (validTo : Option Millis) (at_ : Millis) : Bool :=
  validFrom ≤ at_ && match validTo with
    | some validTo => decide (at_ < validTo)
    | none => true

/-- `validate_properties` (`runtime.rs:1468-1473`). -/
def validateProperties (properties : RuntimeProperties) : Except Error Unit :=
  properties.forM fun (key, _) => validateIdentifier "runtime property" key

namespace RuntimeCommit

/-- The checks of one object of a commit, and its identity among those of its family. -/
def validateObject (family shown : String) (reference : RuntimeRef) (properties : RuntimeProperties)
    (checks : Except Error Unit) (identities : List (String × RuntimeRef)) :
    Except Error (List (String × RuntimeRef)) := do
  checks
  validateProperties properties
  if (family, reference) ∈ identities then duplicateIdentity shown reference
  return (family, reference) :: identities

/-- The loop of `validate` (`runtime.rs:213-271`), over the identities and the number of schemas
seen so far. -/
def validateMutations : List RuntimeMutation → List (String × RuntimeRef) → Nat → Except Error Unit
  | [], _, _ => .ok ()
  | .claim claim :: rest, identities, schemaCount => do
    claim.validate
    validateMutations rest identities schemaCount
  | .schema registry :: rest, identities, schemaCount => do
    registry.validate
    if 1 < schemaCount + 1 then invalid "runtime commit may contain at most one schema mutation"
    validateMutations rest identities (schemaCount + 1)
  | .record record :: rest, identities, schemaCount => do
    let identities ← validateObject "record" "record" record.reference record.properties
      (Data.validateWindow record.validFrom record.validTo) identities
    validateMutations rest identities schemaCount
  | .relation relation :: rest, identities, schemaCount => do
    let identities ← validateObject "relation" "relation" relation.reference relation.properties
      (Data.validateWindow relation.validFrom relation.validTo) identities
    validateMutations rest identities schemaCount
  | .event event :: rest, identities, schemaCount => do
    validateProperties event.properties
    validateMutations rest identities schemaCount
  | .vector vector :: rest, identities, schemaCount => do
    let identities ← validateObject "vector" "vector" vector.reference vector.properties
      vector.validate identities
    validateMutations rest identities schemaCount
  | .seriesSample sample :: rest, identities, schemaCount => do
    let identities ← validateObject "series_sample" "series sample" sample.reference sample.properties
      sample.validate identities
    validateMutations rest identities schemaCount
  | .geo geo :: rest, identities, schemaCount => do
    let identities ← validateObject "geo" "geo" geo.reference geo.properties geo.validate identities
    validateMutations rest identities schemaCount
  | .object object :: rest, identities, schemaCount => do
    let identities ← validateObject "object" "object" object.reference object.properties
      object.validate identities
    validateMutations rest identities schemaCount

/-- `validate` (`runtime.rs:205-273`). -/
def validate (commit : RuntimeCommit) : Except Error Unit := do
  validateText "runtime actor" commit.actor
  if commit.mutations = [] then invalid "runtime commit must contain at least one mutation"
  validateMutations commit.mutations [] 0

end RuntimeCommit

/-! ## The graph at a cursor -/

/-- ASCII text without the null character has no separator in it. -/
theorem sep_not_mem_ofList {chars : List Char} (ascii : ∀ c ∈ chars, 0 < c.toNat ∧ c.toNat < 128) :
    sep ∉ utf8 (String.ofList chars) := by
  rw [utf8_ofList_ascii fun c h => (ascii c h).2, List.mem_map]
  intro ⟨c, member, same⟩
  have code := congrArg UInt8.toNat same
  rw [UInt8.toNat_ofNat'] at code
  have zero : sep.toNat = 0 := rfl
  have := ascii c member
  omega

/-- `cursor:`. -/
def cursorLabel : List Char := ['c', 'u', 'r', 's', 'o', 'r', ':']

/-- `format!("cursor:{cursor}")`. -/
def cursorText (cursor : UInt64) : String :=
  String.ofList (cursorLabel ++ Nat.toDigits 10 cursor.toNat)

theorem cursorText_ne_empty (cursor : UInt64) : cursorText cursor ≠ "" := by
  intro empty
  have chars := congrArg String.toList empty
  rw [cursorText, String.toList_ofList] at chars
  simp [cursorLabel] at chars

theorem sep_not_mem_cursorText (cursor : UInt64) : sep ∉ utf8 (cursorText cursor) := by
  apply sep_not_mem_ofList
  intro c member
  rcases List.mem_append.mp member with front | digit
  · have each : cursorLabel.all fun c => decide (0 < c.toNat ∧ c.toNat < 128) := rfl
    exact of_decide_eq_true (List.all_eq_true.mp each c front)
  · have isDigit := Nat.isDigit_of_mem_toDigits (by decide) (by decide) digit
    simp only [Char.isDigit, Bool.and_eq_true, decide_eq_true_eq] at isDigit
    have low : 48 ≤ c.toNat := isDigit.1
    have high : c.toNat ≤ 57 := isDigit.2
    omega

/-- `RuntimeId::new(format!("cursor:{cursor}"))`, which is always valid. -/
def cursorId (cursor : UInt64) : RuntimeId :=
  ⟨cursorText cursor, cursorText_ne_empty cursor, sep_not_mem_cursorText cursor⟩

/-- `RuntimeType::new("emitted")`. -/
def emitted : RuntimeType := ⟨"emitted", by decide, by decide⟩

/-- The maps a graph is collected in. -/
structure Graph where
  records : OrdMap RuntimeRef RuntimeRecord
  relations : OrdMap RuntimeRef RuntimeRelation

namespace Graph

def addRecord (graph : Graph) (record : RuntimeRecord) : Graph :=
  { graph with records := graph.records.insert record.reference record }

def addRelation (graph : Graph) (relation : RuntimeRelation) : Graph :=
  { graph with relations := graph.relations.insert relation.reference relation }

/-- An event as a record, and as a relation from its subject (`runtime.rs:732-766`,
`1262-1296`). -/
def addEvent (graph : Graph) (cursor : UInt64) (at_ : Millis) (event : RuntimeEvent) : Graph :=
  let eventRef : RuntimeRef := ⟨event.kind, cursorId cursor⟩
  let graph := graph.addRecord
    { reference := eventRef, validFrom := at_, validTo := none, properties := event.properties }
  match event.subject with
  | some subject => graph.addRelation
    { reference := ⟨emitted, cursorId cursor⟩, from_ := subject, to_ := eventRef, validFrom := at_,
      validTo := none, properties := [] }
  | none => graph

end Graph

/-- `RuntimeGraphSnapshot` (`runtime.rs:1198-1204`). -/
structure RuntimeGraphSnapshot where
  scope : ScopeId
  validAt : Millis
  knownAtCursor : UInt64
  records : List RuntimeRecord
  relations : List RuntimeRelation
  deriving DecidableEq

/-- The values of a graph that are valid at an instant. -/
def Graph.recordsAt (graph : Graph) (validAt : Millis) : List RuntimeRecord :=
  graph.records.values.filter fun record => validAtWindow record.validFrom record.validTo validAt

def Graph.relationsAt (graph : Graph) (validAt : Millis) : List RuntimeRelation :=
  graph.relations.values.filter fun relation =>
    validAtWindow relation.validFrom relation.validTo validAt

namespace RuntimeGraphSnapshot

/-- One change of the replay (`runtime.rs:1245-1304`). -/
def replay (validAt : Millis) (graph : Graph) (change : RuntimeChange) : Graph :=
  match change.mutation with
  | .record record => if record.validFrom ≤ validAt then graph.addRecord record else graph
  | .relation relation => if relation.validFrom ≤ validAt then graph.addRelation relation else graph
  | .event event => graph.addEvent change.cursor change.at_ event
  | _ => graph

/-- The changes a snapshot replays (`runtime.rs:1240-1243`). -/
def selects (scope : ScopeId) (knownAtCursor : UInt64) (change : RuntimeChange) : Bool :=
  change.cursor ≤ knownAtCursor && change.scope = scope

/-- `from_changes` (`runtime.rs:1232-1317`). -/
def fromChanges (changes : List RuntimeChange) (scope : ScopeId) (validAt : Millis)
    (knownAtCursor : UInt64) : RuntimeGraphSnapshot :=
  let graph := (changes.filter (selects scope knownAtCursor)).foldl (replay validAt) ⟨∅, ∅⟩
  { scope, validAt, knownAtCursor, records := graph.recordsAt validAt,
    relations := graph.relationsAt validAt }

end RuntimeGraphSnapshot

/-! ## Transactions -/

/-- `DATA_RUNTIME_CONTRACT_VERSION` (`runtime.rs:73`). -/
def dataRuntimeContractVersion : UInt16 := 1

/-- `u16::to_be_bytes`. -/
def be16 (value : UInt16) : Bytes := toBE 2 value.toNat

/-- `ReadStamp` (`runtime.rs:369-379`). -/
structure ReadStamp where
  contractVersion : UInt16
  scope : ScopeId
  schemaRevision : Option UInt64
  catalogRevision : UInt64
  commitCursor : UInt64
  headDigest : Option String
  manifestId : String
  deriving DecidableEq

namespace ReadStamp

/-- `vyrm-read-stamp-v1\0`. -/
def domain : Bytes :=
  [0x76, 0x79, 0x72, 0x6d, 0x2d, 0x72, 0x65, 0x61, 0x64, 0x2d, 0x73, 0x74, 0x61, 0x6d, 0x70, 0x2d,
   0x76, 0x31, 0x00]

/-- `manifest_bytes` (`runtime.rs:451-460`). -/
def manifestBytes (stamp : ReadStamp) : Bytes :=
  domain ++ be16 stamp.contractVersion ++ text stamp.scope.asStr ++
    encodeOptionalU64 stamp.schemaRevision ++ be64 stamp.catalogRevision ++ be64 stamp.commitCursor ++
    optionalText stamp.headDigest

/-- `canonical_bytes` (`runtime.rs:415-419`). -/
def canonicalBytes (stamp : ReadStamp) : Bytes := stamp.manifestBytes ++ text stamp.manifestId

/-- `validate_components` (`runtime.rs:421-449`). -/
def validateComponents (stamp : ReadStamp) : Except Error Unit := do
  let version := stamp.contractVersion
  if version ≠ dataRuntimeContractVersion then
    invalid s!"unsupported data-runtime contract version {version}"
  if stamp.schemaRevision = some 0 then
    invalid "schema revision zero is not a valid installed revision"
  match stamp.headDigest with
  | none =>
    if stamp.commitCursor ≠ 0 then invalid "a non-empty runtime must carry its hash-chain head"
  | some value =>
    if stamp.commitCursor = 0 then invalid "an empty runtime cannot have a hash-chain head"
    else validateDigest "read stamp hash-chain head" value

/-- `new` (`runtime.rs:382-401`). -/
def new (scope : ScopeId) (schemaRevision : Option UInt64) (catalogRevision commitCursor : UInt64)
    (headDigest : Option String) : Except Error ReadStamp := do
  let stamp : ReadStamp :=
    { contractVersion := dataRuntimeContractVersion, scope, schemaRevision, catalogRevision,
      commitCursor, headDigest, manifestId := "" }
  stamp.validateComponents
  return { stamp with manifestId := sha256Hex stamp.manifestBytes }

/-- `validate` (`runtime.rs:403-413`). -/
def validate (stamp : ReadStamp) : Except Error Unit := do
  stamp.validateComponents
  validateDigest "read stamp manifest" stamp.manifestId
  if stamp.manifestId ≠ sha256Hex stamp.manifestBytes then
    invalid "read stamp manifest digest does not match its fields"

/-- A stamp under the digest of its fields is valid when they are. -/
theorem validate_sealed {stamp : ReadStamp} (components : stamp.validateComponents = .ok ()) :
    { stamp with manifestId := sha256Hex stamp.manifestBytes }.validate = .ok () := by
  have same : ∀ manifestId, { stamp with manifestId }.validateComponents = .ok () := fun _ => components
  have bytes : ∀ manifestId, { stamp with manifestId }.manifestBytes = stamp.manifestBytes := fun _ => rfl
  rw [validate, same, bytes (sha256Hex stamp.manifestBytes), validateDigest_sha256Hex]
  simp

/-- A stamp that was made is valid. -/
theorem validate_new {scope : ScopeId} {schemaRevision : Option UInt64}
    {catalogRevision commitCursor : UInt64} {headDigest : Option String} {stamp : ReadStamp}
    (made : new scope schemaRevision catalogRevision commitCursor headDigest = .ok stamp) :
    stamp.validate = .ok () := by
  obtain ⟨⟨⟩, components, made⟩ := except_bind_ok.mp made
  rw [except_pure, Except.ok.injEq] at made
  subst made
  exact validate_sealed components

end ReadStamp

/-- `DataTransaction` (`runtime.rs:633-637`). -/
structure DataTransaction where
  contractVersion : UInt16
  read : ReadStamp
  commit : RuntimeCommit
  deriving DecidableEq

/-- `DataTransactionView` (`runtime.rs:801-811`). -/
structure DataTransactionView where
  contractVersion : UInt16
  transactionDigest : String
  read : ReadStamp
  validAt : Millis
  prospectiveCursor : UInt64
  pendingMutations : Nat
  pending : List RuntimeMutation
  records : List RuntimeRecord
  relations : List RuntimeRelation
  deriving DecidableEq

/-- `u64::checked_add`, of a length. -/
def checkedAdd (cursor : UInt64) (length : Nat) : Option UInt64 :=
  if cursor.toNat + length < 2 ^ 64 then some (cursor + UInt64.ofNat length) else none

/-- `DataTransactionView::validate` (`runtime.rs:814-843`). -/
def DataTransactionView.validate (view : DataTransactionView) : Except Error Unit := do
  let version := view.contractVersion
  if version ≠ dataRuntimeContractVersion then
    invalid s!"unsupported transaction-view contract version {version}"
  view.read.validate
  validateDigest "transaction view" view.transactionDigest
  let expected ← okOr (checkedAdd view.read.commitCursor view.pendingMutations)
    (.invalidRuntime "transaction view cursor overflowed")
  if view.prospectiveCursor ≠ expected then
    invalid "transaction view cursor does not cover its pending mutations"
  if view.pending.length ≠ view.pendingMutations then
    invalid "transaction view pending count does not match its mutations"

namespace DataTransaction

/-- `vyrm-data-transaction-v1\0`. -/
def domain : Bytes :=
  [0x76, 0x79, 0x72, 0x6d, 0x2d, 0x64, 0x61, 0x74, 0x61, 0x2d, 0x74, 0x72, 0x61, 0x6e, 0x73, 0x61,
   0x63, 0x74, 0x69, 0x6f, 0x6e, 0x2d, 0x76, 0x31, 0x00]

/-- `validate` (`runtime.rs:650-672`). -/
def validate (transaction : DataTransaction) : Except Error Unit := do
  let version := transaction.contractVersion
  if version ≠ dataRuntimeContractVersion then
    invalid s!"unsupported transaction contract version {version}"
  transaction.read.validate
  transaction.commit.validate
  if transaction.read.scope ≠ transaction.commit.scope then
    invalid "transaction read scope differs from commit scope"
  if transaction.read.commitCursor ≠ transaction.commit.expectedCursor then
    invalid "transaction expected cursor differs from its read stamp"

/-- `digest` (`runtime.rs:674-682`). -/
def digest (transaction : DataTransaction) : String :=
  sha256Hex (domain ++ be16 transaction.contractVersion ++ transaction.read.canonicalBytes ++
    prefixed transaction.commit.canonicalBytes)

/-- One pending mutation of a preview (`runtime.rs:724-777`). -/
def stage (transaction : DataTransaction) (validAt : Millis) (graph : Graph)
    (pending : RuntimeMutation × Nat) : Graph :=
  match pending.1 with
  | .record record => if record.validFrom ≤ validAt then graph.addRecord record else graph
  | .relation relation => if relation.validFrom ≤ validAt then graph.addRelation relation else graph
  | .event event =>
    graph.addEvent (transaction.read.commitCursor + UInt64.ofNat pending.2 + 1) transaction.commit.at_
      event
  | _ => graph

/-- `preview` (`runtime.rs:687-797`). -/
def preview (transaction : DataTransaction) (base : RuntimeGraphSnapshot) :
    Except Error DataTransactionView := do
  transaction.validate
  if base.scope ≠ transaction.read.scope then
    invalid "transaction preview scope differs from its read stamp"
  if base.knownAtCursor ≠ transaction.read.commitCursor then
    invalid "transaction preview cursor differs from its read stamp"
  let mutations := transaction.commit.mutations
  let prospectiveCursor ← okOr (checkedAdd transaction.read.commitCursor mutations.length)
    (.invalidRuntime "transaction preview cursor overflowed")
  let start : Graph :=
    ⟨OrdMap.insertAll RuntimeRecord.reference ∅ base.records,
     OrdMap.insertAll RuntimeRelation.reference ∅ base.relations⟩
  let graph := mutations.zipIdx.foldl (transaction.stage base.validAt) start
  let view : DataTransactionView :=
    { contractVersion := dataRuntimeContractVersion, transactionDigest := transaction.digest,
      read := transaction.read, validAt := base.validAt, prospectiveCursor,
      pendingMutations := mutations.length, pending := mutations,
      records := graph.recordsAt base.validAt, relations := graph.relationsAt base.validAt }
  view.validate
  return view

end DataTransaction

end Vyrm.Core

namespace Vyrm.Vector
open Vyrm.Core

/-! ## Projection stamps -/

/-- `ProjectionState` (`runtime.rs:909-914`). -/
inductive ProjectionState where
  | building
  | ready
  | quarantined
  | retiring
  deriving DecidableEq, Repr

/-- `ProjectionStamp` (`runtime.rs:1022-1030`). -/
structure ProjectionStamp where
  contractVersion : UInt16
  id : ProjectionId
  generation : Nat
  sourceCursor : UInt64
  configDigest : String
  artifactDigest : String
  state : ProjectionState
  deriving DecidableEq

/-- `ProjectionStamp::validate` (`runtime.rs:1033-1041`). -/
def ProjectionStamp.validate (stamp : ProjectionStamp) : Except Error Unit :=
  if stamp.contractVersion ≠ dataRuntimeContractVersion ∨ stamp.generation = 0 then
    invalid "projection contract version and generation must be valid"
  else do
    validateDigest "projection configuration" stamp.configDigest
    validateDigest "projection artifact" stamp.artifactDigest

end Vyrm.Vector
