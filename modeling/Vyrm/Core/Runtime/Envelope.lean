import Vyrm.Core.Runtime.Graph

/-!
# What a commit leaves behind

`crates/vyrm-core/src/runtime.rs`: the outcome of an accepted commit, the work it
queues for projections, its audit envelope, and pages of the change log.
-/

namespace Vyrm.Core
open Lib

/-- `RuntimeCommitOutcome` (`runtime.rs:351-359`). -/
structure RuntimeCommitOutcome where
  commitId : String
  firstCursor : UInt64
  lastCursor : UInt64
  count : Nat
  firstClaimSequence : Option UInt64
  lastClaimSequence : Option UInt64
  outboxCount : Nat
  deriving DecidableEq, Repr

/-- `RuntimeChangePage` (`runtime.rs:1182-1188`). -/
structure RuntimeChangePage where
  requestedAfter : UInt64
  throughCursor : UInt64
  headCursor : UInt64
  changes : List RuntimeChange
  deriving DecidableEq

/-! ## Projection work -/

/-- `ProjectionFamily` (`runtime.rs:918-926`). -/
inductive ProjectionFamily where
  | scalar
  | graph
  | text
  | vector
  | timeSeries
  | geo
  | object
  deriving DecidableEq, Repr

/-- `projection_family_tag` (`runtime.rs:992-1002`). -/
def ProjectionFamily.tag : ProjectionFamily → UInt8
  | .scalar => 0
  | .graph => 1
  | .text => 2
  | .vector => 3
  | .timeSeries => 4
  | .geo => 5
  | .object => 6

/-- `projection_family` (`runtime.rs:1006-1018`). -/
def projectionFamily : RuntimeMutation → Option ProjectionFamily
  | .record _ => some .scalar
  | .relation _ => some .graph
  | .event _ => some .graph
  | .vector _ => some .vector
  | .seriesSample _ => some .timeSeries
  | .geo _ => some .geo
  | .object _ => some .object
  | .claim _ => none
  | .schema _ => none

/-- `ProjectionWork` (`runtime.rs:932-940`). -/
structure ProjectionWork where
  contractVersion : UInt16
  id : OutboxId
  scope : ScopeId
  sourceCursor : UInt64
  commitId : String
  commitOrdinal : UInt64
  family : ProjectionFamily
  deriving DecidableEq

namespace ProjectionWork

/-- `vyrm-projection-work-v1\0`. -/
def domain : Bytes :=
  [0x76, 0x79, 0x72, 0x6d, 0x2d, 0x70, 0x72, 0x6f, 0x6a, 0x65, 0x63, 0x74, 0x69, 0x6f, 0x6e, 0x2d,
   0x77, 0x6f, 0x72, 0x6b, 0x2d, 0x76, 0x31, 0x00]

/-- The bytes an outbox identity is the digest of (`runtime.rs:957-962`). -/
def identityBytes (scope : ScopeId) (sourceCursor : UInt64) (commitId : String) (commitOrdinal : UInt64)
    (family : ProjectionFamily) : Bytes :=
  domain ++ Core.text scope.asStr ++ be64 sourceCursor ++ Core.text commitId ++ be64 commitOrdinal ++
    [family.tag]

/-- `for_change` (`runtime.rs:943-973`). -/
def forChange (scope : ScopeId) (sourceCursor : UInt64) (commitId : String) (commitOrdinal : UInt64)
    (family : ProjectionFamily) : Except Error ProjectionWork := do
  validateDigest "outbox commit" commitId
  if sourceCursor = 0 then invalid "outbox source cursor must be greater than zero"
  let id ← Ident.new .outboxId
    (sha256Hex (identityBytes scope sourceCursor commitId commitOrdinal family))
  return { contractVersion := dataRuntimeContractVersion, id, scope, sourceCursor, commitId,
           commitOrdinal, family }

/-- `validate` (`runtime.rs:975-989`). -/
def validate (work : ProjectionWork) : Except Error Unit := do
  let rebuilt ← forChange work.scope work.sourceCursor work.commitId work.commitOrdinal work.family
  if work.contractVersion ≠ dataRuntimeContractVersion ∨ rebuilt.id ≠ work.id then
    invalid "outbox identity or contract version is invalid"

end ProjectionWork

/-! ## Audit envelopes -/

/-- `AuditDecision` (`runtime.rs:1046-1049`). -/
inductive AuditDecision where
  | allow
  | deny
  deriving DecidableEq, Repr

/-- The tag of a decision (`runtime.rs:1168-1171`). -/
def AuditDecision.tag : AuditDecision → UInt8
  | .allow => 1
  | .deny => 2

/-- `AuditEnvelope` (`runtime.rs:1054-1073`). -/
structure AuditEnvelope where
  contractVersion : UInt16
  requestId : String
  parentRequestId : Option String
  at_ : Millis
  actor : String
  scope : ScopeId
  operation : String
  resource : String
  read : Option ReadStamp
  decision : AuditDecision
  outcomeCursor : Option UInt64
  durationMs : UInt64
  previousDigest : Option String
  digest : String
  deriving DecidableEq

namespace AuditEnvelope

/-- `vyrm-audit-envelope-v1\0`. -/
def domain : Bytes :=
  [0x76, 0x79, 0x72, 0x6d, 0x2d, 0x61, 0x75, 0x64, 0x69, 0x74, 0x2d, 0x65, 0x6e, 0x76, 0x65, 0x6c,
   0x6f, 0x70, 0x65, 0x2d, 0x76, 0x31, 0x00]

/-- `bytes_without_digest` (`runtime.rs:1152-1177`). -/
def bytesWithoutDigest (envelope : AuditEnvelope) : Bytes :=
  domain ++ be16 envelope.contractVersion ++ text envelope.requestId ++
    optionalText envelope.parentRequestId ++ be64 envelope.at_ ++ text envelope.actor ++
    text envelope.scope.asStr ++ text envelope.operation ++ text envelope.resource ++
    optional (fun read => prefixed read.canonicalBytes) envelope.read ++
    [envelope.decision.tag] ++
    encodeOptionalU64 envelope.outcomeCursor ++ be64 envelope.durationMs ++
    optionalText envelope.previousDigest

/-- `validate_components` (`runtime.rs:1116-1150`). -/
def validateComponents (envelope : AuditEnvelope) : Except Error Unit := do
  let version := envelope.contractVersion
  if version ≠ dataRuntimeContractVersion then
    invalid s!"unsupported audit contract version {version}"
  [("audit request id", envelope.requestId), ("audit actor", envelope.actor),
    ("audit operation", envelope.operation), ("audit resource", envelope.resource)].forM
      fun (kind, value) => validateText kind value
  match envelope.parentRequestId with
  | some parent => validateText "audit parent request id" parent
  | none => pure ()
  match envelope.read with
  | some read =>
    read.validate
    if read.scope ≠ envelope.scope then
      invalid "audit read stamp scope differs from audit scope"
  | none => pure ()
  match envelope.previousDigest with
  | some previous => validateDigest "previous audit envelope" previous
  | none => pure ()

/-- `seal` (`runtime.rs:1101-1105`). -/
def «seal» (envelope : AuditEnvelope) : Except Error AuditEnvelope := do
  envelope.validateComponents
  return { envelope with digest := sha256Hex envelope.bytesWithoutDigest }

/-- `validate` (`runtime.rs:1107-1116`). -/
def validate (envelope : AuditEnvelope) : Except Error Unit := do
  envelope.validateComponents
  validateDigest "audit envelope" envelope.digest
  if envelope.digest ≠ sha256Hex envelope.bytesWithoutDigest then
    invalid "audit envelope digest does not match its fields"

/-- The envelope that `accepted_commit` seals (`runtime.rs:1082-1095`). -/
def ofCommit (commit : RuntimeCommit) (commitId : String) (outcomeCursor : UInt64)
    (previousDigest : Option String) : AuditEnvelope :=
  { contractVersion := dataRuntimeContractVersion, requestId := commitId, parentRequestId := none,
    at_ := commit.at_, actor := commit.actor, scope := commit.scope, operation := "runtime.commit",
    resource := "transaction:" ++ commitId, read := none, decision := .allow,
    outcomeCursor := some outcomeCursor, durationMs := 0, previousDigest, digest := "" }

/-- `accepted_commit` (`runtime.rs:1076-1099`). -/
def acceptedCommit (commit : RuntimeCommit) (commitId : String) (outcomeCursor : UInt64)
    (previousDigest : Option String) : Except Error AuditEnvelope :=
  (ofCommit commit commitId outcomeCursor previousDigest).seal

end AuditEnvelope

/-! ## Work and envelopes of an accepted commit

Everything a commit leaves behind is named by its digest, which passes every check of a name; so
once a commit is accepted nothing of this can fail. -/

/-- Text that passes for a digest, whatever it is the digest of. -/
def IsDigest (value : String) : Prop := ∀ kind, validateDigest kind value = .ok ()

theorem isDigest_sha256Hex (input : Bytes) : IsDigest (sha256Hex input) :=
  fun kind => validateDigest_sha256Hex kind input

theorem RuntimeCommit.isDigest_digest (commit : RuntimeCommit) : IsDigest commit.digest :=
  isDigest_sha256Hex _

/-- Text that passes for a digest passes for an identifier. -/
theorem IsDigest.identifier {value : String} (isDigest : IsDigest value) :
    value ≠ "" ∧ sep ∉ utf8 value := by
  have digest := isDigest ""
  unfold validateDigest at digest
  split at digest
  · cases digest
  rename_i accepted
  rw [not_or, not_not, not_not, List.all_eq_true] at accepted
  obtain ⟨length, digits⟩ := accepted
  constructor
  · rintro rfl
    simp [utf8] at length
  · intro member
    have := digits sep member
    simp [isHexDigit, isDigit, sep] at this

/-- Work for a change of a commit that is named by a digest. -/
theorem ProjectionWork.forChange_ok {scope : ScopeId} {cursor ordinal : UInt64} {commitId : String}
    {family : ProjectionFamily} (isDigest : IsDigest commitId) (positive : cursor ≠ 0) :
    ∃ work, forChange scope cursor commitId ordinal family = .ok work ∧
      work.sourceCursor = cursor ∧ work.validate = .ok () := by
  have inner := isDigest_sha256Hex (identityBytes scope cursor commitId ordinal family)
  let id : OutboxId := ⟨_, inner.identifier.1, inner.identifier.2⟩
  have made : Ident.new .outboxId (sha256Hex (identityBytes scope cursor commitId ordinal family)) =
      .ok id := Ident.new_asStr id
  have built : forChange scope cursor commitId ordinal family = .ok
      { contractVersion := dataRuntimeContractVersion, id, scope, sourceCursor := cursor, commitId,
        commitOrdinal := ordinal, family } := by
    rw [forChange, isDigest, made]
    simp [positive]
  refine ⟨_, built, rfl, ?_⟩
  rw [validate, built]
  simp

/-- An envelope with valid components is valid once it is sealed. -/
theorem AuditEnvelope.validate_sealed {envelope : AuditEnvelope}
    (components : envelope.validateComponents = .ok ()) :
    { envelope with digest := sha256Hex envelope.bytesWithoutDigest }.validate = .ok () := by
  have same : ∀ digest, { envelope with digest }.validateComponents = .ok () := fun _ => components
  have bytes : ∀ digest, { envelope with digest }.bytesWithoutDigest = envelope.bytesWithoutDigest :=
    fun _ => rfl
  rw [validate, same, bytes (sha256Hex envelope.bytesWithoutDigest), validateDigest_sha256Hex]
  simp

theorem AuditEnvelope.components_ofCommit {commit : RuntimeCommit} {commitId : String} {cursor : UInt64}
    {previousDigest : Option String} (actor : commit.actor ≠ "" ∧ sep ∉ utf8 commit.actor)
    (isDigest : IsDigest commitId) (previous : ∀ digest ∈ previousDigest, IsDigest digest) :
    (ofCommit commit commitId cursor previousDigest).validateComponents = .ok () := by
  have resource : "transaction:" ++ commitId ≠ "" ∧ sep ∉ utf8 ("transaction:" ++ commitId) := by
    constructor
    · intro empty
      have := congrArg (fun text => (utf8 text).length) empty
      simp [utf8] at this
    · rw [utf8_append, List.mem_append, not_or]
      exact ⟨by decide, isDigest.identifier.2⟩
  have operation : "runtime.commit" ≠ "" ∧ sep ∉ utf8 "runtime.commit" := by decide
  have accepts : ∀ {value : String}, value ≠ "" ∧ sep ∉ utf8 value →
      ∀ kind, validateIdentifier kind value = .ok () := fun valid _ => validateIdentifier_ok_iff.mpr valid
  unfold validateComponents ofCommit
  cases previousDigest with
  | none =>
    simp [validateText, accepts isDigest.identifier, accepts actor, accepts operation, accepts resource]
  | some digest =>
    simp [validateText, accepts isDigest.identifier, accepts actor, accepts operation, accepts resource,
      previous digest rfl _]

/-- The envelope of a commit that is named by a digest. -/
theorem AuditEnvelope.acceptedCommit_ok {commit : RuntimeCommit} {commitId : String} {cursor : UInt64}
    {previousDigest : Option String} (actor : commit.actor ≠ "" ∧ sep ∉ utf8 commit.actor)
    (isDigest : IsDigest commitId) (previous : ∀ digest ∈ previousDigest, IsDigest digest) :
    ∃ envelope, acceptedCommit commit commitId cursor previousDigest = .ok envelope ∧
      envelope.requestId = commitId ∧ envelope.previousDigest = previousDigest ∧
      IsDigest envelope.digest ∧ envelope.validate = .ok () := by
  have components : (ofCommit commit commitId cursor previousDigest).validateComponents = .ok () :=
    components_ofCommit actor isDigest previous
  have sealed : acceptedCommit commit commitId cursor previousDigest =
      .ok { ofCommit commit commitId cursor previousDigest with
        digest := sha256Hex (ofCommit commit commitId cursor previousDigest).bytesWithoutDigest } := by
    rw [acceptedCommit, «seal», components]
    simp
  exact ⟨_, sealed, rfl, rfl, isDigest_sha256Hex _, validate_sealed components⟩

end Vyrm.Core
