import Vyrm.Core.Data
import Vyrm.Core.Runtime.Graph

/-!
# Embedding jobs

`crates/vyrm-embed/src/lib.rs`: a coordinator has a backend embed a source, and prepares the vector for the
commit that the job asks for.
-/

namespace Vyrm.Core
open Lib

/-- `DataTransaction::new` (`runtime.rs:640-648`). -/
def DataTransaction.new (read : ReadStamp) (commit : RuntimeCommit) : Except Error DataTransaction := do
  let transaction : DataTransaction := { contractVersion := dataRuntimeContractVersion, read, commit }
  transaction.validate
  return transaction

theorem DataTransaction.new_ok {read : ReadStamp} {commit : RuntimeCommit} {transaction : DataTransaction} :
    new read commit = .ok transaction ↔ (read.validate = .ok () ∧ commit.validate = .ok () ∧ read.scope = commit.scope ∧
      read.commitCursor = commit.expectedCursor) ∧ transaction = ⟨dataRuntimeContractVersion, read, commit⟩ := by
  simp only [new, validate, invalid, except_error_bind, except_bind_ok, except_reject_ok, except_pure, not_not,
    Except.ok.injEq]
  constructor
  · rintro ⟨⟨⟩, ⟨-, ⟨⟩, reads, ⟨⟩, commits, scope, cursor, -⟩, rfl⟩
    exact ⟨⟨reads, commits, scope, cursor⟩, rfl⟩
  · rintro ⟨⟨reads, commits, scope, cursor⟩, rfl⟩
    exact ⟨(), ⟨trivial, (), reads, (), commits, scope, cursor, trivial⟩, rfl⟩

/-- A commit of one vector is valid when the vector is, and the names of its properties. -/
theorem RuntimeCommit.validate_vector {commit : RuntimeCommit} {vector : RuntimeVector}
    (single : commit.mutations = [.vector vector]) : commit.validate = .ok () ↔
      validateText "runtime actor" commit.actor = .ok () ∧ vector.validate = .ok () ∧
        validateProperties vector.properties = .ok () := by
  simp only [validate, single, validateMutations, validateObject, invalid, except_pure, List.cons_ne_nil, if_false,
    List.not_mem_nil, except_bind_ok, Except.ok.injEq]
  constructor
  · rintro ⟨⟨⟩, actor, -, ⟨⟨⟩, checked, ⟨⟩, named, -⟩, -⟩
    exact ⟨actor, checked, named⟩
  · rintro ⟨actor, checked, named⟩
    exact ⟨(), actor, _, ⟨(), checked, (), named, rfl⟩, trivial⟩

end Vyrm.Core

namespace Vyrm.Embed
open Lib Vyrm.Core

/-! ## Models and backends -/

/-- `EMBEDDING_CONTRACT_VERSION` (`lib.rs:23`). -/
def embeddingContractVersion : UInt16 := 1

/-- `MAX_EMBEDDING_INPUT_BYTES` (`lib.rs:24`). -/
def maxEmbeddingInputBytes : Nat := 64 * 1024 * 1024

/-- `validate_text` (`lib.rs:523-530`). -/
def validateText (label value : String) : Except Error Unit :=
  if trimIsEmpty value ∨ (0 : UInt8) ∈ utf8 value then
    invalid s!"{label} must be non-empty and contain no NUL bytes"
  else .ok ()

/-- `validate_digest` (`lib.rs:532-541`). -/
def validateDigest (label value : String) : Except Error Unit :=
  let bytes := utf8 value
  if bytes.length ≠ 64 ∨ ¬ bytes.all fun byte => isDigit byte || (97 ≤ byte.toNat && byte.toNat ≤ 102) then
    invalid s!"{label} digest must be lowercase SHA-256 hex"
  else .ok ()

/-- `EmbeddingModality` (`lib.rs:27-30`). -/
inductive EmbeddingModality where
  | text
  | image
  deriving DecidableEq

/-- `NetworkPolicy` (`lib.rs:34-37`). -/
inductive NetworkPolicy where
  | deny
  | allow
  deriving DecidableEq

/-- `NetworkRequirement` (`lib.rs:41-44`). -/
inductive NetworkRequirement where
  | none
  | required
  deriving DecidableEq

/-- `ExecutionTarget` (`lib.rs:48-52`). -/
inductive ExecutionTarget where
  | cpu
  | gpu (platform device : String)
  | remote (provider : String)
  deriving DecidableEq

/-- `EmbeddingModelSpec` (`lib.rs:56-65`). -/
structure EmbeddingModelSpec where
  provider : String
  model : String
  revision : String
  modelDigest : String
  modality : EmbeddingModality
  dimensions : UInt32
  normalization : VectorNormalization
  maximumInputBytes : UInt64
  deriving DecidableEq

namespace EmbeddingModelSpec

/-- `validate` (`lib.rs:68-82`). -/
def validate (model : EmbeddingModelSpec) : Except Error Unit := do
  validateText "embedding provider" model.provider
  validateText "embedding model" model.model
  validateText "embedding revision" model.revision
  validateDigest "embedding model" model.modelDigest
  if model.dimensions = 0 ∨ 1048576 < model.dimensions then
    invalid "embedding model dimensions must be in 1..=1048576"
  if model.maximumInputBytes = 0 ∨ maxEmbeddingInputBytes < model.maximumInputBytes.toNat then
    invalid "embedding maximum input bytes must be in 1..=67108864"

/-- `canonical_name` (`lib.rs:84-86`). -/
def canonicalName (model : EmbeddingModelSpec) : String :=
  let provider := model.provider
  let name := model.model
  let revision := model.revision
  s!"{provider}/{name}@{revision}"

end EmbeddingModelSpec

/-- `EmbeddingBackendDescriptor` (`lib.rs:91-97`). -/
structure EmbeddingBackendDescriptor where
  id : String
  model : EmbeddingModelSpec
  execution : ExecutionTarget
  network : NetworkRequirement
  deterministic : Bool
  deriving DecidableEq

/-- `validate` (`lib.rs:100-117`). -/
def EmbeddingBackendDescriptor.validate (descriptor : EmbeddingBackendDescriptor) : Except Error Unit := do
  validateText "embedding backend id" descriptor.id
  descriptor.model.validate
  match descriptor.execution with
  | .cpu => pure ()
  | .gpu platform device =>
    validateText "embedding GPU platform" platform
    validateText "embedding GPU device" device
  | .remote provider =>
    validateText "embedding remote provider" provider
    if descriptor.network ≠ .required then invalid "remote embedding execution must require network access"

/-! ## Jobs -/

/-- `EmbeddingJob` (`lib.rs:122-140`). -/
structure EmbeddingJob where
  contractVersion : UInt16
  id : RuntimeId
  scope : ScopeId
  read : ReadStamp
  source : RuntimeRef
  expectedSourceDigest : String
  target : RuntimeRef
  subject : RuntimeRef
  field : String
  validFrom : Millis
  validTo : Option Millis
  model : EmbeddingModelSpec
  networkPolicy : NetworkPolicy
  requestedAt : Millis
  properties : RuntimeProperties
  deriving DecidableEq

namespace EmbeddingJob

/-- `vyrm-embedding-job-v1\0`. -/
def domain : Bytes := utf8 "vyrm-embedding-job-v1" ++ [0]

/-- `validate` (`lib.rs:143-160`). -/
def validate (job : EmbeddingJob) : Except Error Unit := do
  if job.contractVersion ≠ embeddingContractVersion then invalid "unsupported embedding job contract version"
  job.read.validate
  if job.read.scope ≠ job.scope then invalid "embedding job scope differs from its read stamp"
  validateDigest "embedding source" job.expectedSourceDigest
  validateText "embedding field" job.field
  if job.validTo.any (· ≤ job.validFrom) then
    invalid "embedding valid-time window must be half-open and non-empty"
  job.model.validate

/-- `digest` (`lib.rs:162-171`), over the JSON of a job. -/
def digest (toVec : EmbeddingJob → Bytes) (job : EmbeddingJob) : Except Error String := do
  job.validate
  return sha256Hex (domain ++ toVec job)

end EmbeddingJob

/-- `EmbeddingSourceSnapshot` (`lib.rs:175-180`). -/
structure EmbeddingSourceSnapshot where
  source : RuntimeRef
  mediaType : String
  bytes : Bytes
  digest : String
  deriving DecidableEq

/-- `validate` (`lib.rs:199-209`). -/
def EmbeddingSourceSnapshot.validate (snapshot : EmbeddingSourceSnapshot) : Except Error Unit := do
  validateText "embedding media type" snapshot.mediaType
  if snapshot.bytes = [] ∨ maxEmbeddingInputBytes < snapshot.bytes.length then
    invalid "embedding source bytes must be in 1..=67108864"
  validateDigest "embedding source" snapshot.digest
  if sha256Hex snapshot.bytes ≠ snapshot.digest then invalid "embedding source digest does not match its bytes"

/-- `EmbeddingRequest` (`lib.rs:217-223`). -/
structure EmbeddingRequest where
  jobId : RuntimeId
  jobDigest : String
  sourceDigest : String
  mediaType : String
  bytes : Bytes
  deriving DecidableEq

/-- `EmbeddingSourceReader`: what each read returns, by how many came before it. -/
abbrev EmbeddingSourceReader := Nat → RuntimeRef → Except Error EmbeddingSourceSnapshot

/-- `EmbeddingBackend` (`lib.rs:225-228`). -/
structure EmbeddingBackend where
  descriptor : EmbeddingBackendDescriptor
  embed : EmbeddingRequest → Except Error VectorValue

/-! ## Prepared embeddings -/

/-- `PreparedEmbedding` (`lib.rs:232-239`). -/
structure PreparedEmbedding where
  contractVersion : UInt16
  jobId : RuntimeId
  jobDigest : String
  scope : ScopeId
  backend : EmbeddingBackendDescriptor
  vector : RuntimeVector
  deriving DecidableEq

namespace PreparedEmbedding

/-- `validate` (`lib.rs:242-264`). -/
def validate (prepared : PreparedEmbedding) : Except Error Unit := do
  if prepared.contractVersion ≠ embeddingContractVersion then
    invalid "unsupported prepared embedding contract version"
  validateDigest "embedding job" prepared.jobDigest
  prepared.backend.validate
  prepared.vector.validate
  let provenance ← okOr prepared.vector.provenance (.invalidRuntime "prepared embedding has no provenance")
  let model := prepared.backend.model
  if provenance.model ≠ model.canonicalName ∨ provenance.modelDigest ≠ model.modelDigest ∨
      provenance.dimensions ≠ model.dimensions ∨ provenance.normalization ≠ model.normalization then
    invalid "prepared vector provenance differs from its backend model"

/-- `transaction` (`lib.rs:272-304`). -/
def transaction (toVec : EmbeddingJob → Bytes) (prepared : PreparedEmbedding) (job : EmbeddingJob) (actor : String)
    (at_ : Millis) : Except Error DataTransaction := do
  prepared.validate
  job.validate
  let digest ← job.digest toVec
  if digest ≠ prepared.jobDigest ∨ prepared.jobId ≠ job.id ∨ prepared.scope ≠ job.scope ∨
      prepared.vector.reference ≠ job.target ∨ prepared.vector.subject ≠ job.subject ∨
      prepared.vector.field ≠ job.field then
    invalid "prepared embedding differs from its source job"
  if at_ < job.requestedAt then invalid "embedding commit time precedes its request time"
  DataTransaction.new job.read
    { scope := job.scope, at_, actor, expectedCursor := job.read.commitCursor, mutations := [.vector prepared.vector] }

end PreparedEmbedding

/-! ## The coordinator -/

/-- `validate_source` (`lib.rs:490-513`). -/
def validateSource (job : EmbeddingJob) (snapshot : EmbeddingSourceSnapshot) : Except Error Unit := do
  snapshot.validate
  if snapshot.source ≠ job.source then invalid "embedding source reader returned the wrong identity"
  if snapshot.digest ≠ job.expectedSourceDigest then
    invalid "embedding source differs from the job's expected digest"
  if job.model.maximumInputBytes.toNat < snapshot.bytes.length then
    invalid "embedding source exceeds the requested model byte limit"
  match job.model.modality with
  | .text =>
    if ¬ snapshot.mediaType.startsWith "text/" ∧ snapshot.mediaType ≠ "application/json" then
      invalid "text embedding job received a non-text source"
  | .image =>
    if ¬ snapshot.mediaType.startsWith "image/" then invalid "image embedding job received a non-image source"

/-- `execution_name` (`lib.rs:515-521`). -/
def executionName : ExecutionTarget → String
  | .cpu => "cpu"
  | .gpu platform device => s!"gpu:{platform}:{device}"
  | .remote provider => s!"remote:{provider}"

/-- The parameters that a vector is generated with, by name (`lib.rs:350-366`). -/
def generationParameters (descriptor : EmbeddingBackendDescriptor) (jobDigest : String) : RuntimeProperties :=
  [("backend", .string descriptor.id), ("deterministic", .bool descriptor.deterministic),
   ("execution", .string (executionName descriptor.execution)), ("job_digest", .digest jobDigest)]

/-- What a job, a backend and its value make (`lib.rs:367-392`). -/
def assemble (job : EmbeddingJob) (jobDigest : String) (descriptor : EmbeddingBackendDescriptor) (sourceDigest : String)
    (value : VectorValue) : PreparedEmbedding :=
  let vector : RuntimeVector :=
    { reference := job.target
      subject := job.subject
      field := job.field
      validFrom := job.validFrom
      validTo := job.validTo
      value
      provenance := some
        { sourceDigest
          model := descriptor.model.canonicalName
          modelDigest := descriptor.model.modelDigest
          dimensions := descriptor.model.dimensions
          normalization := descriptor.model.normalization
          generationParameters := generationParameters descriptor jobDigest }
      properties := job.properties }
  { contractVersion := embeddingContractVersion, jobId := job.id, jobDigest, scope := job.scope,
    backend := descriptor, vector }

/-- `prepare` (`lib.rs:310-396`). -/
def prepare (toVec : EmbeddingJob → Bytes) (job : EmbeddingJob) (reader : EmbeddingSourceReader)
    (backend : EmbeddingBackend) : Except Error PreparedEmbedding := do
  job.validate
  let jobDigest ← job.digest toVec
  let descriptor := backend.descriptor
  descriptor.validate
  if descriptor.model ≠ job.model then invalid "embedding backend model differs from the requested model"
  if job.networkPolicy = .deny ∧ descriptor.network = .required then
    invalid "embedding job denies the network required by its backend"
  let before ← reader 0 job.source
  validateSource job before
  let request : EmbeddingRequest :=
    { jobId := job.id, jobDigest, sourceDigest := before.digest, mediaType := before.mediaType, bytes := before.bytes }
  let value ← backend.embed request
  let after ← reader 1 job.source
  after.validate
  if after.source ≠ job.source then invalid "embedding source reader returned the wrong identity"
  if after.digest ≠ request.sourceDigest then invalid "embedding source changed during inference"
  validateSource job after
  let prepared := assemble job jobDigest descriptor request.sourceDigest value
  prepared.validate
  return prepared

/-! ## What the checks compare -/

theorem hexDigit_lower : ∀ n : Fin 16, (isDigit (UInt8.ofNat (hexDigit n.val).toNat) ||
    (97 ≤ (UInt8.ofNat (hexDigit n.val).toNat).toNat && (UInt8.ofNat (hexDigit n.val).toNat).toNat ≤ 102)) = true := by
  decide

/-- What `sha256_hex` returns is in lowercase. -/
theorem sha256Hex_lower (input : Bytes) : (utf8 (sha256Hex input)).length = 64 ∧
    (utf8 (sha256Hex input)).all (fun byte => isDigit byte || (97 ≤ byte.toNat && byte.toNat ≤ 102)) = true := by
  refine ⟨by rw [sha256Hex, length_utf8_hex, length_sha256], ?_⟩
  rw [List.all_eq_true, sha256Hex, utf8_hex]
  intro byte member
  obtain ⟨c, listed, rfl⟩ := List.mem_map.mp member
  obtain ⟨byte, -, here⟩ := List.mem_flatMap.mp listed
  have bound := UInt8.toNat_lt byte
  simp only [List.mem_cons, List.not_mem_nil, or_false] at here
  rcases here with rfl | rfl
  · exact hexDigit_lower ⟨byte.toNat / 16, by omega⟩
  · exact hexDigit_lower ⟨byte.toNat % 16, by omega⟩

theorem validateDigest_sha256Hex (label : String) (input : Bytes) : validateDigest label (sha256Hex input) = .ok () := by
  obtain ⟨long, lower⟩ := sha256Hex_lower input
  simp [validateDigest, long, lower]

theorem data_validateDigest_sha256Hex (kind : String) (input : Bytes) :
    Data.validateDigest kind (sha256Hex input) = .ok () := by
  obtain ⟨long, lower⟩ := sha256Hex_lower input
  simp [Data.validateDigest, long, lower]

/-- A valid job reads its own scope. -/
theorem EmbeddingJob.reads_of_validate {job : EmbeddingJob} (valid : job.validate = .ok ()) :
    job.read.validate = .ok () ∧ job.read.scope = job.scope := by
  simp only [validate, invalid, except_error_bind, except_bind_ok, except_reject_ok, not_not] at valid
  obtain ⟨-, ⟨⟩, reads, inScope, -⟩ := valid
  exact ⟨reads, inScope⟩

namespace PreparedEmbedding

/-- The comparisons of `transaction`. -/
structure Names (toVec : EmbeddingJob → Bytes) (prepared : PreparedEmbedding) (job : EmbeddingJob) : Prop where
  digest : sha256Hex (EmbeddingJob.domain ++ toVec job) = prepared.jobDigest
  id : prepared.jobId = job.id
  scope : prepared.scope = job.scope
  target : prepared.vector.reference = job.target
  subject : prepared.vector.subject = job.subject
  field : prepared.vector.field = job.field

/-- The provenance of a vector says which model made it. -/
structure MadeBy (spec : EmbeddingModelSpec) (provenance : EmbeddingProvenance) : Prop where
  model : provenance.model = spec.canonicalName
  digest : provenance.modelDigest = spec.modelDigest
  dimensions : provenance.dimensions = spec.dimensions
  normalization : provenance.normalization = spec.normalization

theorem validate_ok {prepared : PreparedEmbedding} : prepared.validate = .ok () ↔
    prepared.contractVersion = embeddingContractVersion ∧ validateDigest "embedding job" prepared.jobDigest = .ok () ∧
    prepared.backend.validate = .ok () ∧ prepared.vector.validate = .ok () ∧
    ∃ provenance, prepared.vector.provenance = some provenance ∧ MadeBy prepared.backend.model provenance := by
  simp only [validate, invalid, except_error_bind, except_bind_ok, except_reject_ok, except_pure, okOr_ok, not_not, not_or]
  constructor
  · rintro ⟨version, ⟨⟩, digest, ⟨⟩, backend, ⟨⟩, vector, provenance, given, ⟨model, hash, dimensions, normalization⟩, -⟩
    exact ⟨version, digest, backend, vector, provenance, given, model, hash, dimensions, normalization⟩
  · rintro ⟨version, digest, backend, vector, provenance, given, made⟩
    exact ⟨version, (), digest, (), backend, (), vector, provenance, given,
      ⟨made.model, made.digest, made.dimensions, made.normalization⟩, trivial⟩

theorem transaction_ok {toVec : EmbeddingJob → Bytes} {prepared : PreparedEmbedding} {job : EmbeddingJob} {actor : String}
    {at_ : Millis} {transaction : DataTransaction} : prepared.transaction toVec job actor at_ = .ok transaction ↔
      prepared.validate = .ok () ∧ job.validate = .ok () ∧ prepared.Names toVec job ∧ job.requestedAt ≤ at_ ∧
      DataTransaction.new job.read
        { scope := job.scope, at_, actor, expectedCursor := job.read.commitCursor,
          mutations := [.vector prepared.vector] } = .ok transaction := by
  simp only [PreparedEmbedding.transaction, EmbeddingJob.digest, invalid, except_error_bind, except_bind_ok, except_reject_ok,
    except_pure, not_not, not_or, Except.ok.injEq, UInt64.not_lt]
  constructor
  · rintro ⟨⟨⟩, prepares, ⟨⟩, asks, _, ⟨-, -, rfl⟩, ⟨digest, id, scope, target, subject, field⟩, late, commits⟩
    exact ⟨prepares, asks, ⟨digest, id, scope, target, subject, field⟩, late, commits⟩
  · rintro ⟨prepares, asks, names, late, commits⟩
    exact ⟨(), prepares, (), asks, _, ⟨(), asks, rfl⟩,
      ⟨names.digest, names.id, names.scope, names.target, names.subject, names.field⟩, late, commits⟩

end PreparedEmbedding

theorem prepare_ok {toVec : EmbeddingJob → Bytes} {job : EmbeddingJob} {reader : EmbeddingSourceReader}
    {backend : EmbeddingBackend} {prepared : PreparedEmbedding}
    (made : prepare toVec job reader backend = .ok prepared) :
    job.validate = .ok () ∧ backend.descriptor.model = job.model ∧ prepared.validate = .ok () ∧
    ∃ value, prepared = assemble job (sha256Hex (EmbeddingJob.domain ++ toVec job)) backend.descriptor
      job.expectedSourceDigest value := by
  simp only [prepare, validateSource, EmbeddingJob.digest, invalid, except_error_bind, except_bind_ok, except_reject_ok,
    except_pure, not_not, Except.ok.injEq] at made
  obtain ⟨⟨⟩, asks, _, ⟨-, -, rfl⟩, ⟨⟩, -, model, -, before, -, ⟨⟩, ⟨⟨⟩, -, -, digest, -⟩, value, -, -, -, -, -, -, -, -, -, ⟨⟩,
    prepares, rfl⟩ := made
  rw [digest] at prepares ⊢
  exact ⟨asks, model, prepares, value, rfl⟩

/-! ## What is committed -/

/-- A vector is the one that a job asks for. -/
structure EmbeddingJob.Asks (job : EmbeddingJob) (vector : RuntimeVector) : Prop where
  target : vector.reference = job.target
  subject : vector.subject = job.subject
  field : vector.field = job.field
  validFrom : vector.validFrom = job.validFrom
  validTo : vector.validTo = job.validTo
  properties : vector.properties = job.properties
  provenance : ∃ provenance, vector.provenance = some provenance ∧
    provenance.sourceDigest = job.expectedSourceDigest ∧ PreparedEmbedding.MadeBy job.model provenance

/-- Two models that a provenance does not tell apart. -/
structure EmbeddingModelSpec.Same (model other : EmbeddingModelSpec) : Prop where
  name : model.canonicalName = other.canonicalName
  digest : model.modelDigest = other.modelDigest
  dimensions : model.dimensions = other.dimensions
  normalization : model.normalization = other.normalization

/-- What a prepared embedding and a job agree in that nothing compares: the window, the properties and the source
of the vector, and the model of the backend. -/
structure PreparedEmbedding.Carries (prepared : PreparedEmbedding) (job : EmbeddingJob) : Prop where
  validFrom : prepared.vector.validFrom = job.validFrom
  validTo : prepared.vector.validTo = job.validTo
  properties : prepared.vector.properties = job.properties
  source : ∀ provenance, prepared.vector.provenance = some provenance →
    provenance.sourceDigest = job.expectedSourceDigest
  model : prepared.backend.model.Same job.model

section

variable (toVec : EmbeddingJob → Bytes)

/-- The transaction commits the vector of the job exactly when the embedding agrees with the job in what the code
does not compare. -/
theorem PreparedEmbedding.asks_iff {prepared : PreparedEmbedding} {job : EmbeddingJob} {actor : String} {at_ : Millis}
    {transaction : DataTransaction} (made : prepared.transaction toVec job actor at_ = .ok transaction) :
    (∃ vector, transaction.commit.mutations = [.vector vector] ∧ job.Asks vector) ↔ prepared.Carries job := by
  obtain ⟨prepares, -, names, -, commits⟩ := transaction_ok.mp made
  obtain ⟨-, -, -, -, provenance, given, from_⟩ := validate_ok.mp prepares
  obtain ⟨-, rfl⟩ := DataTransaction.new_ok.mp commits
  constructor
  · rintro ⟨vector, same, asks⟩
    simp only [List.cons.injEq, RuntimeMutation.vector.injEq, and_true] at same
    subst same
    obtain ⟨other, also, source, by_⟩ := asks.provenance
    obtain rfl := Option.some.inj (given.symm.trans also)
    refine ⟨asks.validFrom, asks.validTo, asks.properties, ?_, ?_⟩
    · intro other also
      rwa [← Option.some.inj (given.symm.trans also)]
    · exact ⟨from_.model.symm.trans by_.model, from_.digest.symm.trans by_.digest,
        from_.dimensions.symm.trans by_.dimensions, from_.normalization.symm.trans by_.normalization⟩
  · intro carries
    refine ⟨_, rfl, names.target, names.subject, names.field, carries.validFrom, carries.validTo, carries.properties,
      provenance, given, carries.source _ given, ?_⟩
    exact ⟨from_.model.trans carries.model.name, from_.digest.trans carries.model.digest,
      from_.dimensions.trans carries.model.dimensions, from_.normalization.trans carries.model.normalization⟩

/-- What was prepared commits exactly when the names of the job's properties are valid, which `prepare` does not
check. -/
theorem prepare_commits_iff {job : EmbeddingJob} {reader : EmbeddingSourceReader} {backend : EmbeddingBackend}
    {prepared : PreparedEmbedding} (made : prepare toVec job reader backend = .ok prepared) :
    (∀ actor at_, Core.validateText "runtime actor" actor = .ok () → job.requestedAt ≤ at_ →
      ∃ transaction, prepared.transaction toVec job actor at_ = .ok transaction) ↔
    validateProperties job.properties = .ok () := by
  obtain ⟨asks, model, prepares, value, rfl⟩ := prepare_ok made
  obtain ⟨-, -, -, valid, -⟩ := PreparedEmbedding.validate_ok.mp prepares
  constructor
  · intro commits
    obtain ⟨transaction, committed⟩ := commits "a" job.requestedAt (by decide) (UInt64.le_refl _)
    obtain ⟨-, -, -, -, news⟩ := PreparedEmbedding.transaction_ok.mp committed
    obtain ⟨⟨-, checked, -⟩, -⟩ := DataTransaction.new_ok.mp news
    exact ((RuntimeCommit.validate_vector rfl).mp checked).2.2
  · intro named actor at_ acts late
    obtain ⟨reads, inScope⟩ := EmbeddingJob.reads_of_validate asks
    have checked : ∀ vector : RuntimeVector, vector.validate = .ok () → vector.properties = job.properties →
        RuntimeCommit.validate { scope := job.scope, at_, actor, expectedCursor := job.read.commitCursor,
                                 mutations := [.vector vector] } = .ok () := by
      intro vector valid same
      exact (RuntimeCommit.validate_vector rfl).mpr ⟨acts, valid, same ▸ named⟩
    have checked := checked _ valid rfl
    have news := DataTransaction.new_ok.mpr ⟨⟨reads, checked, inScope, rfl⟩, rfl⟩
    exact ⟨_, PreparedEmbedding.transaction_ok.mpr ⟨prepares, asks, ⟨rfl, rfl, rfl, rfl, rfl, rfl⟩, late, news⟩⟩

/-- An embedding transaction: it commits the vector of the job exactly when the embedding agrees with the job in
what is not compared, and what was prepared is committed by every actor from the request on exactly when the names
of the job's properties are valid. -/
theorem embedding_transaction :
    (∀ (job : EmbeddingJob) (prepared : PreparedEmbedding) (actor : String) (at_ : Millis) (transaction : DataTransaction),
      prepared.transaction toVec job actor at_ = .ok transaction →
        ((∃ vector, transaction.commit.mutations = [.vector vector] ∧ job.Asks vector) ↔ prepared.Carries job)) ∧
    ∀ (job : EmbeddingJob) (reader : EmbeddingSourceReader) (backend : EmbeddingBackend) (prepared : PreparedEmbedding),
      prepare toVec job reader backend = .ok prepared →
        ((∀ actor at_, Core.validateText "runtime actor" actor = .ok () → job.requestedAt ≤ at_ →
          ∃ transaction, prepared.transaction toVec job actor at_ = .ok transaction) ↔
        validateProperties job.properties = .ok ()) :=
  ⟨fun _ _ _ _ _ made => PreparedEmbedding.asks_iff toVec made, fun _ _ _ _ made => prepare_commits_iff toVec made⟩

end

/-! ## A job -/

def sampleScope : ScopeId := .lit "docs" (Eq.refl true)

def sampleRead : ReadStamp :=
  let stamp : ReadStamp :=
    { contractVersion := dataRuntimeContractVersion, scope := sampleScope, schemaRevision := none, catalogRevision := 0,
      commitCursor := 0, headDigest := none, manifestId := "" }
  { stamp with manifestId := sha256Hex stamp.manifestBytes }

def sampleModel : EmbeddingModelSpec :=
  { provider := "local", model := "tiny", revision := "1", modelDigest := sha256Hex [1], modality := .text,
    dimensions := 1, normalization := .none, maximumInputBytes := 16 }

/-- A job over a source of two bytes. -/
def sampleJob (properties : RuntimeProperties) : EmbeddingJob :=
  { contractVersion := embeddingContractVersion
    id := .lit "job" (Eq.refl true)
    scope := sampleScope
    read := sampleRead
    source := ⟨.lit "text" (Eq.refl true), .lit "1" (Eq.refl true)⟩
    expectedSourceDigest := sha256Hex [104, 105]
    target := ⟨.lit "vector" (Eq.refl true), .lit "1" (Eq.refl true)⟩
    subject := ⟨.lit "text" (Eq.refl true), .lit "1" (Eq.refl true)⟩
    field := "body"
    validFrom := 1
    validTo := none
    model := sampleModel
    networkPolicy := .deny
    requestedAt := 5
    properties }

/-- The JSON of the job without properties, and of the one with a property that has no name. -/
def sampleJson (job : EmbeddingJob) : Bytes :=
  let read := "\x7b\"contract_version\":1,\"scope\":\"docs\",\"catalog_revision\":0,\"commit_cursor\":0,\"manifest_id\":\"" ++
    job.read.manifestId ++ "\"\x7d"
  let model := "\x7b\"provider\":\"local\",\"model\":\"tiny\",\"revision\":\"1\",\"model_digest\":\"" ++
    job.model.modelDigest ++ "\",\"modality\":\"text\",\"dimensions\":1,\"normalization\":\"none\",\"maximum_input_bytes\":16\x7d"
  let properties := if job.properties = [] then "\x7b\x7d" else "\x7b\"\":\x7b\"type\":\"null\"\x7d\x7d"
  utf8 ("\x7b\"contract_version\":1,\"id\":\"job\",\"scope\":\"docs\",\"read\":" ++ read ++
    ",\"source\":\x7b\"kind\":\"text\",\"id\":\"1\"\x7d,\"expected_source_digest\":\"" ++ job.expectedSourceDigest ++
    "\",\"target\":\x7b\"kind\":\"vector\",\"id\":\"1\"\x7d,\"subject\":\x7b\"kind\":\"text\",\"id\":\"1\"\x7d" ++
    ",\"field\":\"body\",\"valid_from\":1,\"model\":" ++ model ++
    ",\"network_policy\":\"deny\",\"requested_at\":5,\"properties\":" ++ properties ++ "\x7d")

def sampleReader : EmbeddingSourceReader := fun _ source =>
  .ok { source, mediaType := "text/plain", bytes := [104, 105], digest := sha256Hex [104, 105] }

def sampleBackend : EmbeddingBackend :=
  { descriptor := { id := "cpu", model := sampleModel, execution := .cpu, network := .none, deterministic := true }
    embed := fun _ => .ok (.dense [0x3f800000]) }

/-- What is prepared for a job. -/
def samplePrepared (properties : RuntimeProperties) : PreparedEmbedding :=
  assemble (sampleJob properties) (sha256Hex (EmbeddingJob.domain ++ sampleJson (sampleJob properties)))
    sampleBackend.descriptor (sha256Hex [104, 105]) (.dense [0x3f800000])

theorem sampleModel_valid : sampleModel.validate = .ok () := by
  have texts : ∀ text ∈ [("embedding provider", "local"), ("embedding model", "tiny"), ("embedding revision", "1")],
      validateText text.1 text.2 = .ok () := by decide
  simp only [EmbeddingModelSpec.validate, sampleModel, texts _ (List.mem_cons_self ..), validateDigest_sha256Hex]
  rfl

theorem sampleJob_valid (properties : RuntimeProperties) : (sampleJob properties).validate = .ok () := by
  have reads : sampleRead.validate = .ok () := ReadStamp.validate_sealed rfl
  have field : validateText "embedding field" "body" = .ok () := by decide
  simp only [EmbeddingJob.validate, sampleJob, reads, validateDigest_sha256Hex, field, sampleModel_valid]
  rfl

theorem sampleBackend_valid : sampleBackend.descriptor.validate = .ok () := by
  have text : validateText "embedding backend id" "cpu" = .ok () := by decide
  simp only [EmbeddingBackendDescriptor.validate, sampleBackend, text, sampleModel_valid]
  rfl

/-- The vector is valid from every instant on. -/
theorem samplePrepared_valid (properties : RuntimeProperties) (validFrom : Millis) :
    PreparedEmbedding.validate
      { samplePrepared properties with vector := { (samplePrepared properties).vector with validFrom } } = .ok () := by
  refine PreparedEmbedding.validate_ok.mpr
    ⟨rfl, validateDigest_sha256Hex _ _, sampleBackend_valid, ?_, _, rfl, rfl, rfl, rfl, rfl⟩
  have shape : VectorValue.validate (.dense [0x3f800000]) = .ok () := by decide
  have field : Data.validateText "vector field" "body" = .ok () := by decide
  have name : Data.validateText "embedding model" sampleModel.canonicalName = .ok () := by decide +kernel
  have window : Data.validateWindow validFrom none = .ok () := rfl
  have digest : Data.validateDigest "embedding model" sampleModel.modelDigest = .ok () :=
    data_validateDigest_sha256Hex _ _
  have size : sampleModel.dimensions.toNat = 1 := rfl
  have normalization : sampleModel.normalization = .none := rfl
  simp [samplePrepared, assemble, sampleJob, sampleBackend, RuntimeVector.validate, field, shape, window,
    EmbeddingProvenance.validate, data_validateDigest_sha256Hex, digest, name, size, normalization, VectorValue.dimensions]

theorem samplePrepared_made (properties : RuntimeProperties) :
    prepare sampleJson (sampleJob properties) sampleReader sampleBackend = .ok (samplePrepared properties) := by
  have asks := sampleJob_valid properties
  have snapshot : EmbeddingSourceSnapshot.validate ⟨(sampleJob properties).source, "text/plain", [104, 105],
      sha256Hex [104, 105]⟩ = .ok () := by
    have media : validateText "embedding media type" "text/plain" = .ok () := by decide
    simp [EmbeddingSourceSnapshot.validate, media, validateDigest_sha256Hex, maxEmbeddingInputBytes]
  have source : validateSource (sampleJob properties) ⟨(sampleJob properties).source, "text/plain", [104, 105],
      sha256Hex [104, 105]⟩ = .ok () := by
    have prefix_ : "text/plain".startsWith "text/" = true := by decide +kernel
    have short : ¬ sampleModel.maximumInputBytes.toNat < 2 := by decide
    have modality : sampleModel.modality = .text := rfl
    simp only [sampleJob] at snapshot
    simp [validateSource, snapshot, sampleJob, prefix_, short, modality]
  have spec : sampleBackend.descriptor.model = (sampleJob properties).model := rfl
  have network : sampleBackend.descriptor.network = .none := rfl
  have value : ∀ request, sampleBackend.embed request = .ok (.dense [0x3f800000]) := fun _ => rfl
  have read : ∀ n source, sampleReader n source = .ok ⟨source, "text/plain", [104, 105], sha256Hex [104, 105]⟩ :=
    fun _ _ => rfl
  have prepares : (samplePrepared properties).validate = .ok () := samplePrepared_valid properties 1
  rw [samplePrepared] at prepares ⊢
  simp [prepare, asks, EmbeddingJob.digest, sampleBackend_valid, spec, network, value, read, source, snapshot, prepares]

/-- An embedding from outside, whose vector becomes valid later. -/
def foreignPrepared : PreparedEmbedding :=
  { samplePrepared [] with vector := { (samplePrepared []).vector with validFrom := 2 } }

/-- A transaction commits a vector of another window, and what was prepared for a job with a nameless property is
not committed. -/
theorem embedding_transaction_fails :
    (∃ transaction vector, foreignPrepared.transaction sampleJson (sampleJob []) "clerk" 5 = .ok transaction ∧
      transaction.commit.mutations = [.vector vector] ∧ ¬ (sampleJob []).Asks vector) ∧
    prepare sampleJson (sampleJob [("", .null)]) sampleReader sampleBackend = .ok (samplePrepared [("", .null)]) ∧
    ∀ transaction, (samplePrepared [("", .null)]).transaction sampleJson (sampleJob [("", .null)]) "clerk" 5 ≠
      .ok transaction := by
  have asks := sampleJob_valid []
  obtain ⟨reads, inScope⟩ := EmbeddingJob.reads_of_validate asks
  have foreign := samplePrepared_valid [] 2
  obtain ⟨-, -, -, valid, -⟩ := PreparedEmbedding.validate_ok.mp foreign
  refine ⟨?_, samplePrepared_made _, ?_⟩
  · have commit : RuntimeCommit.validate
        { scope := sampleScope, at_ := 5, actor := "clerk", expectedCursor := 0,
          mutations := [.vector foreignPrepared.vector] } = .ok () :=
      (RuntimeCommit.validate_vector rfl).mpr ⟨by decide, valid, rfl⟩
    have news := DataTransaction.new_ok.mpr ⟨⟨reads, commit, inScope, rfl⟩, rfl⟩
    refine ⟨_, foreignPrepared.vector, PreparedEmbedding.transaction_ok.mpr
      ⟨foreign, asks, ⟨rfl, rfl, rfl, rfl, rfl, rfl⟩, by decide, news⟩, rfl, ?_⟩
    intro same
    exact absurd same.validFrom (by decide)
  · intro transaction made
    obtain ⟨-, -, -, -, news⟩ := PreparedEmbedding.transaction_ok.mp made
    obtain ⟨⟨-, checked, -⟩, -⟩ := DataTransaction.new_ok.mp news
    have named := ((RuntimeCommit.validate_vector rfl).mp checked).2.2
    exact absurd named (by decide)

/-- The transaction of a job without properties. -/
theorem embedding_transaction_sample : ∃ transaction,
    (samplePrepared []).transaction sampleJson (sampleJob []) "clerk" 5 = .ok transaction ∧
    ∃ vector, transaction.commit.mutations = [.vector vector] ∧ (sampleJob []).Asks vector := by
  obtain ⟨commits, prepares⟩ := embedding_transaction sampleJson
  obtain ⟨transaction, made⟩ :=
    (prepares _ _ _ _ (samplePrepared_made [])).mpr rfl "clerk" 5 (by decide) (UInt64.le_refl _)
  refine ⟨transaction, made, (commits _ _ _ _ _ made).mpr ⟨rfl, rfl, rfl, ?_, rfl, rfl, rfl, rfl⟩⟩
  intro provenance given
  obtain rfl := Option.some.inj given
  rfl

end Vyrm.Embed
