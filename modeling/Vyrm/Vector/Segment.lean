import Vyrm.Core.Runtime.Graph
import Vyrm.Vector.Exact

/-!
# Exact segments

`crates/vyrm-vector/src/segment.rs` and `compact.rs`: the two immutable artifacts that answer exact
searches. An artifact can only be made of a body that passed every check, so it is the body together
with that fact. The JSON encodings and what is hashed of them are parameters, and so is the kernel
that scores the rows of a compact segment.
-/

namespace Vyrm.Vector
open Lib Vyrm.Core

/-- `VectorSegmentConfig` (`segment.rs:19-31`). -/
structure VectorSegmentConfig where
  id : ProjectionId
  scope : ScopeId
  field : String
  dimensions : Nat
  metric : ScoreMetric
  embeddingModel : Option EmbeddingModelBinding
  filterProperties : List String
  deriving DecidableEq

/-- `VectorSegmentConfig::validate` (`segment.rs:34-53`). -/
def VectorSegmentConfig.validate (config : VectorSegmentConfig) : Except Error Unit :=
  if ¬ FilterCondition.isName config.field then
    invalid "vector segment field must be non-empty and contain no NUL bytes"
  else if config.dimensions = 0 ∨ maxVectorDimensions < config.dimensions then
    invalid "vector segment dimensions must be in 1..=1048576"
  else if ∃ property ∈ config.filterProperties, ¬ FilterCondition.isName property then
    invalid "vector segment filter properties must be valid names"
  else validateModel config.embeddingModel

/-- `AccessPathKind` (`plan.rs:10-14`). -/
inductive AccessPathKind where
  | exactScan
  | exactSegment
  | hnsw
  deriving DecidableEq, Repr

/-- `CandidatePath` (`plan.rs:22-35`). -/
structure CandidatePath where
  stamp : ProjectionStamp
  kind : AccessPathKind
  field : String
  dimensions : Nat
  metric : ScoreMetric
  embeddingModel : Option EmbeddingModelBinding
  filterProperties : List String
  estimatedCandidates : Nat
  estimatedCost : Nat
  deriving DecidableEq

/-- `MAX_VECTOR_SEGMENT_CANDIDATES` and `MAX_CANDIDATES` (`segment.rs:17`, `compact.rs:31`). -/
def maxVectorSegmentCandidates : Nat := 10000000

/-- `MAX_VECTOR_SEGMENT_BYTES` and `MAX_ARTIFACT_BYTES` (`segment.rs:16`, `compact.rs:30`). -/
def maxVectorSegmentBytes : Nat := 2 ^ 30

/-- `SegmentDescriptor` (`segment.rs:64-78`). -/
structure SegmentDescriptor where
  stamp : ProjectionStamp
  scope : ScopeId
  field : String
  dimensions : Nat
  metric : ScoreMetric
  embeddingModel : Option EmbeddingModelBinding
  filterProperties : List String
  minimumCursor : UInt64
  candidateVersions : Nat
  deriving DecidableEq

namespace SegmentDescriptor

/-- `SegmentDescriptor::validate` (`segment.rs:81-96`). -/
def validate (descriptor : SegmentDescriptor) : Except Error Unit := do
  descriptor.stamp.validate
  if descriptor.stamp.sourceCursor < descriptor.minimumCursor then
    invalid "vector segment cursor interval is inverted"
  else if descriptor.minimumCursor ≠ 0 then
    invalid "exact vector segment must cover history from cursor zero"
  else if descriptor.dimensions = 0 ∨ maxVectorSegmentCandidates < descriptor.candidateVersions then
    invalid "vector segment dimensions or candidate count is invalid"
  else validateModel descriptor.embeddingModel

/-- `SegmentDescriptor::candidate_path` (`segment.rs:98-110`). -/
def candidatePath (descriptor : SegmentDescriptor) (estimatedCost : Nat) : CandidatePath :=
  { stamp := descriptor.stamp
    kind := .exactSegment
    field := descriptor.field
    dimensions := descriptor.dimensions
    metric := descriptor.metric
    embeddingModel := descriptor.embeddingModel
    filterProperties := descriptor.filterProperties
    estimatedCandidates := descriptor.candidateVersions
    estimatedCost }

/-- What an artifact checks of a request before it serves it (`segment.rs:264-273`, `compact.rs:320-328`). -/
def Serves (descriptor : SegmentDescriptor) (request : SearchRequest) : Prop :=
  descriptor.stamp.state = .ready ∧ descriptor.scope = request.scope ∧ descriptor.field = request.field ∧
    descriptor.metric = request.metric ∧ descriptor.embeddingModel = request.embeddingModel ∧
    descriptor.dimensions = request.query.dimensions ∧
    request.read.commitCursor ≤ descriptor.stamp.sourceCursor

instance (descriptor : SegmentDescriptor) (request : SearchRequest) : Decidable (descriptor.Serves request) :=
  inferInstanceAs (Decidable (_ ∧ _ ∧ _ ∧ _ ∧ _ ∧ _ ∧ _))

end SegmentDescriptor

/-- `SegmentBody` (`segment.rs:113-121`). -/
structure SegmentBody where
  config : VectorSegmentConfig
  generation : Nat
  sourceCursor : UInt64
  minimumCursor : UInt64
  candidates : List VectorCandidate
  deriving DecidableEq

/-- `DenseCandidateMetadata` (`compact.rs:57-72`). -/
structure DenseCandidateMetadata where
  scope : ScopeId
  sourceCursor : UInt64
  reference : RuntimeRef
  subject : RuntimeRef
  field : String
  validFrom : Millis
  validTo : Option Millis
  provenance : Option EmbeddingProvenance
  properties : RuntimeProperties
  deriving DecidableEq

/-- `DenseMetadata` (`compact.rs:47-55`), each candidate together with its row of the payload. -/
structure DenseBody where
  config : VectorSegmentConfig
  generation : Nat
  sourceCursor : UInt64
  minimumCursor : UInt64
  rows : List (DenseCandidateMetadata × List F32)
  deriving DecidableEq

/-- The digests of segments, and the lengths of their encodings. -/
class SegmentEncoding where
  /-- `sha256_hex` of the JSON of a configuration (`segment.rs:55-61`). -/
  configDigest : VectorSegmentConfig → String
  /-- `sha256_hex` of the JSON of a body (`segment.rs:174`). -/
  segmentDigest : SegmentBody → String
  /-- `artifact_digest` of the bytes of a compact segment (`compact.rs:713-722`). -/
  denseDigest : DenseBody → String
  segmentLength : SegmentBody → Nat
  denseLength : DenseBody → Nat

/-- The order in which artifacts store the versions of vectors (`segment.rs:164-169`). -/
def sortVersions (candidates : List VectorCandidate) : List VectorCandidate :=
  candidates.insertionSort fun left right =>
    (compare left.vector.reference right.vector.reference).then
      (compare left.sourceCursor right.sourceCursor) ≠ .gt

/-- A candidate belongs to an artifact (`segment.rs:151-158`). -/
def VectorSegmentConfig.Covers (config : VectorSegmentConfig) (sourceCursor : UInt64)
    (candidate : VectorCandidate) : Prop :=
  candidate.scope = config.scope ∧ candidate.sourceCursor ≤ sourceCursor ∧
    candidate.vector.field = config.field ∧ candidate.vector.value.dimensions = config.dimensions ∧
    candidate.matchesModel config.embeddingModel

instance (config : VectorSegmentConfig) (sourceCursor : UInt64) (candidate : VectorCandidate) :
    Decidable (config.Covers sourceCursor candidate) := inferInstanceAs (Decidable (_ ∧ _ ∧ _ ∧ _ ∧ _))

section

variable [SegmentEncoding]

/-- The descriptor of a segment (`segment.rs:215-239`, `compact.rs:395-415`). -/
def VectorSegmentConfig.describe (config : VectorSegmentConfig) (generation : Nat)
    (sourceCursor minimumCursor : UInt64) (artifactDigest : String) (candidateVersions : Nat) : SegmentDescriptor :=
  { stamp :=
      { contractVersion := dataRuntimeContractVersion
        id := config.id
        generation
        sourceCursor
        configDigest := SegmentEncoding.configDigest config
        artifactDigest
        state := .ready }
    scope := config.scope
    field := config.field
    dimensions := config.dimensions
    metric := config.metric
    embeddingModel := config.embeddingModel
    filterProperties := config.filterProperties
    minimumCursor
    candidateVersions }

/-! ## The portable segment -/

namespace SegmentBody

def descriptor (body : SegmentBody) : SegmentDescriptor :=
  body.config.describe body.generation body.sourceCursor body.minimumCursor (SegmentEncoding.segmentDigest body)
    body.candidates.length

/-- The checks of `from_parts` (`segment.rs:215, 239-252`). -/
def check (body : SegmentBody) : Except Error Unit := do
  body.config.validate
  body.descriptor.validate
  validateCandidateVersions body.candidates []
  if ∃ candidate ∈ body.candidates, ¬ body.config.Covers body.sourceCursor candidate then
    invalid "decoded vector segment candidate violates its descriptor"
  else .ok ()

end SegmentBody

/-- `ImmutableVectorSegment` (`segment.rs:132-137`). -/
structure ImmutableVectorSegment where
  body : SegmentBody
  checked : body.check = .ok ()

namespace ImmutableVectorSegment

/-- `from_parts` (`segment.rs:210-258`), which `from_bytes` calls for what it has decoded. -/
def fromParts (body : SegmentBody) : Except Error ImmutableVectorSegment :=
  match checked : body.check with
  | .ok () => .ok ⟨body, checked⟩
  | .error e => .error e

/-- `build` (`segment.rs:139-190`). -/
def build (config : VectorSegmentConfig) (generation : Nat) (sourceCursor : UInt64)
    (candidates : List VectorCandidate) : Except Error ImmutableVectorSegment := do
  config.validate
  if generation = 0 then invalid "vector segment generation must be greater than zero"
  else if maxVectorSegmentCandidates < candidates.length then invalid "vector segment candidate limit exceeded"
  else do
    validateCandidateVersions candidates []
    if ∃ candidate ∈ candidates, ¬ config.Covers sourceCursor candidate then
      invalid "vector segment candidate violates configuration or coverage"
    else
      let body : SegmentBody := ⟨config, generation, sourceCursor, 0, sortVersions candidates⟩
      if maxVectorSegmentBytes < SegmentEncoding.segmentLength body then
        invalid "encoded vector segment exceeds the 1 GiB safety limit"
      else fromParts body

def descriptor (segment : ImmutableVectorSegment) : SegmentDescriptor := segment.body.descriptor

/-- `search` (`segment.rs:267-280`). -/
def search {S : Type} [LinearOrder S] [Scoring S] (segment : ImmutableVectorSegment) (request : SearchRequest) :
    Except Error (List (SearchHit S)) := do
  segment.descriptor.validate
  if ¬ segment.descriptor.Serves request then
    invalid "vector segment does not satisfy request identity or freshness"
  else searchExact request segment.body.candidates

end ImmutableVectorSegment

/-! ## The compact segment -/

/-- `From<&VectorCandidate>` (`compact.rs:430-444`). -/
def VectorCandidate.metadata (candidate : VectorCandidate) : DenseCandidateMetadata :=
  { scope := candidate.scope
    sourceCursor := candidate.sourceCursor
    reference := candidate.vector.reference
    subject := candidate.vector.subject
    field := candidate.vector.field
    validFrom := candidate.vector.validFrom
    validTo := candidate.vector.validTo
    provenance := candidate.vector.provenance
    properties := candidate.vector.properties }

/-- The vector of a row (`compact.rs:550-560`). -/
def DenseCandidateMetadata.candidate (metadata : DenseCandidateMetadata) (values : List F32) : VectorCandidate :=
  { scope := metadata.scope
    sourceCursor := metadata.sourceCursor
    vector :=
      { reference := metadata.reference
        subject := metadata.subject
        field := metadata.field
        validFrom := metadata.validFrom
        validTo := metadata.validTo
        value := .dense values
        provenance := metadata.provenance
        properties := metadata.properties } }

namespace DenseBody

def descriptor (body : DenseBody) : SegmentDescriptor :=
  body.config.describe body.generation body.sourceCursor body.minimumCursor (SegmentEncoding.denseDigest body)
    body.rows.length

def candidates (body : DenseBody) : List VectorCandidate := body.rows.map fun (metadata, values) => metadata.candidate values

omit [SegmentEncoding] in
/-- The checks of one row (`compact.rs:537-583`). -/
def checkRow (body : DenseBody) (row : DenseCandidateMetadata × List F32) : Except Error Unit :=
  let (metadata, values) := row
  if metadata.scope ≠ body.config.scope ∨ metadata.sourceCursor = 0 ∨ body.sourceCursor < metadata.sourceCursor ∨
      metadata.field ≠ body.config.field then
    invalid "compact dense candidate violates metadata coverage"
  else if values.any fun value => !Data.isFinite value then
    invalid "compact dense vector contains a non-finite value"
  else do
    let commit : RuntimeCommit :=
      { scope := metadata.scope
        at_ := metadata.validFrom
        actor := "vyrm:compact-validator"
        expectedCursor := 0
        mutations := [.vector (metadata.candidate values).vector] }
    commit.validate
    if ¬ (metadata.candidate values).matchesModel body.config.embeddingModel then
      invalid "compact dense candidate differs from its configured embedding model"
    else .ok ()

omit [SegmentEncoding] in
/-- `validate_decoded` (`compact.rs:520-611`). The rows of the payload are as long as there are
dimensions. -/
def validateDecoded (body : DenseBody) : Except Error Unit := do
  body.config.validate
  if body.generation = 0 ∨ body.minimumCursor ≠ 0 ∨
      ∃ row ∈ body.rows, row.2.length ≠ body.config.dimensions then
    invalid "compact dense metadata differs from its physical header"
  else do
    body.rows.forM body.checkRow
    validateCandidateVersions (body.rows.map fun (metadata, _) =>
      { metadata with provenance := none }.candidate (List.replicate body.config.dimensions 0)) []
    if ∃ pair ∈ body.candidates.zip body.candidates.tail,
        ¬ (compare pair.1.vector.reference pair.2.vector.reference).then
          (compare pair.1.sourceCursor pair.2.sourceCursor) = .lt then
      invalid "compact dense candidates are not in canonical order"
    else .ok ()

/-- The checks of `decode` (`compact.rs:378-421`) behind those of the bytes. -/
def check (body : DenseBody) : Except Error Unit := do
  body.validateDecoded
  body.descriptor.validate

end DenseBody

/-- `CompactDenseSegment` (`compact.rs:96-103`). -/
structure CompactDenseSegment where
  body : DenseBody
  checked : body.check = .ok ()

/-- `score_row` (`compact.rs:612-623`) of a row as long as the query, in the arithmetic of its kernel. -/
class DenseKernel (S : Type) where
  scoreRow : List F32 → List F32 → ScoreMetric → S

namespace CompactDenseSegment

/-- `decode` (`compact.rs:378-421`), which `from_bytes` and `open_mmap` call. -/
def decode (body : DenseBody) : Except Error CompactDenseSegment :=
  match checked : body.check with
  | .ok () => .ok ⟨body, checked⟩
  | .error e => .error e

/-- `build` (`compact.rs:113-204`). -/
def build (config : VectorSegmentConfig) (generation : Nat) (sourceCursor : UInt64)
    (candidates : List VectorCandidate) : Except Error CompactDenseSegment := do
  config.validate
  if generation = 0 then invalid "compact dense generation must be greater than zero"
  else if maxVectorSegmentCandidates < candidates.length then invalid "compact dense candidate limit exceeded"
  else do
    validateCandidateVersions candidates []
    let rows ← (sortVersions candidates).mapM fun candidate =>
      match candidate.vector.value with
      | .dense values =>
        if config.Covers sourceCursor candidate then .ok (candidate.metadata, values)
        else invalid "compact dense candidate violates configuration or coverage"
      | _ => invalid "compact dense candidate violates configuration or coverage"
    let body : DenseBody := ⟨config, generation, sourceCursor, 0, rows⟩
    if maxVectorSegmentBytes < SegmentEncoding.denseLength body then
      invalid "compact dense artifact exceeds the 1 GiB safety limit"
    else decode body

def descriptor (segment : CompactDenseSegment) : SegmentDescriptor := segment.body.descriptor

omit [SegmentEncoding] in
/-- The loop over the rows (`compact.rs:333-352`). -/
def latestRow (request : SearchRequest)
    (latest : OrdMap RuntimeRef (DenseCandidateMetadata × List F32)) (row : DenseCandidateMetadata × List F32) :
    OrdMap RuntimeRef (DenseCandidateMetadata × List F32) :=
  if row.1.scope ≠ request.scope ∨ request.read.commitCursor < row.1.sourceCursor then latest
  else if request.validAt < row.1.validFrom then latest
  else
    match latest[row.1.reference]? with
    | some current =>
      if current.1.sourceCursor < row.1.sourceCursor then latest.insert row.1.reference row else latest
    | none => latest.insert row.1.reference row

/-- `search` (`compact.rs:316-376`). -/
def search {S : Type} [LinearOrder S] [DenseKernel S] (segment : CompactDenseSegment) (request : SearchRequest) :
    Except Error (List (SearchHit S)) := do
  request.validate
  segment.descriptor.validate
  if ¬ segment.descriptor.Serves request then
    invalid "compact dense segment does not satisfy request identity or freshness"
  else
    match request.query with
    | .dense query => do
      let latest := segment.body.rows.foldl (latestRow request) ∅
      let visible := latest.values.filter fun (metadata, values) => request.shows (metadata.candidate values)
      let hits ← visible.mapM fun (metadata, values) =>
        if values.length ≠ query.length then invalid "compact dense query and row dimensions differ"
        else .ok ⟨metadata.reference, metadata.subject, metadata.sourceCursor,
          DenseKernel.scoreRow query values request.metric⟩
      return bestHits request hits
    | _ => invalid "compact dense segment requires a dense query"

end CompactDenseSegment

end

end Vyrm.Vector
