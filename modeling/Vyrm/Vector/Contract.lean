import Vyrm.Core.Runtime.Graph
import Vyrm.Vector.Filter

/-!
# Vector search requests

`crates/vyrm-vector/src/contract.rs`. A score is an element of an abstract linear order: what the
source computes in `f64` and compares with `total_cmp`.
-/

namespace Vyrm.Vector
open Lib Vyrm.Core

/-! ## Requests -/

/-- `ScoreMetric` (`contract.rs:9-16`). -/
inductive ScoreMetric where
  | cosine
  | dot
  | euclidean
  | manhattan
  deriving DecidableEq, Repr

/-- `EmbeddingModelBinding` (`contract.rs:18-25`). -/
structure EmbeddingModelBinding where
  name : String
  digest : String
  deriving DecidableEq, Repr

/-- `EmbeddingModelBinding::validate` (`contract.rs:28-43`). -/
def EmbeddingModelBinding.validate (model : EmbeddingModelBinding) : Except Error Unit :=
  if ¬ FilterCondition.isName model.name then
    invalid "embedding model binding name must be non-empty and contain no NUL bytes"
  else if (utf8 model.digest).length ≠ 64 ∨
      ¬ (utf8 model.digest).all fun byte => isDigit byte || (97 ≤ byte.toNat && byte.toNat ≤ 102) then
    invalid "embedding model binding digest must be lowercase SHA-256 hex"
  else .ok ()

/-- A binding that may be absent is checked when it is there. -/
def validateModel (model : Option EmbeddingModelBinding) : Except Error Unit :=
  match model with
  | some model => model.validate
  | none => .ok ()

/-- `SearchMode` (`contract.rs:54-60`). -/
inductive SearchMode where
  | exact
  | allowApproximate (exactRerank : Nat)
  | requireApproximate (exactRerank : Nat)
  deriving DecidableEq, Repr

/-- `VectorQuery` (`contract.rs:62-78`). A query of many rows is compared by `MaxSim`. -/
inductive VectorQuery where
  | dense (values : List F32)
  | sparse (dimensions : UInt32) (indices : List UInt32) (values : List F32)
  | multiDense (dimensions : UInt32) (vectors : List (List F32))
  deriving DecidableEq

namespace VectorQuery

/-- `as_value` (`contract.rs:87-108`). -/
def asValue : VectorQuery → VectorValue
  | dense values => .dense values
  | sparse dimensions indices values => .sparse dimensions indices values
  | multiDense dimensions vectors => .multiDense dimensions vectors

/-- `VectorQuery::validate` (`contract.rs:81-85`). -/
def validate (query : VectorQuery) : Except Error Unit := query.asValue.validate

/-- `VectorQuery::dimensions` (`contract.rs:110-112`). -/
def dimensions (query : VectorQuery) : Nat := query.asValue.dimensions

/-- `*value == 0.0` of an `f32`. -/
def isZero (value : F32) : Bool := value = 0 ∨ value = 0x80000000

/-- `query_norm_is_zero` (`contract.rs:215-224`). -/
def normIsZero : VectorQuery → Bool
  | dense values => values.all isZero
  | sparse _ _ values => values.all isZero
  | multiDense _ vectors => vectors.any fun vector => vector.all isZero

end VectorQuery

/-- `SearchRequest` (`contract.rs:115-130`). -/
structure SearchRequest where
  scope : ScopeId
  read : ReadStamp
  validAt : Millis
  field : String
  query : VectorQuery
  metric : ScoreMetric
  embeddingModel : Option EmbeddingModelBinding
  topK : Nat
  mode : SearchMode
  filter : Option FilterExpression

/-- The bounds of a mode (`contract.rs:143-151`). -/
def SearchMode.validate (mode : SearchMode) (topK : Nat) : Except Error Unit :=
  match mode with
  | .exact => .ok ()
  | .allowApproximate exactRerank | .requireApproximate exactRerank =>
    if exactRerank < topK ∨ 1000000 < exactRerank then
      invalid "vector exact_rerank must be in top_k..=1000000"
    else .ok ()

/-- `SearchRequest::validate` (`contract.rs:133-164`). -/
def SearchRequest.validate (request : SearchRequest) : Except Error Unit := do
  request.read.validate
  if request.scope ≠ request.read.scope then invalid "vector request scope differs from its read stamp"
  else if ¬ FilterCondition.isName request.field then
    invalid "vector field must be non-empty and contain no NUL bytes"
  else if request.topK = 0 ∨ 100000 < request.topK then invalid "vector top_k must be in 1..=100000"
  else do
    request.mode.validate request.topK
    request.query.validate
    validateModel request.embeddingModel
    if request.metric = .cosine ∧ request.query.normIsZero then invalid "cosine query must have non-zero norm"
    else
      match request.filter with
      | some filter => filter.validate
      | none => .ok ()

/-- The properties a request needs an artifact to cover (`plan.rs:82-87`). -/
def SearchRequest.requiredProperties (request : SearchRequest) : List String :=
  (request.filter.map FilterExpression.referencedProperties).getD []

/-! ## Candidates -/

/-- `VectorCandidate` (`contract.rs:167-172`). -/
structure VectorCandidate where
  scope : ScopeId
  sourceCursor : UInt64
  vector : RuntimeVector
  deriving DecidableEq

namespace VectorCandidate

/-- `VectorCandidate::validate` (`contract.rs:175-180`). -/
def validate (candidate : VectorCandidate) : Except Error Unit :=
  if candidate.sourceCursor = 0 then invalid "vector candidate source cursor must be greater than zero"
  else candidate.vector.validate

/-- `matches_model` (`contract.rs:186-193`). -/
def matchesModel (candidate : VectorCandidate) (model : Option EmbeddingModelBinding) : Prop :=
  ∀ binding ∈ model, ∃ provenance ∈ candidate.vector.provenance,
    provenance.model = binding.name ∧ provenance.modelDigest = binding.digest

instance (candidate : VectorCandidate) : (model : Option EmbeddingModelBinding) →
    Decidable (candidate.matchesModel model)
  | none => .isTrue fun _ absent => nomatch absent
  | some binding =>
    decidable_of_iff (∃ provenance ∈ candidate.vector.provenance,
      provenance.model = binding.name ∧ provenance.modelDigest = binding.digest)
      ⟨fun found _ is => by cases is; exact found, fun all => all binding rfl⟩

/-- A version of a vector: its identity, and where it was committed. -/
def version (candidate : VectorCandidate) : RuntimeRef × UInt64 := (candidate.vector.reference, candidate.sourceCursor)

end VectorCandidate

/-- `SearchHit` (`contract.rs:196-203`). -/
structure SearchHit (S : Type) where
  reference : RuntimeRef
  subject : RuntimeRef
  sourceCursor : UInt64
  score : S
  deriving DecidableEq

/-- The arithmetic of `score_query`, which is that of `f64` (`exact.rs:128-311`). -/
class Scoring (S : Type) where
  dense : List F32 → List F32 → ScoreMetric → S
  sparse : List UInt32 → List F32 → List UInt32 → List F32 → ScoreMetric → S
  /-- The sum of the best scores of the rows of a query. -/
  total : List S → S

variable {S : Type} [LinearOrder S]

/-- `compare_best_first` (`contract.rs:206-211`). -/
def SearchHit.compareBestFirst (left right : SearchHit S) : Ordering :=
  (compare right.score left.score).then
    ((compare left.reference right.reference).then (compare right.sourceCursor left.sourceCursor))

end Vyrm.Vector
