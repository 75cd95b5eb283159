import Vyrm.Lib.TopK
import Vyrm.Vector.Contract

/-!
# The exact oracle

`crates/vyrm-vector/src/exact.rs`: the hits of a request over the canonical versions of vectors.
-/

namespace Vyrm.Vector
open Lib Vyrm.Core

section

variable {S : Type} [LinearOrder S] [Scoring S]

/-- `score_dense` (`exact.rs:204-237`). -/
def scoreDense (left right : List F32) (metric : ScoreMetric) : Except Error S :=
  if left.length ≠ right.length then invalid "dense query and candidate dimensions differ"
  else .ok (Scoring.dense left right metric)

/-- `max_by(f64::total_cmp)`. -/
def greatest : List S → Option S
  | [] => none
  | score :: rest => some (rest.foldl max score)

/-- `score_query` (`exact.rs:128-191`). -/
def scoreQuery (query : VectorQuery) (candidate : VectorValue) (metric : ScoreMetric) : Except Error S :=
  match query, candidate with
  | .dense left, .dense right => scoreDense left right metric
  | .sparse leftDimensions leftIndices leftValues, .sparse rightDimensions rightIndices rightValues =>
    if leftDimensions ≠ rightDimensions then invalid "sparse query and candidate dimensions differ"
    else .ok (Scoring.sparse leftIndices leftValues rightIndices rightValues metric)
  | .multiDense dimensions left, .multiDense rightDimensions right =>
    if dimensions ≠ rightDimensions then invalid "multi-vector query and candidate dimensions differ"
    else do
      let bests ← left.mapM fun queryRow => do
        let scores ← right.mapM fun candidateRow => scoreDense queryRow candidateRow metric
        match greatest scores with
        | some best => .ok best
        | none => invalid "multi-vector candidate has no rows"
      return Scoring.total bests
  | _, _ => invalid "query and candidate vector kinds differ"

/-- A score says that query and candidate are of one kind and shape. -/
theorem dimensions_of_scoreQuery {query : VectorQuery} {candidate : VectorValue} {metric : ScoreMetric} {score : S}
    (scored : scoreQuery query candidate metric = .ok score) : candidate.dimensions = query.dimensions := by
  unfold scoreQuery at scored
  split at scored
  · obtain ⟨same, _⟩ := except_reject_ok.mp scored
    exact (not_not.mp same).symm
  · obtain ⟨same, _⟩ := except_reject_ok.mp scored
    exact congrArg UInt32.toNat (not_not.mp same).symm
  · obtain ⟨same, _⟩ := except_reject_ok.mp scored
    exact congrArg UInt32.toNat (not_not.mp same).symm
  · cases scored

/-! ## The search -/

/-- The maps of `materialize_visible_refs` (`exact.rs:69-70`). -/
structure Materialized where
  latest : OrdMap RuntimeRef VectorCandidate
  versions : List (RuntimeRef × UInt64)

/-- A candidate that a request reads at all. -/
def SearchRequest.reads (request : SearchRequest) (candidate : VectorCandidate) : Prop :=
  candidate.scope = request.scope ∧ candidate.sourceCursor ≤ request.read.commitCursor

instance (request : SearchRequest) (candidate : VectorCandidate) : Decidable (request.reads candidate) :=
  inferInstanceAs (Decidable (_ ∧ _))

/-- One turn of the loop of `materialize_visible_refs` (`exact.rs:71-94`). -/
def materialize (request : SearchRequest) (state : Materialized) (candidate : VectorCandidate) :
    Except Error Materialized :=
  if ¬ request.reads candidate then .ok state
  else do
    candidate.validate
    if ¬ candidate.matchesModel request.embeddingModel then .ok state
    else if candidate.version ∈ state.versions then invalid "duplicate vector identity/source-cursor version"
    else
      let versions := candidate.version :: state.versions
      if request.validAt < candidate.vector.validFrom then .ok { state with versions }
      else if (state.latest[candidate.vector.reference]?).all (·.sourceCursor < candidate.sourceCursor) then
        .ok ⟨state.latest.insert candidate.vector.reference candidate, versions⟩
      else .ok { state with versions }

/-- What a request sees of the latest version of a vector (`exact.rs:99-110`). -/
def SearchRequest.shows (request : SearchRequest) (candidate : VectorCandidate) : Prop :=
  candidate.vector.field = request.field ∧ (∀ validTo ∈ candidate.vector.validTo, request.validAt < validTo) ∧
    ∀ filter ∈ request.filter, filter.matches_ candidate.vector.properties

instance (request : SearchRequest) (candidate : VectorCandidate) : Decidable (request.shows candidate) :=
  -- the end of the validity, if there is one, and not every instant
  have : Decidable (∀ validTo ∈ candidate.vector.validTo, request.validAt < validTo) :=
    Option.decidableForallMem _
  inferInstanceAs (Decidable (_ ∧ _ ∧ _))

/-- `materialize_visible_refs` (`exact.rs:65-113`). -/
def materializeVisible (request : SearchRequest) (candidates : List VectorCandidate) :
    Except Error (List VectorCandidate) := do
  let state ← candidates.foldlM (materialize request) ⟨∅, []⟩
  return state.latest.values.filter (request.shows ·)

/-- The hit of a candidate (`exact.rs:53-58`). -/
def hitOf (request : SearchRequest) (candidate : VectorCandidate) : Except Error (SearchHit S) := do
  let score ← scoreQuery request.query candidate.vector.value request.metric
  return ⟨candidate.vector.reference, candidate.vector.subject, candidate.sourceCursor, score⟩

/-- The order of the hits. -/
def SearchHit.Before (left right : SearchHit S) : Prop := left.compareBestFirst right ≠ .gt

instance (left right : SearchHit S) : Decidable (left.Before right) := inferInstanceAs (Decidable (_ ≠ _))

/-- The first hits (`exact.rs:60-61`). -/
def bestHits (request : SearchRequest) (hits : List (SearchHit S)) : List (SearchHit S) :=
  (hits.insertionSort SearchHit.Before).take request.topK

/-- `search_exact` and `search_exact_ref` (`exact.rs:43-63`). -/
def searchExact (request : SearchRequest) (candidates : List VectorCandidate) :
    Except Error (List (SearchHit S)) := do
  request.validate
  let latest ← materializeVisible request candidates
  let hits ← latest.mapM (hitOf request)
  return bestHits request hits

end

/-- `validate_candidate_versions` (`exact.rs:115-126`), with the versions seen so far. -/
def validateCandidateVersions : List VectorCandidate → List (RuntimeRef × UInt64) → Except Error Unit
  | [], _ => .ok ()
  | candidate :: rest, versions => do
    candidate.validate
    if candidate.version ∈ versions then invalid "duplicate vector identity/source-cursor version"
    else validateCandidateVersions rest (candidate.version :: versions)

end Vyrm.Vector
