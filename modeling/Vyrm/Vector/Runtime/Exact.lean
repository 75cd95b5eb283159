import Vyrm.Vector.Oracle
import Vyrm.Vector.Reference
import Vyrm.Vector.Runtime.InStep

/-!
# Exact searches through published segments

A segment answers an exact request from the versions of its own field. The answer is the oracle's
when the segment is of the request's scope, can read its query, and the versions it takes for the
latest, although a later one has moved the vector to another field or shape, are outranked.
-/

namespace Vyrm.Vector
open Lib Vyrm.Core Std

variable {request : SearchRequest} {canonical : List VectorCandidate}

/-! ## What a segment shows -/

/-- A version of the field and the number of dimensions of a request. -/
def SearchRequest.ofShape (request : SearchRequest) (candidate : VectorCandidate) : Prop :=
  candidate.vector.field = request.field ∧ candidate.vector.value.dimensions = request.query.dimensions

instance (request : SearchRequest) (candidate : VectorCandidate) : Decidable (request.ofShape candidate) :=
  inferInstanceAs (Decidable (_ ∧ _))

/-- A version that is shown when only the versions of one shape are looked at, although it is not the
latest of its vector. -/
def Superseded (request : SearchRequest) (canonical : List VectorCandidate) (candidate : VectorCandidate) : Prop :=
  LatestIn request (canonical.filter (request.ofShape ·)) candidate ∧ request.shows candidate ∧
    ¬ LatestIn request canonical candidate

/-- A version that comes after as many hits of the oracle as are asked for. -/
def Outranked (S : Type) [LinearOrder S] [Scoring S] (request : SearchRequest) (canonical : List VectorCandidate)
    (candidate : VectorCandidate) : Prop :=
  ∃ hit : SearchHit S, hitOf request candidate = .ok hit ∧ ∃ better : List VectorCandidate, better.Nodup ∧
    request.topK ≤ better.length ∧ ∀ c ∈ better, LatestIn request canonical c ∧ request.shows c ∧
      ∃ above : SearchHit S, hitOf request c = .ok above ∧ above.Before hit

section

variable {S : Type} [LinearOrder S] [Scoring S]

/-- Being outranked, counted among the hits. -/
theorem outranked_iff {candidate : VectorCandidate} {visible : List VectorCandidate} {hits : List (SearchHit S)}
    (shown : Shown request canonical visible) (scored : visible.map (hitOf request) = hits.map .ok) :
    Outranked S request canonical candidate ↔
      ∃ hit, hitOf request candidate = .ok hit ∧ request.topK ≤ hits.countP (·.Before hit) := by
  have same : Outranked S request canonical candidate ↔
      OutrankedBy S request (fun c => LatestIn request canonical c ∧ request.shows c) candidate := by
    simp only [Outranked, OutrankedBy, and_assoc]
  rw [same, outrankedBy_iff shown.mem shown.distinct.of_map scored]

/-- The versions an artifact holds of what a request asks for. -/
structure Holds (request : SearchRequest) (canonical content : List VectorCandidate) : Prop where
  perm : ∃ kept : VectorCandidate → Bool, content.Perm (canonical.filter kept) ∧
    ∀ candidate, request.competes candidate → (kept candidate = true ↔ request.ofShape candidate)

/-- The versions an artifact takes for the latest. -/
theorem Holds.latestIn_iff {content : List VectorCandidate} (holds : Holds request canonical content)
    (candidate : VectorCandidate) :
    LatestIn request content candidate ↔ LatestIn request (canonical.filter (request.ofShape ·)) candidate := by
  obtain ⟨kept, perm, isKept⟩ := holds.perm
  have same : ∀ c, request.competes c → (c ∈ content ↔ c ∈ canonical.filter (request.ofShape ·)) := by
    intro c competes
    rw [perm.mem_iff, List.mem_filter, List.mem_filter, isKept c competes, decide_eq_true_iff]
  unfold LatestIn
  constructor
  · intro ⟨listed, competes, most⟩
    exact ⟨(same _ competes).mp listed, competes, fun c inside isRead => most c ((same c isRead).mpr inside) isRead⟩
  · intro ⟨listed, competes, most⟩
    exact ⟨(same _ competes).mpr listed, competes, fun c inside isRead => most c ((same c isRead).mp inside) isRead⟩

/-- The oracle over what an artifact holds gives the hits of the oracle over everything exactly when
every version that only the artifact shows is outranked. -/
theorem searchExact_content {content : List VectorCandidate} {hits : List (SearchHit S)}
    (holds : Holds request canonical content) (oracle : searchExact request canonical = .ok hits) :
    searchExact request content = .ok hits ↔
      ∀ candidate ∈ canonical, Superseded request canonical candidate → Outranked S request canonical candidate := by
  obtain ⟨valid, visible, found, shownAll, scored, best⟩ := searchExact_ok.mp oracle
  obtain ⟨readable, shown⟩ := materializeVisible_ok shownAll
  have scored := except_mapM_ok.mp scored
  obtain ⟨kept, perm, isKept⟩ := holds.perm
  have contentReadable : Readable request content := readable.of_perm_sublist perm List.filter_sublist
  obtain ⟨held, shownHeld, isHeld⟩ := contentReadable.exists_visible
  -- what the oracle shows is of the shape of the request, since it was scored
  have inside : ∀ c ∈ visible, c ∈ held := by
    intro c listed
    obtain ⟨latest, shows⟩ := (shown.mem c).mp listed
    have image : (hitOf request c : Except Error (SearchHit S)) ∈ visible.map (hitOf request) :=
      List.mem_map_of_mem listed
    rw [scored] at image
    obtain ⟨hit, -, isHit⟩ := List.mem_map.mp image
    obtain ⟨score, isScored, -⟩ := except_bind_ok.mp isHit.symm
    have shape : request.ofShape c := ⟨shows.1, dimensions_of_scoreQuery isScored⟩
    refine (isHeld.mem c).mpr ⟨(holds.latestIn_iff c).mpr ⟨?_, latest.2.1, ?_⟩, shows⟩
    · exact List.mem_filter.mpr ⟨latest.1, decide_eq_true shape⟩
    · exact fun other listed => latest.2.2 other (List.mem_of_mem_filter listed)
  have split : held.Perm (visible ++ held.filter (· ∉ visible)) :=
    perm_append_filter isHeld.distinct.of_map shown.distinct.of_map inside
  have ranking := bestHits_add split isHeld.distinct scored
  rw [best] at ranking
  have extra : ∀ c, c ∈ held.filter (· ∉ visible) ↔ Superseded request canonical c := by
    intro c
    rw [List.mem_filter, decide_eq_true_iff, isHeld.mem, holds.latestIn_iff, shown.mem]
    constructor
    · intro ⟨⟨latest, shows⟩, other⟩
      exact ⟨latest, shows, fun all => other ⟨all, shows⟩⟩
    · intro ⟨latest, shows, other⟩
      exact ⟨⟨latest, shows⟩, fun both => other both.1⟩
  have exchange : searchExact request content = .ok hits ↔
      ∃ others, held.mapM (hitOf request) = .ok others ∧ bestHits request others = hits := by
    rw [searchExact_ok]
    constructor
    · intro ⟨_, held', others, shown', scored', same⟩
      cases shownHeld.symm.trans shown'
      exact ⟨others, scored', same⟩
    · intro ⟨others, scored', same⟩
      exact ⟨valid, held, others, shownHeld, scored', same⟩
  rw [exchange, ranking]
  constructor
  · intro all c _ superseded
    exact (outranked_iff shown scored).mpr (all c ((extra c).mpr superseded))
  · intro all c member
    have superseded := (extra c).mp member
    exact (outranked_iff shown scored).mp (all c (List.mem_of_mem_filter superseded.1.1) superseded)

end

/-! ## The compact segment -/

/-- The vector of a row. -/
def rowCandidate (row : DenseCandidateMetadata × List F32) : VectorCandidate := row.1.candidate row.2

/-- The loop over the rows keeps what the oracle keeps of their vectors. -/
theorem latestRow_run {rows : List (DenseCandidateMetadata × List F32)}
    (model : ∀ row ∈ rows, (rowCandidate row).matchesModel request.embeddingModel) {state : Materialized}
    (ran : (rows.map rowCandidate).foldlM (materialize request) ⟨∅, []⟩ = .ok state) (reference : RuntimeRef) :
    state.latest[reference]? = (rows.foldl (CompactDenseSegment.latestRow request) ∅)[reference]?.map rowCandidate := by
  induction rows using List.reverseRecOn generalizing state reference with
  | nil =>
    cases ran
    simp
  | append_singleton rows row ih =>
    rw [List.map_append, List.foldlM_append] at ran
    obtain ⟨before, first, turn⟩ := except_bind_ok.mp ran
    have same := ih (fun r listed => model r (List.mem_append_left _ listed)) first
    have isModel := model row (by simp)
    rw [List.map_singleton, List.foldlM_cons] at turn
    obtain ⟨next, turn, last⟩ := except_bind_ok.mp turn
    cases last
    rw [List.foldl_append, List.foldl_cons, List.foldl_nil, CompactDenseSegment.latestRow]
    unfold materialize at turn
    by_cases reads : request.reads (rowCandidate row)
    · have inside : ¬ (row.1.scope ≠ request.scope ∨ request.read.commitCursor < row.1.sourceCursor) := by
        rintro (other | late)
        · exact other reads.1
        · exact absurd late (UInt64.not_lt.mpr reads.2)
      rw [if_neg (not_not.mpr reads)] at turn
      obtain ⟨_, -, turn⟩ := except_bind_ok.mp turn
      rw [if_neg (not_not.mpr isModel)] at turn
      obtain ⟨-, turn⟩ := except_reject_ok.mp turn
      rw [if_neg inside]
      by_cases early : request.validAt < row.1.validFrom
      · rw [if_pos (show request.validAt < (rowCandidate row).vector.validFrom from early)] at turn
        rw [if_pos early]
        cases turn
        exact same reference
      · rw [if_neg (show ¬ request.validAt < (rowCandidate row).vector.validFrom from early)] at turn
        rw [if_neg early]
        have inserted : ∀ r : RuntimeRef,
            (before.latest.insert row.1.reference (rowCandidate row))[r]? =
              ((rows.foldl (CompactDenseSegment.latestRow request) ∅).insert row.1.reference row)[r]?.map
                rowCandidate := by
          intro r
          by_cases own : row.1.reference = r
          · subst own
            rw [OrdMap.getElem?_insert_self, OrdMap.getElem?_insert_self]
            rfl
          · rw [OrdMap.getElem?_insert_of_ne own, OrdMap.getElem?_insert_of_ne own, same]
        have current := same row.1.reference
        cases known : (rows.foldl (CompactDenseSegment.latestRow request) ∅)[row.1.reference]? with
        | none =>
          rw [known] at current
          rw [show (rowCandidate row).vector.reference = row.1.reference from rfl, current] at turn
          cases turn
          exact inserted reference
        | some best =>
          rw [known] at current
          rw [show (rowCandidate row).vector.reference = row.1.reference from rfl, current] at turn
          by_cases newer : best.1.sourceCursor < row.1.sourceCursor
          · simp only [if_pos newer]
            have isNewer : Option.all (fun c => decide (c.sourceCursor < (rowCandidate row).sourceCursor))
                (Option.map rowCandidate (some best)) = true := decide_eq_true newer
            rw [if_pos isNewer] at turn
            cases turn
            exact inserted reference
          · simp only [if_neg newer]
            have older : ¬ Option.all (fun c => decide (c.sourceCursor < (rowCandidate row).sourceCursor))
                (Option.map rowCandidate (some best)) = true := fun all => newer (of_decide_eq_true all)
            rw [if_neg older] at turn
            cases turn
            exact same reference
    · have outside : row.1.scope ≠ request.scope ∨ request.read.commitCursor < row.1.sourceCursor := by
        by_contra both
        rw [not_or, not_not, UInt64.not_lt] at both
        exact reads both
      rw [if_pos reads] at turn
      rw [if_pos outside]
      cases turn
      exact same reference

/-- What the loop over the rows shows, as vectors. -/
theorem latestRow_visible {rows : List (DenseCandidateMetadata × List F32)}
    (model : ∀ row ∈ rows, (rowCandidate row).matchesModel request.embeddingModel)
    {visible : List VectorCandidate} (shown : materializeVisible request (rows.map rowCandidate) = .ok visible) :
    ((OrdMap.values (rows.foldl (CompactDenseSegment.latestRow request) ∅)).filter fun row =>
      request.shows (rowCandidate row)).map rowCandidate = visible := by
  obtain ⟨state, ran, same⟩ := except_bind_ok.mp shown
  cases same
  have maps : state.latest = (rows.foldl (CompactDenseSegment.latestRow request) ∅).map fun _ row => rowCandidate row := by
    apply ExtTreeMap.ext_getElem?
    intro reference
    rw [ExtTreeMap.getElem?_map, latestRow_run model ran]
  rw [maps, OrdMap.values, OrdMap.values, ExtTreeMap.toList_map, List.map_map]
  rw [show (Prod.snd ∘ fun p : RuntimeRef × (DenseCandidateMetadata × List F32) => (p.1, rowCandidate p.2)) =
    rowCandidate ∘ Prod.snd from rfl, ← List.map_map, List.filter_map (f := rowCandidate)]
  rfl

/-! ## Artifacts -/

section

variable [SegmentEncoding] {S : Type} [LinearOrder S] [Scoring S]

theorem ImmutableVectorSegment.search_ok {segment : ImmutableVectorSegment} {hits : List (SearchHit S)} :
    segment.search request = .ok hits ↔
      segment.descriptor.Serves request ∧ searchExact request segment.body.candidates = .ok hits := by
  obtain ⟨⟨⟩, -, checked⟩ := except_bind_ok.mp segment.checked
  obtain ⟨⟨⟩, described, -⟩ := except_bind_ok.mp checked
  unfold ImmutableVectorSegment.search
  rw [show segment.descriptor.validate = .ok () from described, except_ok_bind]
  exact except_reject_ok.trans (by rw [not_not])

variable [DenseKernel S]

/-- A compact segment answers dense queries as the oracle does over the vectors of its rows. -/
theorem CompactDenseSegment.search_ok {segment : CompactDenseSegment} {hits : List (SearchHit S)}
    (kernel : ∀ query values metric, (DenseKernel.scoreRow query values metric : S) = Scoring.dense query values metric)
    (readable : Readable request segment.body.candidates)
    (model : ∀ c ∈ segment.body.candidates, c.matchesModel request.embeddingModel)
    (shape : ∀ c ∈ segment.body.candidates, c.vector.value.dimensions = request.query.dimensions) :
    segment.search request = .ok hits ↔ segment.descriptor.Serves request ∧ (∃ query, request.query = .dense query) ∧
      searchExact request segment.body.candidates = .ok hits := by
  obtain ⟨⟨⟩, -, described⟩ := except_bind_ok.mp segment.checked
  have content : segment.body.candidates = segment.body.rows.map rowCandidate := rfl
  rw [content] at readable model shape ⊢
  obtain ⟨visible, shown, isShown⟩ := readable.exists_visible
  have visibleRows := latestRow_visible (fun row listed => model _ (List.mem_map_of_mem listed)) shown
  rw [searchExact_ok]
  unfold CompactDenseSegment.search
  rw [except_bind_ok]
  have exchange : ∀ query, request.query = .dense query → ∀ found : List (SearchHit S),
      ((OrdMap.values (segment.body.rows.foldl (latestRow request) ∅)).filter fun row =>
        request.shows (rowCandidate row)).mapM (fun row =>
          if row.2.length ≠ query.length then invalid "compact dense query and row dimensions differ"
          else .ok ⟨row.1.reference, row.1.subject, row.1.sourceCursor,
            DenseKernel.scoreRow query row.2 request.metric⟩) = .ok found ↔
      visible.mapM (hitOf request) = .ok found := by
    intro query isDense found
    rw [except_mapM_ok, except_mapM_ok, ← visibleRows, List.map_map]
    have same : ∀ row ∈ (OrdMap.values (segment.body.rows.foldl (latestRow request) ∅)).filter fun row =>
        request.shows (rowCandidate row), (if row.2.length ≠ query.length then
          invalid "compact dense query and row dimensions differ"
        else .ok ⟨row.1.reference, row.1.subject, row.1.sourceCursor,
          DenseKernel.scoreRow query row.2 request.metric⟩ : Except Error (SearchHit S)) =
        (hitOf request ∘ rowCandidate) row := by
      intro row member
      have listed : rowCandidate row ∈ visible := by
        rw [← visibleRows]
        exact List.mem_map_of_mem member
      have long : row.2.length = query.length := by
        have dimensions := shape _ ((isShown.mem _).mp listed).1.1
        rw [isDense] at dimensions
        exact dimensions
      have scored : scoreQuery request.query (rowCandidate row).vector.value request.metric =
          .ok (DenseKernel.scoreRow query row.2 request.metric : S) := by
        rw [isDense, kernel]
        exact if_neg (not_not.mpr long.symm)
      rw [if_neg (not_not.mpr long), Function.comp_apply, hitOf, scored]
      rfl
    rw [List.map_congr_left same]
  constructor
  · intro ⟨_, valid, ran⟩
    obtain ⟨_, -, ran⟩ := except_bind_ok.mp ran
    obtain ⟨serves, ran⟩ := except_reject_ok.mp ran
    cases isDense : request.query with
    | dense query =>
      rw [isDense] at ran
      obtain ⟨found, scored, same⟩ := except_bind_ok.mp ran
      exact ⟨not_not.mp serves, ⟨query, rfl⟩, valid, visible, found, shown, (exchange query isDense found).mp scored,
        Except.ok.inj same⟩
    | sparse _ _ _ =>
      rw [isDense] at ran
      cases ran
    | multiDense _ _ =>
      rw [isDense] at ran
      cases ran
  · intro ⟨serves, ⟨query, isDense⟩, valid, visible', found, shown', scored, best⟩
    cases shown.symm.trans shown'
    refine ⟨(), valid, except_bind_ok.mpr ⟨(), described, except_reject_ok.mpr ⟨not_not.mpr serves, ?_⟩⟩⟩
    rw [isDense]
    exact except_bind_ok.mpr ⟨found, (exchange query isDense found).mpr scored, congrArg Except.ok best⟩

omit [DenseKernel S] [Scoring S] [LinearOrder S] in
/-- The body of a segment that was built. -/
theorem ImmutableVectorSegment.build_ok {config : VectorSegmentConfig} {generation : Nat} {sourceCursor : UInt64}
    {candidates : List VectorCandidate} {segment : ImmutableVectorSegment}
    (built : build config generation sourceCursor candidates = .ok segment) :
    segment.body = ⟨config, generation, sourceCursor, 0, sortVersions candidates⟩ := by
  unfold build at built
  obtain ⟨_, -, built⟩ := except_bind_ok.mp built
  obtain ⟨-, built⟩ := except_reject_ok.mp built
  obtain ⟨-, built⟩ := except_reject_ok.mp built
  obtain ⟨_, -, built⟩ := except_bind_ok.mp built
  obtain ⟨-, built⟩ := except_reject_ok.mp built
  obtain ⟨-, built⟩ := except_reject_ok.mp built
  unfold fromParts at built
  split at built
  · cases built
    rfl
  · cases built

omit [DenseKernel S] [Scoring S] [LinearOrder S] in
/-- The body of a compact segment that was built. -/
theorem CompactDenseSegment.build_ok {config : VectorSegmentConfig} {generation : Nat} {sourceCursor : UInt64}
    {candidates : List VectorCandidate} {segment : CompactDenseSegment}
    (built : build config generation sourceCursor candidates = .ok segment) :
    segment.body.config = config ∧ segment.body.sourceCursor = sourceCursor ∧
      segment.body.candidates = sortVersions candidates := by
  unfold build at built
  obtain ⟨_, -, built⟩ := except_bind_ok.mp built
  obtain ⟨-, built⟩ := except_reject_ok.mp built
  obtain ⟨-, built⟩ := except_reject_ok.mp built
  obtain ⟨_, -, built⟩ := except_bind_ok.mp built
  obtain ⟨rows, encoded, built⟩ := except_bind_ok.mp built
  obtain ⟨-, built⟩ := except_reject_ok.mp built
  unfold decode at built
  split at built
  · cases built
    refine ⟨rfl, rfl, ?_⟩
    show rows.map rowCandidate = _
    -- a row gives back the candidate it was made from
    refine except_mapM_inverse (fun candidate row made => ?_) encoded
    obtain ⟨scope, cursor, ⟨reference, subject, field, validFrom, validTo, value, provenance, properties⟩⟩ := candidate
    cases value with
    | dense values =>
      dsimp only at made
      split at made
      · cases made
        rfl
      · cases made
    | sparse _ _ _ => cases made
    | multiDense _ _ => cases made
  · cases built

end

/-! ## Runtimes -/

section

variable [SegmentEncoding] [HnswEncoding]

/-- The artifact was built from all the canonical candidates that its configuration covers, up to its
source cursor. An exact search reads no graph index, so nothing is asked of one. -/
def VectorArtifact.BuiltFrom (canonical : List VectorCandidate) : VectorArtifact → Prop
  | .exactSegment segment => ∃ config generation sourceCursor candidates,
    candidates.Perm (canonical.filter (config.Covers sourceCursor ·)) ∧
      ImmutableVectorSegment.build config generation sourceCursor candidates = .ok segment
  | .compactDense segment => ∃ config generation sourceCursor candidates,
    candidates.Perm (canonical.filter (config.Covers sourceCursor ·)) ∧
      CompactDenseSegment.build config generation sourceCursor candidates = .ok segment
  | .hnsw _ => True

/-- The scope of a projection. -/
def VectorProjectionDescriptor.scope : VectorProjectionDescriptor → ScopeId
  | exactSegment descriptor => descriptor.scope
  | hnsw descriptor => descriptor.scope

/-- A compact segment can only be asked with one dense vector. -/
def VectorArtifact.Reads (query : VectorQuery) : VectorArtifact → Prop
  | .compactDense _ => ∃ values, query = .dense values
  | _ => True

/-- What every run keeps true of a runtime: entries stand under their identities, which are not that
of the exact scan, and artifacts under their keys, each of them among those that were brought. -/
structure Installed (brought : List VectorArtifact) (canonical : List VectorCandidate) (runtime : VectorRuntime) :
    Prop where
  canonical : runtime.canonical = canonical
  entries : ∀ (id : ProjectionId) (d : VectorProjectionDescriptor), runtime.catalog.entries[id]? = some d →
    d.stamp.id = id ∧ id ≠ exactScanProjectionId
  artifacts : ∀ (key : GenerationKey) (a : VectorArtifact), runtime.artifacts[key]? = some a →
    a.descriptor.key = key ∧ a ∈ brought

variable {brought : List VectorArtifact} {runtime : VectorRuntime}

theorem Installed.enter (installed : Installed brought canonical runtime) {d : VectorProjectionDescriptor}
    {id : ProjectionId} {revision : UInt64} {retired : List VectorProjectionDescriptor} (named : d.stamp.id = id)
    (other : id ≠ exactScanProjectionId) :
    Installed brought canonical
      { runtime with catalog := ⟨revision, runtime.catalog.entries.insert id d, retired⟩ } := by
  refine ⟨installed.canonical, ?_, installed.artifacts⟩
  intro id' e entry
  by_cases same : id = id'
  · subst same
    cases (OrdMap.getElem?_insert_self _ _ _).symm.trans entry
    exact ⟨named, other⟩
  · exact installed.entries id' e ((OrdMap.getElem?_insert_of_ne same).symm.trans entry)

theorem Installed.call (installed : Installed brought canonical runtime) {call : RuntimeCall}
    (listed : ∀ a ∈ call.artifact, a ∈ brought) : Installed brought canonical (call.run runtime).2 := by
  cases call with
  | publish expectedRevision artifact =>
    rcases runtime.publish_cases expectedRevision artifact with
      ⟨e, refused⟩ | ⟨-, checked, ⟨-, done⟩ | ⟨-, done⟩⟩
    · simp only [RuntimeCall.run, refused]
      exact installed
    · simp only [RuntimeCall.run, done]
      exact installed.enter rfl (VectorCatalog.checkPublish_ok checked).1
    · simp only [RuntimeCall.run, done]
      have entered : Installed brought canonical { runtime with
          catalog := { runtime.catalog.enter artifact.descriptor with revision := runtime.catalog.revision + 1 } } :=
        installed.enter rfl (VectorCatalog.checkPublish_ok checked).1
      refine ⟨entered.canonical, entered.entries, ?_⟩
      intro key a found
      by_cases same : artifact.descriptor.key = key
      · subst same
        cases (OrdMap.getElem?_insert_self runtime.artifacts _ _).symm.trans found
        exact ⟨rfl, listed artifact rfl⟩
      · exact installed.artifacts key a ((OrdMap.getElem?_insert_of_ne same).symm.trans found)
  | quarantine expectedRevision id generation =>
    rcases runtime.quarantine_cases expectedRevision id generation with
      ⟨e, refused⟩ | ⟨d, result, revision, checked, -, done⟩
    · simp only [RuntimeCall.run, refused]
      exact installed
    · simp only [RuntimeCall.run, done]
      obtain ⟨named, other⟩ := installed.entries id d (VectorCatalog.checkQuarantine_ok checked)
      refine installed.enter ?_ other
      rw [VectorProjectionDescriptor.stamp_withState]
      exact named
  | reclaimRetired protected_ =>
    refine ⟨installed.canonical, installed.entries, ?_⟩
    intro key a found
    exact installed.artifacts key a ((InStep.reclaim_artifact key a).mp found).1

theorem Installed.calls (installed : Installed brought canonical runtime) {calls : List RuntimeCall}
    (listed : ∀ a ∈ calls.filterMap RuntimeCall.artifact, a ∈ brought) :
    Installed brought canonical (afterCalls runtime calls) := by
  induction calls generalizing runtime with
  | nil => exact installed
  | cons call rest ih =>
    apply ih (installed.call ?_)
    · intro a inRest
      obtain ⟨other, member, same⟩ := List.mem_filterMap.mp inRest
      exact listed a (List.mem_filterMap.mpr ⟨other, List.mem_cons_of_mem _ member, same⟩)
    · exact fun a own => listed a (List.mem_filterMap.mpr ⟨call, List.mem_cons_self, own⟩)

theorem installed_new (made : VectorRuntime.new canonical = .ok runtime) : Installed brought canonical runtime := by
  obtain ⟨⟨⟩, -, made⟩ := except_bind_ok.mp made
  cases made
  exact ⟨rfl, by simp [VectorCatalog.empty], by simp⟩

/-! ## The path that is taken -/

/-- The cheapest acceptable path. -/
def Chosen (runtime : VectorRuntime) (request : SearchRequest) (efSearch : Nat) (path : CandidatePath) : Prop :=
  path ∈ acceptedPaths request runtime.canonical.length (runtime.paths request efSearch) ∧
    ∀ other ∈ acceptedPaths request runtime.canonical.length (runtime.paths request efSearch), path.Before other

/-- There is one cheapest path. -/
theorem Installed.chosen_unique (installed : Installed brought canonical runtime) {efSearch : Nat}
    {path other : CandidatePath} (chosen : Chosen runtime request efSearch path)
    (otherChosen : Chosen runtime request efSearch other) : path = other := by
  have equal := eq_of_not_after (chosen.2 other otherChosen.1) (otherChosen.2 path chosen.1)
  rw [CandidatePath.order_eq, compareLex_eq_eq] at equal
  have ids : path.stamp.id = other.stamp.id := LawfulEqOrd.eq_of_compare equal.2
  have listed : ∀ p, p ∈ runtime.paths request efSearch → ∃ d, runtime.catalog.entries[p.stamp.id]? = some d ∧
      p = d.candidatePath (runtime.estimatedCost request efSearch d) ∧ p.stamp.id ≠ exactScanProjectionId := by
    intro p member
    obtain ⟨d, among, rfl⟩ := List.mem_map.mp member
    obtain ⟨id, entry⟩ := OrdMap.mem_values.mp among
    obtain ⟨named, isOther⟩ := installed.entries id d entry
    rw [VectorProjectionDescriptor.candidatePath_stamp, named]
    exact ⟨d, entry, rfl, isOther⟩
  rcases (mem_acceptedPaths.mp chosen.1).1 with rfl | first
  · rcases (mem_acceptedPaths.mp otherChosen.1).1 with rfl | second
    · rfl
    · obtain ⟨-, -, -, isOther⟩ := listed other second
      exact absurd ids.symm isOther
  · obtain ⟨d, entry, isPath, isOther⟩ := listed path first
    rcases (mem_acceptedPaths.mp otherChosen.1).1 with rfl | second
    · exact absurd ids isOther
    · obtain ⟨e, entry', isPath', -⟩ := listed other second
      rw [ids, entry'] at entry
      cases entry
      rw [isPath, isPath']

/-- A plan takes the cheapest path. -/
theorem chosen_of_plan {efSearch : Nat} {plan : SearchPlan} (planned : runtime.plan request efSearch = .ok plan) :
    ∃ path, Chosen runtime request efSearch path ∧
      plan.selected = path.decision (request.mode.exactRerank request.topK) := by
  obtain ⟨-, path, accepted, decision, first⟩ := VectorPlanner.plan_ok planned
  refine ⟨path, ⟨accepted, ?_⟩, decision⟩
  intro other member
  have sorted := List.pairwise_insertionSort CandidatePath.Before
    (acceptedPaths request runtime.canonical.length (runtime.paths request efSearch))
  have listed := (List.mem_insertionSort CandidatePath.Before).mpr member
  obtain ⟨rest, split⟩ := List.head?_eq_some_iff.mp first
  rw [split] at sorted listed
  rcases List.mem_cons.mp listed with rfl | later
  · exact (Std.Total.total other other).elim id id
  · exact (List.pairwise_cons.mp sorted).1 other later

/-! ## The answer -/

/-- A path answers an exact request with the hits of the oracle: it is the exact scan, or the
artifact that is installed for it is what the catalog describes, is of the scope of the request and
reads its query, and every superseded version is outranked. -/
def Answers (S : Type) [LinearOrder S] [Scoring S] (runtime : VectorRuntime) (request : SearchRequest)
    (path : CandidatePath) : Prop :=
  path.kind = .exactScan ∨ ∃ artifact : VectorArtifact,
    runtime.artifacts[(⟨path.stamp.id, path.stamp.generation⟩ : GenerationKey)]? = some artifact ∧
    runtime.catalog.entries[path.stamp.id]? = some artifact.descriptor ∧
    artifact.descriptor.scope = request.scope ∧ artifact.Reads request.query ∧
    ∀ candidate ∈ runtime.canonical, Superseded request runtime.canonical candidate →
      Outranked S request runtime.canonical candidate

variable {S : Type} [LinearOrder S] [Scoring S]

omit [SegmentEncoding] [HnswEncoding] in
/-- The versions a segment covers are those of the shape of the requests it serves. -/
theorem holds_of_covers {config : VectorSegmentConfig} {sourceCursor : UInt64} {content : List VectorCandidate}
    (perm : content.Perm (canonical.filter (config.Covers sourceCursor ·))) (scope : config.scope = request.scope)
    (field : config.field = request.field) (dimensions : config.dimensions = request.query.dimensions)
    (model : config.embeddingModel = request.embeddingModel) (fresh : request.read.commitCursor ≤ sourceCursor) :
    Holds request canonical content ∧ (∀ c ∈ content, c.matchesModel request.embeddingModel) ∧
      ∀ c ∈ content, c.vector.value.dimensions = request.query.dimensions := by
  refine ⟨⟨_, perm, ?_⟩, ?_, ?_⟩
  · intro candidate competes
    rw [decide_eq_true_iff, SearchRequest.ofShape, VectorSegmentConfig.Covers, scope, field, dimensions, model]
    constructor
    · intro ⟨_, _, ofField, ofDimensions, _⟩
      exact ⟨ofField, ofDimensions⟩
    · intro ⟨ofField, ofDimensions⟩
      exact ⟨competes.1.1, UInt64.le_trans competes.1.2 fresh, ofField, ofDimensions, competes.2.1⟩
  · intro c listed
    have covers := of_decide_eq_true (List.mem_filter.mp (perm.mem_iff.mp listed)).2
    rw [← model]
    exact covers.2.2.2.2
  · intro c listed
    have covers := of_decide_eq_true (List.mem_filter.mp (perm.mem_iff.mp listed)).2
    rw [← dimensions]
    exact covers.2.2.2.1

variable [DenseKernel S]

/-- What a segment that a plan may take answers. -/
theorem searchArtifact_ok {artifact : VectorArtifact} {d : SegmentDescriptor} {cost efSearch : Nat}
    {hits : List (SearchHit S)}
    (kernel : ∀ query values metric, (DenseKernel.scoreRow query values metric : S) = Scoring.dense query values metric)
    (built : artifact.BuiltFrom canonical) (described : artifact.descriptor = .exactSegment d)
    (accepts : Accepts request (d.candidatePath cost)) (oracle : searchExact request canonical = .ok hits) :
    VectorRuntime.searchArtifact .exactSegment artifact request efSearch = .ok hits ↔
      d.scope = request.scope ∧ artifact.Reads request.query ∧
        ∀ candidate ∈ canonical, Superseded request canonical candidate → Outranked S request canonical candidate := by
  obtain ⟨-, visible, found, shown, -, -⟩ := searchExact_ok.mp oracle
  have readable := (materializeVisible_ok shown).1
  have serves : d.Serves request ↔ d.scope = request.scope := by
    constructor
    · exact fun serves => serves.2.1
    · exact fun scope => ⟨accepts.ready, scope, accepts.field, accepts.metric, accepts.model, accepts.dimensions,
        accepts.fresh⟩
  cases artifact with
  | exactSegment segment =>
    cases described
    obtain ⟨config, generation, sourceCursor, candidates, perm, isBuilt⟩ := built
    have body := ImmutableVectorSegment.build_ok isBuilt
    have own : segment.descriptor = SegmentBody.descriptor _ := congrArg SegmentBody.descriptor body
    have content : segment.body.candidates.Perm (canonical.filter (config.Covers sourceCursor ·)) := by
      rw [body]
      exact (List.perm_insertionSort _ _).trans perm
    show segment.search request = .ok hits ↔ _
    rw [ImmutableVectorSegment.search_ok, serves]
    apply and_congr_right
    intro scope
    rw [own] at accepts scope
    obtain ⟨holds, -, -⟩ := holds_of_covers content scope accepts.field accepts.dimensions accepts.model accepts.fresh
    rw [searchExact_content holds oracle]
    exact ⟨fun all => ⟨trivial, all⟩, fun both => both.2⟩
  | compactDense segment =>
    cases described
    obtain ⟨config, generation, sourceCursor, candidates, perm, isBuilt⟩ := built
    obtain ⟨configured, cursor, sorted⟩ := CompactDenseSegment.build_ok isBuilt
    have content : segment.body.candidates.Perm (canonical.filter (config.Covers sourceCursor ·)) := by
      rw [sorted]
      exact (List.perm_insertionSort _ _).trans perm
    rw [← configured, ← cursor] at content
    show segment.search request = .ok hits ↔ _
    by_cases scope : segment.descriptor.scope = request.scope
    · obtain ⟨holds, model, shape⟩ :=
        holds_of_covers content scope accepts.field accepts.dimensions accepts.model accepts.fresh
      have contentReadable := readable.of_perm_sublist content List.filter_sublist
      rw [CompactDenseSegment.search_ok kernel contentReadable model shape, serves, searchExact_content holds oracle]
      exact Iff.rfl
    · constructor
      · intro ran
        unfold CompactDenseSegment.search at ran
        obtain ⟨_, -, ran⟩ := except_bind_ok.mp ran
        obtain ⟨_, -, ran⟩ := except_bind_ok.mp ran
        obtain ⟨isServed, -⟩ := except_reject_ok.mp ran
        exact absurd (not_not.mp isServed).2.1 scope
      · exact fun all => absurd all.1 scope
  | hnsw index => cases described

/-- When a search answers as its path does. -/
theorem execute_ok {efSearch : Nat} {path : CandidatePath} {exactRerank : Nat} {hits : List (SearchHit S)}
    (kernel : ∀ query values metric, (DenseKernel.scoreRow query values metric : S) = Scoring.dense query values metric)
    (installed : Installed brought canonical runtime) (built : ∀ a ∈ brought, a.BuiltFrom canonical)
    (exact_ : request.mode = .exact) (chosen : Chosen runtime request efSearch path)
    (oracle : searchExact request canonical = .ok hits) :
    runtime.execute (path.decision exactRerank) request efSearch = .ok hits ↔ Answers S runtime request path := by
  obtain ⟨isPath, accepts, kept⟩ := mem_acceptedPaths.mp chosen.1
  rw [exact_] at kept
  rw [Answers, installed.canonical]
  rcases isPath with rfl | listed
  · constructor
    · exact fun _ => .inl rfl
    · intro _
      show searchExact request runtime.canonical = .ok hits
      rw [installed.canonical]
      exact oracle
  · obtain ⟨d, among, rfl⟩ := List.mem_map.mp listed
    obtain ⟨id, entry⟩ := OrdMap.mem_values.mp among
    obtain ⟨named, -⟩ := installed.entries id d entry
    subst named
    cases d with
    | hnsw d => cases kept
    | exactSegment d =>
      have notScan : ((VectorProjectionDescriptor.exactSegment d).candidatePath
          (runtime.estimatedCost request efSearch (.exactSegment d))).kind ≠ .exactScan := by
        show AccessPathKind.exactSegment ≠ .exactScan
        decide
      rw [or_iff_right notScan]
      show (runtime.selectArtifact _ >>= fun artifact =>
        VectorRuntime.searchArtifact .exactSegment artifact request efSearch) = .ok hits ↔ _
      rw [except_bind_ok]
      apply exists_congr
      intro artifact
      have selected : runtime.selectArtifact (((VectorProjectionDescriptor.exactSegment d).candidatePath
          (runtime.estimatedCost request efSearch (.exactSegment d))).decision exactRerank) = .ok artifact ↔
          runtime.artifacts[(⟨d.stamp.id, d.stamp.generation⟩ : GenerationKey)]? = some artifact ∧
          runtime.catalog.entries[d.stamp.id]? = some artifact.descriptor := by
        unfold VectorRuntime.selectArtifact
        rw [except_bind_ok]
        constructor
        · intro ⟨found, isFound, rest⟩
          obtain ⟨published, isPublished, rest⟩ := except_bind_ok.mp rest
          obtain ⟨same, rest⟩ := except_reject_ok.mp rest
          cases rest
          rw [not_not.mp same]
          exact ⟨okOr_ok.mp isFound, okOr_ok.mp isPublished⟩
        · intro ⟨found, published⟩
          refine ⟨artifact, okOr_ok.mpr found, except_bind_ok.mpr ⟨artifact.descriptor, okOr_ok.mpr published, ?_⟩⟩
          exact if_neg (not_not.mpr rfl)
      rw [selected, and_assoc]
      apply and_congr_right
      intro found
      apply and_congr_right
      intro published
      have described : artifact.descriptor = .exactSegment d := by
        have same : runtime.catalog.entries[d.stamp.id]? = some (.exactSegment d) := entry
        exact (Option.some.inj (same.symm.trans published)).symm
      obtain ⟨-, member⟩ := installed.artifacts _ artifact found
      rw [searchArtifact_ok kernel (built artifact member) described accepts oracle, described]
      exact Iff.rfl

/-- An exact search through a runtime returns the hits of the oracle exactly when the cheapest
acceptable path answers with them. -/
theorem exact_search_iff {calls : List RuntimeCall} {efSearch : Nat} {hits : List (SearchHit S)}
    (kernel : ∀ query values metric, (DenseKernel.scoreRow query values metric : S) = Scoring.dense query values metric)
    (made : VectorRuntime.new canonical = .ok runtime)
    (built : ∀ artifact ∈ calls.filterMap RuntimeCall.artifact, artifact.BuiltFrom canonical)
    (exact_ : request.mode = .exact) (oracle : searchExact request canonical = .ok hits) :
    (∃ execution, (afterCalls runtime calls).search request efSearch = .ok execution ∧ execution.hits = hits) ↔
      ∃ path, Chosen (afterCalls runtime calls) request efSearch path ∧
        Answers S (afterCalls runtime calls) request path := by
  have installed : Installed (calls.filterMap RuntimeCall.artifact) canonical (afterCalls runtime calls) :=
    (installed_new made).calls fun _ listed => listed
  obtain ⟨valid, -⟩ := searchExact_ok.mp oracle
  obtain ⟨plan, planned⟩ : ∃ plan, (afterCalls runtime calls).plan request efSearch = .ok plan :=
    VectorPlanner.exists_plan valid exact_ _ _
  obtain ⟨path, chosen, decision⟩ := chosen_of_plan planned
  have answers : (afterCalls runtime calls).execute
      (path.decision (request.mode.exactRerank request.topK)) request efSearch = .ok hits ↔ _ :=
    execute_ok kernel installed built exact_ chosen oracle
  rw [← decision] at answers
  constructor
  · rintro ⟨execution, ran, rfl⟩
    obtain ⟨plan', planned', rest⟩ := except_bind_ok.mp ran
    cases planned.symm.trans planned'
    obtain ⟨found, executed, same⟩ := except_bind_ok.mp rest
    cases same
    exact ⟨path, chosen, answers.mp executed⟩
  · intro ⟨path', chosen', answers'⟩
    cases installed.chosen_unique chosen chosen'
    refine ⟨⟨plan, hits⟩, ?_, rfl⟩
    exact except_bind_ok.mpr ⟨plan, planned, except_bind_ok.mpr ⟨hits, answers.mpr answers', rfl⟩⟩

end

/-! ## A segment of another scope -/

section

open Reference

def otherScope : ScopeId := ⟨"instance:other", by decide, by decide⟩

/-- Two vectors of one scope. -/
def pair : List VectorCandidate :=
  [candidate scope (.lit "a" (Eq.refl true)) 1 [one], candidate scope (.lit "b" (Eq.refl true)) 2 [0]]

/-- The segment of the other scope, which has no vectors. -/
def otherBody : SegmentBody := ⟨{ config vectorId with scope := otherScope }, 1, 2, 0, []⟩

theorem check_otherBody : otherBody.check = .ok () := by decide +kernel

def otherSegment : ImmutableVectorSegment := ⟨otherBody, check_otherBody⟩

theorem builtFrom_otherSegment : (VectorArtifact.exactSegment otherSegment).BuiltFrom pair := by
  refine ⟨otherBody.config, 1, 2, [], ?_, ?_⟩
  · rw [show pair.filter (otherBody.config.Covers 2 ·) = [] by decide +kernel]
  · have made : ImmutableVectorSegment.fromParts otherBody = .ok otherSegment := by
      unfold ImmutableVectorSegment.fromParts
      split
      · rfl
      · rename_i e failed
        rw [check_otherBody] at failed
        cases failed
    rw [← made]
    rfl

/-- A request in the scope of the two vectors. -/
def pairRequest : SearchRequest := Reference.request scope 2 [one] 1 .exact

/-- The runtime that has published the segment. -/
def pairCalls : List RuntimeCall := [.publish 0 (.exactSegment otherSegment)]

/-- The better of the two vectors. -/
def pairHits : List (SearchHit Nat) :=
  [⟨⟨.lit "embedding" (Eq.refl true), .lit "a" (Eq.refl true)⟩,
    ⟨.lit "document" (Eq.refl true), .lit "a" (Eq.refl true)⟩, 1, 1⟩]

theorem new_pair : VectorRuntime.new pair = .ok ⟨pair, .empty, ∅⟩ := by
  have valid : pair.forM VectorCandidate.validate = .ok () := by decide +kernel
  unfold VectorRuntime.new
  rw [valid]
  rfl

theorem builtFrom_pairCalls : ∀ artifact ∈ pairCalls.filterMap RuntimeCall.artifact, artifact.BuiltFrom pair := by
  intro artifact listed
  cases List.mem_singleton.mp listed
  exact builtFrom_otherSegment

set_option maxRecDepth 100000 in
theorem searchExact_pair : searchExact pairRequest pair = .ok pairHits := by decide +kernel

set_option maxRecDepth 100000 in
theorem search_pair : ((afterCalls ⟨pair, .empty, ∅⟩ pairCalls).search pairRequest 1 :
    Except Error (SearchExecution Nat)).isOk = false := by decide +kernel

/-- The empty segment of the other scope is cheaper than the scan, is taken, and refuses the request. -/
theorem exact_search_fails_beside_other_scope :
    VectorRuntime.new pair = .ok ⟨pair, .empty, ∅⟩ ∧
    (∀ artifact ∈ pairCalls.filterMap RuntimeCall.artifact, artifact.BuiltFrom pair) ∧
    pairRequest.mode = .exact ∧ searchExact pairRequest pair = .ok pairHits ∧
    ((afterCalls ⟨pair, .empty, ∅⟩ pairCalls).search pairRequest 1 : Except Error (SearchExecution Nat)).isOk = false :=
  ⟨new_pair, builtFrom_pairCalls, rfl, searchExact_pair, search_pair⟩

theorem exact_search_iff_pair :
    ¬ ∃ path, Chosen (afterCalls ⟨pair, .empty, ∅⟩ pairCalls) pairRequest 1 path ∧
      Answers Nat (afterCalls ⟨pair, .empty, ∅⟩ pairCalls) pairRequest path := by
  intro answers
  obtain ⟨execution, ran, -⟩ :=
    (exact_search_iff (fun _ _ _ => rfl) new_pair builtFrom_pairCalls rfl searchExact_pair).mpr answers
  have fails := search_pair
  rw [ran] at fails
  cases fails

end

end Vyrm.Vector
