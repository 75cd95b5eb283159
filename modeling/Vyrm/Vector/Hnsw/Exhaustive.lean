import Vyrm.Vector.Oracle
import Vyrm.Vector.Reference
import Vyrm.Vector.Hnsw.Traverse

/-!
# A search wide enough for every node

The graph of an index is checked for what its entrypoint leads to in layer zero, but a search enters
layer zero where the greedy descent ends. It returns the hits of the oracle exactly when the versions
that are not reached from there are outranked.
-/

namespace Vyrm.Vector
open Lib Vyrm.Core

variable {request : SearchRequest}

/-! ## What the checks of an index give -/

theorem validateCandidateVersions_ok {candidates : List VectorCandidate} {seen : List (RuntimeRef × UInt64)}
    (checked : validateCandidateVersions candidates seen = .ok ()) :
    (candidates.map VectorCandidate.version).Nodup ∧ ∀ c ∈ candidates, c.version ∉ seen := by
  induction candidates generalizing seen with
  | nil => exact ⟨List.nodup_nil, fun _ none => by cases none⟩
  | cons candidate candidates ih =>
    obtain ⟨_, -, rest⟩ := except_bind_ok.mp checked
    obtain ⟨fresh, rest⟩ := except_reject_ok.mp rest
    obtain ⟨nodup, apart⟩ := ih rest
    refine ⟨?_, List.forall_mem_cons.mpr ⟨fresh, ?_⟩⟩
    · rw [List.map_cons, List.nodup_cons]
      refine ⟨?_, nodup⟩
      intro listed
      obtain ⟨other, member, same⟩ := List.mem_map.mp listed
      exact apart other member (same ▸ List.mem_cons_self)
    · exact fun c listed inside => apart c listed (List.mem_cons_of_mem _ inside)

theorem mem_linksAt {nodes : List HnswNode} {layer id neighbor : Nat} :
    neighbor ∈ linksAt nodes layer id ↔
      ∃ node links, nodes[id]? = some node ∧ node.neighbors[layer]? = some links ∧ neighbor ∈ links := by
  unfold linksAt
  cases nodes[id]? with
  | none => simp
  | some node => cases atLayer : node.neighbors[layer]? <;> simp [atLayer]

/-- The graph of an index. -/
structure HnswBody.Graph (body : HnswBody) : Prop where
  versions : (body.nodes.map (·.candidate.version)).Nodup
  entry : ∀ entry ∈ body.entrypoint, entry < body.nodes.length
  empty : body.entrypoint = none → body.nodes = []
  covers : ∀ node ∈ body.nodes, body.config.Covers body.sourceCursor node.candidate
  inside : ∀ layer id, ∀ neighbor ∈ linksAt body.nodes layer id, neighbor < body.nodes.length

theorem HnswBody.graph_of_validateGraph {body : HnswBody} (checked : validateGraph body = .ok ()) : body.Graph := by
  obtain ⟨_, -, rest⟩ := except_bind_ok.mp checked
  obtain ⟨_, versions, rest⟩ := except_bind_ok.mp rest
  obtain ⟨entry, rest⟩ := except_reject_ok.mp rest
  obtain ⟨-, rest⟩ := except_reject_ok.mp rest
  obtain ⟨-, rest⟩ := except_reject_ok.mp rest
  obtain ⟨covers, rest⟩ := except_reject_ok.mp rest
  obtain ⟨links, -⟩ := except_reject_ok.mp rest
  rw [not_or] at entry
  refine ⟨?_, ?_, ?_, ?_, ?_⟩
  · have nodup := (validateCandidateVersions_ok versions).1
    rwa [List.map_map] at nodup
  · intro id isEntry
    by_contra outside
    exact entry.1 ⟨id, isEntry, Nat.not_lt.mp outside⟩
  · intro none
    by_contra some
    exact entry.2 ⟨fun isEmpty => absurd isEmpty some, fun isSome => absurd none isSome⟩
  · intro node listed
    obtain ⟨id, inside, isNode⟩ := List.mem_iff_getElem.mp listed
    by_contra outside
    exact covers ⟨id, inside, node, List.getElem?_eq_some_iff.mpr ⟨inside, isNode⟩, .inl outside⟩
  · intro layer id neighbor linked
    obtain ⟨node, all, found, atLayer, linked⟩ := mem_linksAt.mp linked
    by_contra outside
    apply links
    refine ⟨id, (List.getElem?_eq_some_iff.mp found).1, node, found, layer,
      (List.getElem?_eq_some_iff.mp atLayer).1, all, atLayer, ?_⟩
    intro valid
    obtain ⟨-, other, isOther, -⟩ := valid.2.2 neighbor linked
    exact outside (List.getElem?_eq_some_iff.mp isOther).1

namespace HnswIndex

variable [HnswEncoding] {index : HnswIndex}

theorem graph (index : HnswIndex) : index.body.Graph := by
  obtain ⟨_, -, rest⟩ := except_bind_ok.mp index.checked
  obtain ⟨_, -, checked⟩ := except_bind_ok.mp rest
  exact HnswBody.graph_of_validateGraph checked

/-- The versions of an index. -/
def candidates (index : HnswIndex) : List VectorCandidate := index.body.nodes.map (·.candidate)

/-- A version is at one place. -/
theorem id_unique {id other : Nat} {node node' : HnswNode} (found : index.body.nodes[id]? = some node)
    (found' : index.body.nodes[other]? = some node') (same : node.candidate.version = node'.candidate.version) :
    id = other := by
  have inside : id < (index.body.nodes.map (·.candidate.version)).length := by
    rw [List.length_map]
    exact (List.getElem?_eq_some_iff.mp found).1
  apply (List.getElem?_inj inside index.graph.versions).mp
  rw [List.getElem?_map, List.getElem?_map, found, found']
  exact congrArg some same

/-! ## Visible nodes -/

/-- Where a version was committed. -/
def cursorAt (index : HnswIndex) (id : Nat) : Nat :=
  match index.body.nodes[id]? with
  | some node => node.candidate.sourceCursor.toNat
  | none => 0

theorem cursorAt_of_found {id : Nat} {node : HnswNode} (found : index.body.nodes[id]? = some node) :
    index.cursorAt id = node.candidate.sourceCursor.toNat := by
  unfold cursorAt
  rw [found]

theorem mem_versionsOf {reference : RuntimeRef} {id : Nat} :
    id ∈ index.versionsOf reference ↔
      ∃ node, index.body.nodes[id]? = some node ∧ node.candidate.vector.reference = reference := by
  unfold versionsOf
  rw [List.mem_insertionSort, List.mem_filter, List.mem_range, decide_eq_true_iff]
  constructor
  · intro ⟨_, node, found, same⟩
    exact ⟨node, found, same⟩
  · intro ⟨node, found, same⟩
    exact ⟨(List.getElem?_eq_some_iff.mp found).1, node, found, same⟩

/-- The versions of a vector come in the order of their cursors. -/
theorem versionsOf_sorted (reference : RuntimeRef) :
    (index.versionsOf reference).Pairwise fun left right => index.cursorAt left ≤ index.cursorAt right := by
  have sorted := List.pairwise_insertionSort (· ≤ ·) (((List.range index.body.nodes.length).filter fun id =>
    ∃ node ∈ index.body.nodes[id]?, node.candidate.vector.reference = reference).map index.cursorAt)
  rw [← List.map_insertionSort (fun left right => ∀ node ∈ index.body.nodes[left]?,
    ∀ other ∈ index.body.nodes[right]?, node.candidate.sourceCursor ≤ other.candidate.sourceCursor) (· ≤ ·)] at sorted
  · exact List.pairwise_map.mp sorted
  · intro left leftListed right rightListed
    obtain ⟨-, node, found, -⟩ : _ ∧ ∃ node, index.body.nodes[left]? = some node ∧ _ := by
      simpa using leftListed
    obtain ⟨-, other, otherFound, -⟩ : _ ∧ ∃ node, index.body.nodes[right]? = some node ∧ _ := by
      simpa using rightListed
    rw [cursorAt_of_found found, cursorAt_of_found otherFound, ← UInt64.le_iff_toNat_le]
    constructor
    · exact fun all => all node found other otherFound
    · intro below node' found' other' otherFound'
      cases found.symm.trans found'
      cases otherFound.symm.trans otherFound'
      exact below

/-- Among the versions of an index a request reads, those that compete are those it may read by cursor and
time. -/
theorem competes_iff (serves : index.descriptor.Serves request) {id : Nat} {node : HnswNode}
    (found : index.body.nodes[id]? = some node) : request.competes node.candidate ↔ index.readable request id := by
  obtain ⟨-, scope, -, -, model, -, -⟩ := serves
  have covers := index.graph.covers node (List.mem_of_getElem? found)
  have sameScope : node.candidate.scope = request.scope := covers.1.trans scope
  have sameModel : node.candidate.matchesModel request.embeddingModel := model ▸ covers.2.2.2.2.1
  unfold SearchRequest.competes SearchRequest.reads readable
  constructor
  · intro ⟨⟨_, early⟩, _, valid⟩
    exact ⟨node, found, early, valid⟩
  · intro ⟨node', found', early, valid⟩
    cases found.symm.trans found'
    exact ⟨⟨sameScope, early⟩, sameModel, valid⟩

/-- A node is visible exactly when its version is the latest and the request is shown it. -/
theorem isVisible_iff (serves : index.descriptor.Serves request) {id : Nat} {node : HnswNode}
    (found : index.body.nodes[id]? = some node) :
    index.isVisible request id = true ↔
      LatestIn request index.candidates node.candidate ∧ request.shows node.candidate := by
  have covers := index.graph.covers node (List.mem_of_getElem? found)
  have field : node.candidate.vector.field = request.field := covers.2.2.1.trans serves.2.2.1
  have latest : (index.versionsOf node.candidate.vector.reference).reverse.find? (index.readable request ·) = some id ↔
      LatestIn request index.candidates node.candidate := by
    rw [find?_reverse_of_sorted _ (versionsOf_sorted _)]
    · rw [decide_eq_true_iff, mem_versionsOf, ← competes_iff serves found]
      unfold LatestIn
      constructor
      · intro ⟨_, competes, most⟩
        refine ⟨List.mem_map_of_mem (List.mem_of_getElem? found), competes, ?_⟩
        intro other listed otherCompetes same
        obtain ⟨node', member, rfl⟩ := List.mem_map.mp listed
        obtain ⟨id', found'⟩ := List.mem_iff_getElem?.mp member
        have below := most id' (mem_versionsOf.mpr ⟨node', found', same⟩)
          (decide_eq_true ((competes_iff serves found').mp otherCompetes))
        rwa [cursorAt_of_found found, cursorAt_of_found found', ← UInt64.le_iff_toNat_le] at below
      · intro ⟨_, competes, most⟩
        refine ⟨⟨node, found, rfl⟩, competes, ?_⟩
        intro id' listed isReadable
        obtain ⟨node', found', same⟩ := mem_versionsOf.mp listed
        rw [cursorAt_of_found found, cursorAt_of_found found', ← UInt64.le_iff_toNat_le]
        exact most _ (List.mem_map_of_mem (List.mem_of_getElem? found'))
          ((competes_iff serves found').mpr (of_decide_eq_true isReadable)) same
    · intro a listedA b listedB same
      obtain ⟨nodeA, foundA, refA⟩ := mem_versionsOf.mp listedA
      obtain ⟨nodeB, foundB, refB⟩ := mem_versionsOf.mp listedB
      rw [cursorAt_of_found foundA, cursorAt_of_found foundB] at same
      exact id_unique foundA foundB (Prod.ext (refA.trans refB.symm) (UInt64.toNat_inj.mp same))
  have shows : request.shows node.candidate ↔ (node.candidate.vector.validTo.all (request.validAt < ·) = true ∧
      request.filter.all (·.matches_ node.candidate.vector.properties) = true) := by
    unfold SearchRequest.shows
    rw [and_iff_right field, Option.all_eq_true, Option.all_eq_true]
    simp
  unfold isVisible
  rw [found]
  simp only [Bool.and_eq_true, decide_eq_true_iff]
  rw [latest, shows, and_assoc]

/-! ## What a search reaches -/

variable {S : Type} [LinearOrder S] [Scoring S]

/-- The values of a dense node. -/
def valuesAt (index : HnswIndex) (id : Nat) : List F32 :=
  match index.body.nodes[id]? with
  | some node =>
    match node.candidate.vector.value with
    | .dense values => values
    | _ => []
  | none => []

/-- Every node of an index has a score for a query of its dimensions. -/
theorem scores (index : HnswIndex) {query : List F32} (dimensions : index.body.config.dimensions = query.length)
    (metric : ScoreMetric) :
    Scores index.body.nodes query metric fun id => (Scoring.dense query (index.valuesAt id) metric : S) := by
  refine ⟨?_, index.graph.inside⟩
  intro id inside
  have found : index.body.nodes[id]? = some (index.body.nodes[id]) := List.getElem?_eq_getElem inside
  have covers := index.graph.covers _ (List.mem_of_getElem? found)
  obtain ⟨-, -, -, shape, -, values, isDense⟩ := covers
  rw [isDense] at shape
  unfold nodeScore valuesAt
  rw [found]
  simp only [isDense]
  exact if_neg (not_not.mpr (dimensions.symm.trans shape.symm))

/-- A version that layer zero leads to from where the descent ends. -/
def Reached (S : Type) [LinearOrder S] [Scoring S] (index : HnswIndex) (query : List F32)
    (candidate : VectorCandidate) : Prop :=
  ∃ entry ∈ index.body.entrypoint, ∃ start,
    DescentEnd S index.body.nodes query index.body.config.metric
      (((index.body.nodes[entry]?).map (·.level)).getD 0) entry start ∧
    ∃ id, Reaches index.body.nodes start id ∧ (index.body.nodes[id]?).map (·.candidate) = some candidate

/-- The requests that a search serves with every node ranked. -/
structure Exhausts (index : HnswIndex) (request : SearchRequest) (query : List F32) (exactRerank efSearch : Nat) :
    Prop where
  dense : request.query = .dense query
  mode : request.mode = .allowApproximate exactRerank ∨ request.mode = .requireApproximate exactRerank
  wide : index.body.nodes.length ≤ exactRerank
  above : exactRerank ≤ efSearch
  below : efSearch ≤ 1000000
  serves : index.descriptor.Serves request
  covered : ∀ property ∈ request.requiredProperties, property ∈ index.descriptor.filterProperties

/-- What a search checks before it walks through the graph (`hnsw.rs:359-398`). -/
structure Accepts (index : HnswIndex) (request : SearchRequest) (exactRerank efSearch : Nat) : Prop where
  mode : request.mode = .allowApproximate exactRerank ∨ request.mode = .requireApproximate exactRerank
  above : exactRerank ≤ efSearch
  below : efSearch ≤ 1000000
  serves : index.descriptor.Serves request
  covered : ∀ property ∈ request.requiredProperties, property ∈ index.descriptor.filterProperties
  dense : index.body.entrypoint = none ∨ ∃ query, request.query = .dense query

/-- What the nodes of a search stand for. -/
def candidatesAt (index : HnswIndex) (ids : List Nat) : List VectorCandidate :=
  ids.filterMap fun id => (index.body.nodes[id]?).map (·.candidate)

/-- A search that passes the checks. -/
theorem search_eq_of_accepts {exactRerank efSearch : Nat} (valid : request.validate = .ok ())
    (accepts : index.Accepts request exactRerank efSearch) :
    (index.search request efSearch : Except Error (List (SearchHit S))) =
      match index.body.entrypoint with
      | none => .ok []
      | some entry =>
        match request.query with
        | .dense query =>
          descend S index.body.nodes query index.body.config.metric 0
            (((index.body.nodes[entry]?).map (·.level)).getD 0) entry >>= fun start =>
          searchLayer index.body.nodes query [start] efSearch 0 index.body.config.metric (index.isVisible request) >>=
            fun (found : List (ScoredNode S)) =>
              searchExact request (index.candidatesAt ((found.take exactRerank).map (·.id)))
        | _ => invalid "HNSW currently supports dense queries only" := by
  have inside : ¬ (efSearch < exactRerank ∨ 1000000 < efSearch) := by
    have := accepts.above
    have := accepts.below
    omega
  have covered : ¬ ∃ property ∈ request.requiredProperties, property ∉ index.descriptor.filterProperties :=
    fun ⟨property, required, missing⟩ => missing (accepts.covered property required)
  unfold search candidatesAt
  rw [valid, except_ok_bind]
  simp only [List.filterMap_map]
  rcases accepts.mode with mode | mode
  all_goals
    rw [mode]
    simp only [except_ok_bind]
    rw [if_neg inside, if_neg (not_not.mpr accepts.serves), if_neg covered]
    rfl

theorem Exhausts.accepts {query : List F32} {exactRerank efSearch : Nat}
    (exhausts : index.Exhausts request query exactRerank efSearch) : index.Accepts request exactRerank efSearch where
  mode := exhausts.mode
  above := exhausts.above
  below := exhausts.below
  serves := exhausts.serves
  covered := exhausts.covered
  dense := .inr ⟨query, exhausts.dense⟩

/-- A search that ranks every node. -/
theorem search_eq {query : List F32} {exactRerank efSearch : Nat} (valid : request.validate = .ok ())
    (exhausts : index.Exhausts request query exactRerank efSearch) :
    (index.search request efSearch : Except Error (List (SearchHit S))) =
      match index.body.entrypoint with
      | none => .ok []
      | some entry =>
        descend S index.body.nodes query index.body.config.metric 0
          (((index.body.nodes[entry]?).map (·.level)).getD 0) entry >>= fun start =>
        searchLayer index.body.nodes query [start] efSearch 0 index.body.config.metric (index.isVisible request) >>=
          fun (found : List (ScoredNode S)) =>
            searchExact request (index.candidatesAt ((found.take exactRerank).map (·.id))) := by
  rw [search_eq_of_accepts valid exhausts.accepts, exhausts.dense]

omit [LinearOrder S] [Scoring S] in
theorem candidatesAt_nodup {ids : List Nat} (nodup : ids.Nodup) : (index.candidatesAt ids).Nodup := by
  apply nodup.filterMap
  intro id other c isAt isAtOther
  obtain ⟨node, found, rfl⟩ := Option.map_eq_some_iff.mp (Option.mem_def.mp isAt)
  obtain ⟨node', found', same⟩ := Option.map_eq_some_iff.mp (Option.mem_def.mp isAtOther)
  exact id_unique found found' (congrArg VectorCandidate.version same.symm)

/-- A search that ranks every node is the oracle over the visible versions it reaches. -/
theorem search_reached (S : Type) [LinearOrder S] [Scoring S] {query : List F32} {exactRerank efSearch : Nat}
    (valid : request.validate = .ok ()) (exhausts : index.Exhausts request query exactRerank efSearch) :
    ∃ found : List VectorCandidate, found.Nodup ∧ found ⊆ index.candidates ∧
      (∀ c, c ∈ found ↔ (LatestIn request index.candidates c ∧ request.shows c) ∧ index.Reached S query c) ∧
      (index.search request efSearch : Except Error (List (SearchHit S))) = searchExact request found := by
  cases isEntry : index.body.entrypoint with
  | none =>
    refine ⟨[], List.nodup_nil, List.nil_subset _, ?_, ?_⟩
    · intro c
      constructor
      · intro listed
        cases listed
      · rintro ⟨-, entry, isSome, -⟩
        rw [isEntry] at isSome
        cases isSome
    · rw [search_eq valid exhausts, isEntry]
      have noneShown : materializeVisible request [] = .ok [] := by simp [materializeVisible, OrdMap.values]
      unfold searchExact
      rw [valid, except_ok_bind, noneShown]
      simp [bestHits]
  | some entry =>
    have inside := index.graph.entry entry isEntry
    have dimensions : index.body.config.dimensions = query.length := by
      have same := exhausts.serves.2.2.2.2.2.1
      rw [exhausts.dense] at same
      exact same
    have scores := index.scores (S := S) dimensions index.body.config.metric
    obtain ⟨start, descended, startInside, isStart⟩ :=
      descend_run scores (((index.body.nodes[entry]?).map (·.level)).getD 0) entry inside
    obtain ⟨found, searched, few, nodup, mem⟩ :=
      searchLayer_run scores (Nat.le_trans exhausts.wide exhausts.above) startInside (index.isVisible request)
    have all : found.take exactRerank = found := List.take_of_length_le (Nat.le_trans few exhausts.wide)
    have ran : (index.search request efSearch : Except Error (List (SearchHit S))) =
        searchExact request (index.candidatesAt (found.map (·.id))) := by
      rw [search_eq valid exhausts, isEntry]
      simp only
      rw [descended, except_ok_bind, searched, except_ok_bind, all]
    refine ⟨index.candidatesAt (found.map (·.id)), candidatesAt_nodup nodup, ?_, ?_, ran⟩
    · intro c listed
      obtain ⟨id, -, isAt⟩ := List.mem_filterMap.mp listed
      obtain ⟨node, isNode, rfl⟩ := Option.map_eq_some_iff.mp isAt
      exact List.mem_map_of_mem (List.mem_of_getElem? isNode)
    · intro c
      constructor
      · intro listed
        obtain ⟨id, among, isAt⟩ := List.mem_filterMap.mp listed
        obtain ⟨node, isNode, rfl⟩ := Option.map_eq_some_iff.mp isAt
        obtain ⟨reaches, visible⟩ := (mem id).mp among
        exact ⟨(isVisible_iff exhausts.serves isNode).mp visible, entry, isEntry, start, isStart, id, reaches, isAt⟩
      · rintro ⟨visible, entry', isEntry', start', isStart', id, reaches, isAt⟩
        cases isEntry.symm.trans isEntry'
        cases isStart.unique scores isStart'
        obtain ⟨node, isNode, rfl⟩ := Option.map_eq_some_iff.mp isAt
        refine List.mem_filterMap.mpr ⟨id, (mem id).mpr ⟨reaches, ?_⟩, isAt⟩
        exact (isVisible_iff exhausts.serves isNode).mpr visible

/-- A search that ranks every node returns the hits of the oracle over all versions exactly when the
visible ones it does not reach are outranked by those it does. -/
theorem exhaustive_search_iff {query : List F32} {exactRerank efSearch : Nat} {hits : List (SearchHit S)}
    (exhausts : index.Exhausts request query exactRerank efSearch)
    (oracle : searchExact request index.candidates = .ok hits) :
    index.search request efSearch = .ok hits ↔
      ∀ candidate, LatestIn request index.candidates candidate → request.shows candidate →
        ¬ index.Reached S query candidate →
        OutrankedBy S request (fun other =>
          (LatestIn request index.candidates other ∧ request.shows other) ∧ index.Reached S query other) candidate := by
  obtain ⟨valid, visible, ranked, shownAll, isRanked, best⟩ := searchExact_ok.mp oracle
  obtain ⟨readable, shown⟩ := materializeVisible_ok shownAll
  obtain ⟨found, nodup, inside, mem, same⟩ := search_reached S valid exhausts
  -- what is reached can be read, and is shown again
  obtain ⟨more, perm, sublist⟩ := List.subperm_of_subset nodup inside
  obtain ⟨seen, shownSeen, isSeen⟩ := (readable.of_perm_sublist perm.symm sublist).exists_visible
  have memSeen : ∀ c, c ∈ seen ↔ (LatestIn request index.candidates c ∧ request.shows c) ∧ index.Reached S query c := by
    intro c
    rw [isSeen.mem, ← mem]
    constructor
    · exact fun both => both.1.1
    · intro listed
      obtain ⟨⟨latest, shows⟩, -⟩ := (mem c).mp listed
      exact ⟨⟨listed, latest.2.1, fun other member => latest.2.2 other (inside member)⟩, shows⟩
  have split : visible.Perm (seen ++ visible.filter (· ∉ seen)) :=
    perm_append_filter shown.distinct.of_map isSeen.distinct.of_map
      fun c reached => (shown.mem c).mpr ((memSeen c).mp reached).1
  -- everything the oracle shows has a hit, so what is reached has one
  have allRanked := except_mapM_ok.mp isRanked
  obtain ⟨few, fewRanked⟩ : ∃ few : List (SearchHit S), seen.map (hitOf request) = few.map .ok := by
    apply exists_hits
    intro c listed
    obtain ⟨hit, -, isHit⟩ := hit_of_mem allRanked ((shown.mem c).mpr ((memSeen c).mp listed).1)
    exact ⟨hit, isHit⟩
  have oracleOfFew : searchExact request found = .ok hits ↔ bestHits request ranked = bestHits request few := by
    rw [searchExact_ok, best]
    constructor
    · intro ⟨_, seen', few', shown', ranked', best'⟩
      cases shownSeen.symm.trans shown'
      have equal := (except_mapM_ok.mp ranked').symm.trans fewRanked
      rw [← (List.map_injective_iff.mpr fun _ _ => Except.ok.inj) equal, best']
    · intro equal
      exact ⟨valid, seen, few, shownSeen, except_mapM_ok.mpr fewRanked, equal.symm⟩
  have ranking : bestHits request ranked = bestHits request few ↔ ∀ c ∈ visible.filter (· ∉ seen),
      ∃ hit : SearchHit S, hitOf request c = .ok hit ∧ request.topK ≤ few.countP (·.Before hit) := by
    rw [← bestHits_add split shown.distinct fewRanked]
    constructor
    · exact fun equal => ⟨ranked, isRanked, equal⟩
    · intro ⟨others, isOthers, equal⟩
      cases isRanked.symm.trans isOthers
      exact equal
  rw [same, oracleOfFew, ranking]
  have outranked : ∀ c, OutrankedBy S request (fun other =>
      (LatestIn request index.candidates other ∧ request.shows other) ∧ index.Reached S query other) c ↔
      ∃ hit : SearchHit S, hitOf request c = .ok hit ∧ request.topK ≤ few.countP (·.Before hit) :=
    fun c => outrankedBy_iff memSeen isSeen.distinct.of_map fewRanked
  constructor
  · intro all c latest shows unreached
    rw [outranked]
    apply all c
    rw [List.mem_filter, decide_eq_true_iff, shown.mem, memSeen]
    exact ⟨⟨latest, shows⟩, fun both => unreached both.2⟩
  · intro all c listed
    rw [List.mem_filter, decide_eq_true_iff, shown.mem, memSeen] at listed
    obtain ⟨⟨latest, shows⟩, unseen⟩ := listed
    exact (outranked c).mp (all c latest shows fun reached => unseen ⟨⟨latest, shows⟩, reached⟩)

end HnswIndex

/-! ## A node that a search leaves behind -/

section

open Reference

def graphConfig : HnswConfig :=
  { id := vectorId, scope, field := "body", dimensions := 1, metric := .dot, embeddingModel := none, m := 2,
    efConstruction := 2, maxLevel := 1, seed := 0, filterProperties := [] }

/-- Two nodes of two layers: both are linked in the upper one, and in layer zero the second one leads
nowhere. -/
def oneWay : HnswBody :=
  { config := graphConfig
    generation := 1
    sourceCursor := 2
    entrypoint := some 0
    nodes :=
      [⟨candidate scope (.lit "a" (Eq.refl true)) 1 [0], 1, [[1], [1]]⟩,
        ⟨candidate scope (.lit "b" (Eq.refl true)) 2 [one], 1, [[], [0]]⟩] }

theorem check_oneWay : oneWay.check = .ok () := by decide +kernel

def oneWayIndex : HnswIndex := ⟨oneWay, check_oneWay⟩

/-- A request for both nodes. -/
def bothRequest (values : List F32) : SearchRequest :=
  Reference.request scope 2 values 2 (.requireApproximate 2)

/-- The hit of the version of a vector. -/
def hit (id : RuntimeId) (cursor : UInt64) (score : Nat) : SearchHit Nat :=
  ⟨⟨.lit "embedding" (Eq.refl true), id⟩, ⟨.lit "document" (Eq.refl true), id⟩, cursor, score⟩

def hitOfA (score : Nat) : SearchHit Nat := hit (.lit "a" (Eq.refl true)) 1 score

def hitOfB (score : Nat) : SearchHit Nat := hit (.lit "b" (Eq.refl true)) 2 score

theorem exhausts_bothRequest (value : F32) :
    oneWayIndex.Exhausts (bothRequest [value]) [value] 2 2 where
  dense := rfl
  mode := .inr rfl
  wide := by decide
  above := by decide
  below := by decide
  serves := ⟨rfl, rfl, rfl, rfl, rfl, rfl, by show (2 : UInt64) ≤ 2; decide⟩
  covered := by
    intro property required
    cases required

set_option maxRecDepth 100000 in
/-- The descent ends at the second node, and the first one is not found from there. -/
theorem exhaustive_search_misses_a_node :
    HnswIndex.fromParts oneWay = .ok oneWayIndex ∧ oneWayIndex.Exhausts (bothRequest [one]) [one] 2 2 ∧
    searchExact (bothRequest [one]) oneWayIndex.candidates = .ok [hitOfB 1, hitOfA 0] ∧
    oneWayIndex.search (bothRequest [one]) 2 = .ok [hitOfB 1] := by
  refine ⟨?_, exhausts_bothRequest one, by decide +kernel, by decide +kernel⟩
  unfold HnswIndex.fromParts
  split
  · rfl
  · rename_i e failed
    rw [check_oneWay] at failed
    cases failed

set_option maxRecDepth 100000 in
/-- A query that is as close to both nodes enters layer zero at the first one. -/
theorem exhaustive_search_iff_bothRequest : oneWayIndex.search (bothRequest [0]) 2 = .ok [hitOfA 0, hitOfB 0] ∧
    ∀ candidate, LatestIn (bothRequest [0]) oneWayIndex.candidates candidate → (bothRequest [0]).shows candidate →
      ¬ oneWayIndex.Reached Nat [0] candidate →
      OutrankedBy Nat (bothRequest [0]) (fun other => (LatestIn (bothRequest [0]) oneWayIndex.candidates other ∧
        (bothRequest [0]).shows other) ∧ oneWayIndex.Reached Nat [0] other) candidate := by
  have oracle : searchExact (bothRequest [0]) oneWayIndex.candidates = .ok [hitOfA 0, hitOfB 0] := by decide +kernel
  have ran : oneWayIndex.search (bothRequest [0]) 2 = .ok [hitOfA 0, hitOfB 0] := by decide +kernel
  exact ⟨ran, (HnswIndex.exhaustive_search_iff (exhausts_bothRequest 0) oracle).mp ran⟩

end

end Vyrm.Vector
