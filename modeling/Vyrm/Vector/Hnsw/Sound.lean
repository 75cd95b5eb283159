import Vyrm.Vector.Hnsw.Exhaustive

/-!
# A search of any width

Whatever the width of the beam and the links of the graph, a search ranks some of the versions that the
oracle ranks, and none that a newer one supersedes. So its hits are hits of the oracle, in its order.
-/

namespace Vyrm.Vector
open Lib Vyrm.Core

variable {request : SearchRequest}

/-! ## The oracle without a limit -/

section

variable {S : Type} [LinearOrder S] [Scoring S]

/-- `search_exact` for an unlimited `top_k`, which truncates nothing (`exact.rs:43-63`). -/
def searchAll (request : SearchRequest) (candidates : List VectorCandidate) : Except Error (List (SearchHit S)) := do
  request.validate
  let latest ← materializeVisible request candidates
  let hits ← latest.mapM (hitOf request)
  return hits.insertionSort SearchHit.Before

theorem searchAll_ok {candidates : List VectorCandidate} {all : List (SearchHit S)} :
    searchAll request candidates = .ok all ↔ request.validate = .ok () ∧
      ∃ visible ranked, materializeVisible request candidates = .ok visible ∧
        visible.mapM (hitOf request) = .ok ranked ∧ ranked.insertionSort SearchHit.Before = all := by
  unfold searchAll
  rw [except_bind_ok]
  constructor
  · intro ⟨_, valid, rest⟩
    obtain ⟨visible, shown, rest⟩ := except_bind_ok.mp rest
    obtain ⟨ranked, isRanked, same⟩ := except_bind_ok.mp rest
    exact ⟨valid, visible, ranked, shown, isRanked, Except.ok.inj same⟩
  · intro ⟨valid, visible, ranked, shown, isRanked, same⟩
    refine ⟨(), valid, except_bind_ok.mpr ⟨visible, shown, except_bind_ok.mpr ⟨ranked, isRanked, ?_⟩⟩⟩
    exact congrArg Except.ok same

/-- The limit only truncates. -/
theorem searchExact_of_searchAll {candidates : List VectorCandidate} {all : List (SearchHit S)}
    (ran : searchAll request candidates = .ok all) : searchExact request candidates = .ok (all.take request.topK) := by
  obtain ⟨valid, visible, ranked, shown, isRanked, same⟩ := searchAll_ok.mp ran
  refine searchExact_ok.mpr ⟨valid, visible, ranked, shown, isRanked, ?_⟩
  rw [← same]
  rfl

/-- The oracle over some of the versions that a request is shown among all of them: each of them is shown
again, and its hit is one of all hits. -/
theorem searchAll_of_shown {candidates found : List VectorCandidate} {all : List (SearchHit S)}
    (oracle : searchAll request candidates = .ok all) (nodup : found.Nodup)
    (shown : ∀ c ∈ found, LatestIn request candidates c ∧ request.shows c) :
    ∃ some_ : List (SearchHit S), searchAll request found = .ok some_ ∧ some_.Sublist all ∧
      (some_.map (·.reference)).Nodup := by
  obtain ⟨valid, visible, ranked, isShown, isRanked, rfl⟩ := searchAll_ok.mp oracle
  obtain ⟨readable, isVisible⟩ := materializeVisible_ok isShown
  have inside : found ⊆ candidates := fun c listed => (shown c listed).1.1
  obtain ⟨more, perm, sublist⟩ := List.subperm_of_subset nodup inside
  obtain ⟨seen, shownSeen, isSeen⟩ := (readable.of_perm_sublist perm.symm sublist).exists_visible
  have memSeen : ∀ c, c ∈ seen → c ∈ visible := by
    intro c listed
    obtain ⟨latest, shows⟩ := (isSeen.mem c).mp listed
    exact (isVisible.mem c).mpr (shown c latest.1)
  have allRanked := except_mapM_ok.mp isRanked
  obtain ⟨few, fewRanked⟩ : ∃ few : List (SearchHit S), seen.map (hitOf request) = few.map .ok := by
    apply exists_hits
    intro c listed
    obtain ⟨hit, -, isHit⟩ := hit_of_mem allRanked (memSeen c listed)
    exact ⟨hit, isHit⟩
  have distinct : (ranked.map (·.reference)).Nodup := by
    rw [references_of_hits allRanked]
    exact isVisible.distinct
  have fewDistinct : (few.map (·.reference)).Nodup := by
    rw [references_of_hits fewRanked]
    exact isSeen.distinct
  have subset : few ⊆ ranked := by
    intro hit listed
    have image : (Except.ok hit : Except Error (SearchHit S)) ∈ seen.map (hitOf request) := by
      rw [fewRanked]
      exact List.mem_map_of_mem listed
    obtain ⟨c, isOf, isHit⟩ := List.mem_map.mp image
    obtain ⟨other, among, isOther⟩ := hit_of_mem allRanked (memSeen c isOf)
    rw [isHit] at isOther
    cases isOther
    exact among
  refine ⟨few.insertionSort SearchHit.Before, ?_, ?_, ?_⟩
  · exact searchAll_ok.mpr ⟨valid, seen, few, shownSeen, except_mapM_ok.mpr fewRanked, rfl⟩
  · exact insertionSort_sublist (separates_of_distinct distinct) distinct.of_map fewDistinct.of_map subset
  · exact (((List.perm_insertionSort _ few).map _).nodup_iff).mpr fewDistinct

end

/-! ## The beam -/

section

variable {S : Type} [LinearOrder S] [Scoring S] {nodes : List HnswNode} {query : List F32} {metric : ScoreMetric}
  {score : Nat → S}

/-- What a search of a layer has found when it drops what is worse: some of the eligible nodes it
visited. -/
structure Beam (nodes : List HnswNode) (eligible : Nat → Bool) (state : LayerSearch S) : Prop where
  inside : ∀ id ∈ state.visited, id < nodes.length
  nodup : state.visited.Nodup
  queued : ∀ scored ∈ state.frontier, scored.id ∈ state.visited
  best : (state.best.map (·.id)).Subperm (state.visited.filter eligible)

/-- What is left to do: nodes that wait, and nodes that were not visited. -/
def LayerSearch.left (nodes : List HnswNode) (state : LayerSearch S) : Nat :=
  state.frontier.length + (nodes.length - state.visited.length)

namespace Beam

variable {eligible : Nat → Bool} {state : LayerSearch S}

omit [LinearOrder S] [Scoring S] in
theorem visited_le (beam : Beam nodes eligible state) : state.visited.length ≤ nodes.length := by
  have below : state.visited ⊆ List.range nodes.length := fun id listed => List.mem_range.mpr (beam.inside id listed)
  calc state.visited.length ≤ (List.range nodes.length).length := (List.subperm_of_subset beam.nodup below).length_le
    _ = nodes.length := List.length_range

omit [LinearOrder S] [Scoring S] in
/-- A node that is visited and found too bad. -/
theorem mark (beam : Beam nodes eligible state) {id : Nat} (fresh : id ∉ state.visited) (inside : id < nodes.length) :
    Beam nodes eligible { state with visited := id :: state.visited } := by
  refine ⟨List.forall_mem_cons.mpr ⟨inside, beam.inside⟩, List.nodup_cons.mpr ⟨fresh, beam.nodup⟩, ?_, ?_⟩
  · exact fun scored waits => List.mem_cons_of_mem _ (beam.queued scored waits)
  · exact beam.best.trans ((List.sublist_cons_self id state.visited).filter eligible).subperm

/-- A node that is pushed. -/
theorem push (score : Nat → S) (beam : Beam nodes eligible state) {id : Nat} (fresh : id ∉ state.visited) (inside : id < nodes.length) :
    Beam nodes eligible (({ state with visited := id :: state.visited } : LayerSearch S).enqueue (scoredAt score id)
      |>.admitNode eligible (scoredAt score id)) := by
  have visited := Explored.push_visited ({ state with visited := id :: state.visited } : LayerSearch S) eligible
    (scoredAt score id)
  have queue : (({ state with visited := id :: state.visited } : LayerSearch S).enqueue (scoredAt score id)
      |>.admitNode eligible (scoredAt score id)).frontier =
        state.frontier.orderedInsert ScoredNode.Better (scoredAt score id) := by
    unfold LayerSearch.admitNode
    split <;> rfl
  have marked := beam.mark fresh inside
  refine ⟨?_, ?_, ?_, ?_⟩
  · rw [visited]
    exact marked.inside
  · rw [visited]
    exact marked.nodup
  · intro scored waits
    rw [queue, List.mem_orderedInsert] at waits
    rw [visited]
    rcases waits with rfl | old
    · exact List.mem_cons_self
    · exact marked.queued scored old
  · unfold LayerSearch.admitNode
    by_cases isEligible : eligible id = true
    · rw [if_pos (show eligible (scoredAt score id).id = true from isEligible)]
      show ((state.best.orderedInsert _ (scoredAt score id)).map (·.id)).Subperm ((id :: state.visited).filter eligible)
      rw [List.filter_cons, if_pos isEligible]
      have inserted := (List.perm_orderedInsert (fun left right : ScoredNode S => right.Better left)
        (scoredAt score id) state.best).map (·.id)
      exact inserted.subperm.trans ((List.subperm_cons id).mpr beam.best)
    · rw [if_neg (show ¬ eligible (scoredAt score id).id = true from isEligible)]
      exact marked.best

omit [LinearOrder S] [Scoring S] in
/-- The worst of the results goes. -/
theorem drop (beam : Beam nodes eligible state) : Beam nodes eligible { state with best := state.best.tail } :=
  ⟨beam.inside, beam.nodup, beam.queued, (((List.tail_sublist state.best).map _).subperm).trans beam.best⟩

/-- A neighbor is visited, and no more is left to do. -/
theorem visit (beam : Beam nodes eligible state) (scores : Scores nodes query metric score) {ef neighbor : Nat}
    (inside : neighbor < nodes.length) :
    ∃ state', Vector.visit nodes query metric eligible ef state neighbor = .ok state' ∧
      Beam nodes eligible state' ∧ state'.left nodes ≤ state.left nodes := by
  unfold Vector.visit
  by_cases known : neighbor ∈ state.visited
  · rw [if_pos known]
    exact ⟨state, rfl, beam, Nat.le_refl _⟩
  · rw [if_neg known, scores.scored neighbor inside, except_ok_bind]
    have marked := beam.mark known inside
    have many := marked.visited_le
    rw [List.length_cons] at many
    by_cases good : state.best.length < ef ∨ state.best.head?.all (·.score < score neighbor)
    · have pushed := beam.push score known inside
      have visited := Explored.push_visited ({ state with visited := neighbor :: state.visited } : LayerSearch S) eligible
        (scoredAt score neighbor)
      have queue := Explored.push_frontier_length ({ state with visited := neighbor :: state.visited } : LayerSearch S)
        eligible (scoredAt score neighbor)
      have less : ((({ state with visited := neighbor :: state.visited } : LayerSearch S).enqueue
          (scoredAt score neighbor)).admitNode eligible (scoredAt score neighbor)).left nodes ≤ state.left nodes := by
        unfold LayerSearch.left
        rw [visited, queue]
        simp only [List.length_cons]
        omega
      rw [if_pos good]
      by_cases overfull : ef < ((({ state with visited := neighbor :: state.visited } : LayerSearch S).enqueue
          (scoredAt score neighbor)).admitNode eligible (scoredAt score neighbor)).best.length
      · exact ⟨_, congrArg Except.ok (if_pos overfull), pushed.drop, less⟩
      · exact ⟨_, congrArg Except.ok (if_neg overfull), pushed, less⟩
    · rw [if_neg good]
      refine ⟨_, rfl, marked, ?_⟩
      unfold LayerSearch.left
      simp only [List.length_cons]
      omega

theorem visitAll (scores : Scores nodes query metric score) (ef : Nat) (links : List Nat)
    (inside : ∀ neighbor ∈ links, neighbor < nodes.length) (beam : Beam nodes eligible state) :
    ∃ state', links.foldlM (Vector.visit nodes query metric eligible ef) state = .ok state' ∧
      Beam nodes eligible state' ∧ state'.left nodes ≤ state.left nodes := by
  induction links generalizing state with
  | nil => exact ⟨state, rfl, beam, Nat.le_refl _⟩
  | cons neighbor links ih =>
    obtain ⟨state₁, ran₁, beam₁, less₁⟩ := beam.visit scores (inside _ List.mem_cons_self)
    obtain ⟨state₂, ran₂, beam₂, less₂⟩ := ih (fun n listed => inside n (List.mem_cons_of_mem _ listed)) beam₁
    refine ⟨state₂, ?_, beam₂, Nat.le_trans less₂ less₁⟩
    rw [List.foldlM_cons, ran₁, except_ok_bind, ran₂]

/-- Every turn takes a node off the frontier, so the loop ends, and then turns it does not take change
nothing. -/
theorem loop_ends (scores : Scores nodes query metric score) (ef layer bound : Nat) (beam : Beam nodes eligible state)
    (enough : state.left nodes ≤ bound) :
    ∃ last, Beam nodes eligible last ∧
      ∀ turns, bound ≤ turns → searchLoop nodes query metric eligible ef layer turns state = .ok last := by
  induction bound generalizing state with
  | zero =>
    have empty : state.frontier = [] := by
      unfold LayerSearch.left at enough
      exact List.eq_nil_of_length_eq_zero (by omega)
    refine ⟨state, beam, ?_⟩
    intro turns _
    cases turns with
    | zero => rfl
    | succ turns => rw [searchLoop, empty]
  | succ bound ih =>
    cases queue : state.frontier with
    | nil =>
      refine ⟨state, beam, ?_⟩
      intro turns _
      cases turns with
      | zero => rfl
      | succ turns => rw [searchLoop, queue]
    | cons current rest =>
      have taken : Beam nodes eligible { state with frontier := rest } := by
        refine ⟨beam.inside, beam.nodup, ?_, beam.best⟩
        intro scored waits
        exact beam.queued scored (by rw [queue]; exact List.mem_cons_of_mem _ waits)
      by_cases worse : ef ≤ state.best.length ∧ state.best.head?.any (current.score < ·.score)
      · refine ⟨_, taken, ?_⟩
        intro turns many
        obtain ⟨turns, rfl⟩ : ∃ t, turns = t + 1 := ⟨turns - 1, by omega⟩
        rw [searchLoop_cons queue, if_pos worse]
      · obtain ⟨state', ran, beam', less⟩ :=
          taken.visitAll scores ef (linksAt nodes layer current.id) (scores.inside layer current.id)
        have fewer : state'.left nodes ≤ bound := by
          unfold LayerSearch.left at enough less ⊢
          rw [queue, List.length_cons] at enough
          simp only at less
          omega
        obtain ⟨last, isLast, ends⟩ := ih beam' fewer
        refine ⟨last, isLast, ?_⟩
        intro turns many
        obtain ⟨turns, rfl⟩ : ∃ t, turns = t + 1 := ⟨turns - 1, by omega⟩
        rw [searchLoop_cons queue, if_neg worse, ran, except_ok_bind]
        exact ends turns (Nat.le_of_succ_le_succ many)

end Beam

/-- What a search of a layer starts with. -/
theorem Beam.enter (scores : Scores nodes query metric score) (eligible : Nat → Bool) (start : Nat) :
    ∃ state, Vector.enter nodes query metric eligible (⟨[], [], []⟩ : LayerSearch S) start = .ok state ∧
      Beam nodes eligible state ∧ state.left nodes ≤ nodes.length := by
  have empty : Beam nodes eligible (⟨[], [], []⟩ : LayerSearch S) := by
    refine ⟨?_, List.nodup_nil, ?_, List.nil_subperm⟩
    all_goals
      intro _ none
      cases none
  unfold Vector.enter
  by_cases inside : start < nodes.length
  · rw [if_neg (show ¬ (nodes.length ≤ start ∨ start ∈ ([] : List Nat)) by simpa using inside), scores.scored start inside,
      except_ok_bind]
    refine ⟨_, rfl, empty.push score List.not_mem_nil inside, ?_⟩
    have visited := Explored.push_visited ({ visited := [start], frontier := [], best := [] } : LayerSearch S) eligible
      (scoredAt score start)
    have queue := Explored.push_frontier_length ({ visited := [start], frontier := [], best := [] } : LayerSearch S)
      eligible (scoredAt score start)
    show LayerSearch.left nodes ((({ visited := [start], frontier := [], best := [] } : LayerSearch S).enqueue
      (scoredAt score start)).admitNode eligible (scoredAt score start)) ≤ nodes.length
    unfold LayerSearch.left
    rw [visited, queue]
    simp only [List.length_cons, List.length_nil]
    omega
  · rw [if_pos (.inl (Nat.not_lt.mp inside))]
    refine ⟨_, rfl, empty, ?_⟩
    unfold LayerSearch.left
    simp

/-- A search of layer zero finds eligible nodes, each of them once. -/
theorem searchLayer_finds (scores : Scores nodes query metric score) (ef start : Nat) (eligible : Nat → Bool) :
    ∃ found : List (ScoredNode S), searchLayer nodes query [start] ef 0 metric eligible = .ok found ∧
      (found.map (·.id)).Nodup ∧ ∀ id ∈ found.map (·.id), id < nodes.length ∧ eligible id = true := by
  obtain ⟨state, entered, beam, few⟩ := Beam.enter scores eligible start
  obtain ⟨last, isLast, ends⟩ := beam.loop_ends scores ef 0 nodes.length few
  have ids : ((sortScored last.best).map (·.id)).Subperm (last.visited.filter eligible) :=
    (((List.perm_insertionSort ScoredNode.Better last.best).map _).subperm).trans isLast.best
  refine ⟨sortScored last.best, ?_, ?_, ?_⟩
  · unfold searchLayer
    rw [List.foldlM_cons, entered]
    exact except_bind_ok.mpr ⟨state, rfl, except_bind_ok.mpr ⟨last, ends _ (Nat.le_refl _), rfl⟩⟩
  · obtain ⟨kept, perm, sublist⟩ := ids
    exact perm.nodup_iff.mp (sublist.nodup (isLast.nodup.filter _))
  · intro id listed
    obtain ⟨visited, isEligible⟩ := List.mem_filter.mp (ids.subset listed)
    exact ⟨isLast.inside id visited, isEligible⟩

omit [Scoring S] in
theorem nodesAbove_lt_length {score : Nat → S} {count id : Nat} (inside : id < count) :
    nodesAbove score count id < count :=
  calc nodesAbove score count id < (List.range count).length :=
        List.countP_lt_length_iff.mpr ⟨id, List.mem_range.mpr inside,
          decide_eq_false (ScoredNode.Better.irrefl _)⟩
    _ = count := List.length_range

/-- The greedy loop ends as well, since each turn is at a better node. -/
theorem greedyLoop_ends (scores : Scores nodes query metric score) (layer id : Nat) (inside : id < nodes.length) :
    ∃ last, ∀ turns, nodes.length ≤ turns →
      greedyLoop nodes query metric layer turns (scoredAt score id) = .ok last := by
  have above : nodesAbove score nodes.length id < nodes.length := nodesAbove_lt_length inside
  obtain ⟨last, -, -, isEnd⟩ := greedyLoop_run scores layer nodes.length id inside above
  refine ⟨last, ?_⟩
  intro turns many
  obtain ⟨other, ran, -, isOther⟩ := greedyLoop_run scores layer turns id inside (Nat.lt_of_lt_of_le above many)
  rw [ran, isEnd.unique scores isOther]

end

/-! ## The hits of a search -/

namespace HnswIndex

variable [HnswEncoding] {index : HnswIndex}

/-- The loops of a search end: there is a number of turns from which on more of them change nothing. -/
def Ends (S : Type) [LinearOrder S] [Scoring S] (index : HnswIndex) (request : SearchRequest) (query : List F32)
    (efSearch : Nat) : Prop :=
  (∀ (layer start : Nat) (score : S), nodeScore index.body.nodes query index.body.config.metric start = .ok score →
    ∃ last, ∀ turns, index.body.nodes.length ≤ turns →
      greedyLoop index.body.nodes query index.body.config.metric layer turns ⟨start, score⟩ = .ok last) ∧
  ∀ (start : Nat) (entered : LayerSearch S),
    enter index.body.nodes query index.body.config.metric (index.isVisible request) ⟨[], [], []⟩ start = .ok entered →
    ∃ last, ∀ turns, index.body.nodes.length ≤ turns →
      searchLoop index.body.nodes query index.body.config.metric (index.isVisible request) efSearch 0 turns entered =
        .ok last

variable {S : Type} [LinearOrder S] [Scoring S]

/-- What a search returns passed its checks. -/
theorem accepts_of_search {efSearch : Nat} {hits : List (SearchHit S)}
    (ran : index.search request efSearch = .ok hits) : ∃ exactRerank, index.Accepts request exactRerank efSearch := by
  unfold search at ran
  obtain ⟨_, -, rest⟩ := except_bind_ok.mp ran
  cases mode : request.mode with
  | exact =>
    rw [mode] at rest
    cases rest
  | allowApproximate exactRerank | requireApproximate exactRerank =>
  rw [mode] at rest
  simp only [except_ok_bind] at rest
  obtain ⟨width, rest⟩ := except_reject_ok.mp rest
  obtain ⟨serves, rest⟩ := except_reject_ok.mp rest
  obtain ⟨covered, rest⟩ := except_reject_ok.mp rest
  refine ⟨exactRerank, by simp [mode], ?_, ?_, not_not.mp serves, ?_, ?_⟩
  · omega
  · omega
  · intro property required
    by_contra missing
    exact covered ⟨property, required, missing⟩
  · cases isEntry : index.body.entrypoint with
    | none => exact .inl rfl
    | some entry =>
      rw [isEntry] at rest
      cases isQuery : request.query with
      | dense query => exact .inr ⟨query, rfl⟩
      | sparse dimensions indices values =>
        rw [isQuery] at rest
        cases rest
      | multiDense dimensions vectors =>
        rw [isQuery] at rest
        cases rest

/-- Every node of an index that serves a dense query has a score. -/
theorem Accepts.scores {exactRerank efSearch : Nat} {query : List F32}
    (accepts : index.Accepts request exactRerank efSearch) (dense : request.query = .dense query) :
    Scores index.body.nodes query index.body.config.metric fun id =>
      (Scoring.dense query (index.valuesAt id) index.body.config.metric : S) := by
  apply index.scores
  have same := accepts.serves.2.2.2.2.2.1
  rw [dense] at same
  exact same

theorem ends_of_scores {query : List F32} {score : Nat → S}
    (scores : Scores index.body.nodes query index.body.config.metric score) (efSearch : Nat) :
    index.Ends S request query efSearch := by
  refine ⟨?_, ?_⟩
  · intro layer start value isScored
    by_cases inside : start < index.body.nodes.length
    · cases (scores.scored start inside).symm.trans isScored
      exact greedyLoop_ends scores layer start inside
    · unfold nodeScore at isScored
      rw [List.getElem?_eq_none (Nat.not_lt.mp inside)] at isScored
      cases isScored
  · intro start entered isEntered
    obtain ⟨state, ran, beam, few⟩ := Beam.enter scores (index.isVisible request) start
    cases ran.symm.trans isEntered
    obtain ⟨last, -, ends⟩ := beam.loop_ends scores efSearch 0 index.body.nodes.length few
    exact ⟨last, ends⟩

/-- A search that passes its checks asks the oracle about some of the visible versions. -/
theorem search_of_accepts {exactRerank efSearch : Nat} (valid : request.validate = .ok ())
    (accepts : index.Accepts request exactRerank efSearch) :
    ∃ found : List VectorCandidate, found.Nodup ∧
      (∀ c ∈ found, LatestIn request index.candidates c ∧ request.shows c) ∧
      (index.search request efSearch : Except Error (List (SearchHit S))) = searchExact request found := by
  cases isEntry : index.body.entrypoint with
  | none =>
    refine ⟨[], List.nodup_nil, fun _ none => (by cases none), ?_⟩
    rw [search_eq_of_accepts valid accepts, isEntry]
    have noneShown : materializeVisible request [] = .ok [] := by simp [materializeVisible, OrdMap.values]
    unfold searchExact
    rw [valid, except_ok_bind, noneShown]
    simp [bestHits]
  | some entry =>
    obtain ⟨query, dense⟩ : ∃ query, request.query = .dense query := by
      rcases accepts.dense with none | dense
      · rw [isEntry] at none
        cases none
      · exact dense
    have scores := accepts.scores (S := S) dense
    obtain ⟨start, descended, startInside, -⟩ :=
      descend_run scores (((index.body.nodes[entry]?).map (·.level)).getD 0) entry (index.graph.entry entry isEntry)
    obtain ⟨found, searched, nodup, visible⟩ := searchLayer_finds scores efSearch start (index.isVisible request)
    refine ⟨index.candidatesAt ((found.take exactRerank).map (·.id)), ?_, ?_, ?_⟩
    · exact candidatesAt_nodup (((List.take_sublist _ _).map _).nodup nodup)
    · intro c listed
      obtain ⟨id, among, isAt⟩ := List.mem_filterMap.mp listed
      obtain ⟨node, isNode, rfl⟩ := Option.map_eq_some_iff.mp isAt
      exact (isVisible_iff accepts.serves isNode).mp
        (visible id (((List.take_sublist _ _).map _).subset among)).2
    · rw [search_eq_of_accepts valid accepts, isEntry, dense]
      simp only
      rw [descended, except_ok_bind, searched, except_ok_bind]

/-- The hits of a search are hits of the oracle over all versions, in the same order, and its loops
end. -/
theorem search_hits_sublist {exactRerank efSearch : Nat} {all : List (SearchHit S)}
    (accepts : index.Accepts request exactRerank efSearch) (oracle : searchAll request index.candidates = .ok all) :
    (∃ hits, index.search request efSearch = .ok hits ∧ hits.Sublist all ∧ (hits.map (·.reference)).Nodup ∧
      hits.length ≤ request.topK) ∧
    ∀ query, request.query = .dense query → index.Ends S request query efSearch := by
  refine ⟨?_, fun query dense => ends_of_scores (accepts.scores dense) efSearch⟩
  obtain ⟨found, nodup, shown, same⟩ := search_of_accepts (S := S) (searchAll_ok.mp oracle).1 accepts
  obtain ⟨some_, ran, sublist, distinct⟩ := searchAll_of_shown oracle nodup shown
  refine ⟨some_.take request.topK, ?_, (List.take_sublist _ _).trans sublist, ?_, List.length_take_le _ _⟩
  · rw [same]
    exact searchExact_of_searchAll ran
  · exact ((List.take_sublist _ _).map _).nodup distinct

end HnswIndex

section

open Reference

/-- The node that the search of two nodes finds is one of the two hits. -/
theorem search_hits_sublist_oneWay :
    oneWayIndex.Accepts (bothRequest [one]) 2 2 ∧
    searchAll (bothRequest [one]) oneWayIndex.candidates = .ok [hitOfB 1, hitOfA 0] ∧
    oneWayIndex.search (bothRequest [one]) 2 = .ok [hitOfB 1] ∧ [hitOfB 1].Sublist [hitOfB 1, hitOfA 0] := by
  have accepts : oneWayIndex.Accepts (bothRequest [one]) 2 2 := (exhausts_bothRequest one).accepts
  have oracle : searchAll (bothRequest [one]) oneWayIndex.candidates = .ok [hitOfB 1, hitOfA 0] := by decide +kernel
  have ran : oneWayIndex.search (bothRequest [one]) 2 = .ok [hitOfB 1] := by decide +kernel
  obtain ⟨⟨hits, isHits, sublist, -⟩, -⟩ := HnswIndex.search_hits_sublist accepts oracle
  cases ran.symm.trans isHits
  exact ⟨accepts, oracle, ran, sublist⟩

end

end Vyrm.Vector
