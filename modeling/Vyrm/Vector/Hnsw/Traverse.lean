import Mathlib.Logic.Relation
import Vyrm.Vector.Hnsw

/-!
# Walking through the graph

Where the greedy descent ends, and what a search of layer zero visits that is wide enough to keep
every node: all that its entry leads to, and nothing else.
-/

namespace Vyrm.Vector
open Lib Vyrm.Core

section

variable (S : Type) [LinearOrder S] [Scoring S]

/-- One node scores better than another one. -/
def Preferred (nodes : List HnswNode) (query : List F32) (metric : ScoreMetric) (id other : Nat) : Prop :=
  ∃ score otherScore : S, nodeScore nodes query metric id = .ok score ∧
    nodeScore nodes query metric other = .ok otherScore ∧ (⟨id, score⟩ : ScoredNode S).Better ⟨other, otherScore⟩

/-- A step to the best of the links of a node, which is better than the node. -/
def GreedyStep (nodes : List HnswNode) (query : List F32) (metric : ScoreMetric) (layer id next : Nat) : Prop :=
  next ∈ linksAt nodes layer id ∧ Preferred S nodes query metric next id ∧
    ∀ other ∈ linksAt nodes layer id, ¬ Preferred S nodes query metric other next

/-- Where the steps from a node end: no link leads to a better one. -/
def GreedyEnd (nodes : List HnswNode) (query : List F32) (metric : ScoreMetric) (layer start last : Nat) : Prop :=
  Relation.ReflTransGen (GreedyStep S nodes query metric layer) start last ∧
    ∀ other ∈ linksAt nodes layer last, ¬ Preferred S nodes query metric other last

/-- Where the descent through the layers above zero ends. -/
def DescentEnd (nodes : List HnswNode) (query : List F32) (metric : ScoreMetric) : Nat → Nat → Nat → Prop
  | 0, start, last => last = start
  | layer + 1, start, last => ∃ middle, GreedyEnd S nodes query metric (layer + 1) start middle ∧
    DescentEnd nodes query metric layer middle last

end

/-- A node leads to another one through the links of layer zero. -/
def Reaches (nodes : List HnswNode) : Nat → Nat → Prop :=
  Relation.ReflTransGen fun id next => next ∈ linksAt nodes 0 id

namespace ScoredNode

variable {S : Type} [LinearOrder S]

theorem Better.irrefl (node : ScoredNode S) : ¬ node.Better node := by
  rintro (less | ⟨-, less⟩)
  · exact lt_irrefl _ less
  · exact Nat.lt_irrefl _ less

theorem Better.trans {a b c : ScoredNode S} (first : a.Better b) (second : b.Better c) : a.Better c := by
  rcases first with more | ⟨same, lower⟩ <;> rcases second with more' | ⟨same', lower'⟩
  · exact .inl (lt_trans more' more)
  · exact .inl (same' ▸ more)
  · exact .inl (same.symm ▸ more')
  · exact .inr ⟨same.trans same', Nat.lt_trans lower lower'⟩

/-- Of two nodes with different ids one is better. -/
theorem better_or_better {a b : ScoredNode S} (different : a.id ≠ b.id) : a.Better b ∨ b.Better a := by
  rcases lt_trichotomy a.score b.score with less | same | more
  · exact .inr (.inl less)
  · rcases Nat.lt_or_gt_of_ne different with lower | higher
    · exact .inl (.inr ⟨same, lower⟩)
    · exact .inr (.inr ⟨same.symm, higher⟩)
  · exact .inl (.inl more)

end ScoredNode

section

variable {S : Type} [LinearOrder S] [Scoring S] {nodes : List HnswNode} {query : List F32} {metric : ScoreMetric}
  {score : Nat → S}

/-- Every node has a score, and the links lead to nodes. -/
structure Scores (nodes : List HnswNode) (query : List F32) (metric : ScoreMetric) (score : Nat → S) : Prop where
  scored : ∀ id < nodes.length, nodeScore nodes query metric id = .ok (score id)
  inside : ∀ layer id, ∀ neighbor ∈ linksAt nodes layer id, neighbor < nodes.length

/-- A node with its score. -/
def scoredAt (score : Nat → S) (id : Nat) : ScoredNode S := ⟨id, score id⟩

theorem Scores.preferred_iff (scores : Scores nodes query metric score) {id other : Nat} (inside : id < nodes.length)
    (otherInside : other < nodes.length) :
    Preferred S nodes query metric id other ↔ (scoredAt score id).Better (scoredAt score other) := by
  constructor
  · rintro ⟨s, t, isS, isT, better⟩
    cases (scores.scored id inside).symm.trans isS
    cases (scores.scored other otherInside).symm.trans isT
    exact better
  · exact fun better => ⟨_, _, scores.scored id inside, scores.scored other otherInside, better⟩

/-! ## The greedy descent -/

/-- One turn: the best of a node and its links, and whether it is another one. -/
theorem improve_run (scores : Scores nodes query metric score) (links : List Nat)
    (inside : ∀ neighbor ∈ links, neighbor < nodes.length) (id : Nat) (flag : Bool) :
    ∃ next flag', links.foldlM (improve nodes query metric) (scoredAt score id, flag) =
        .ok (scoredAt score next, flag') ∧
      (next = id ∧ flag' = flag ∨
        next ∈ links ∧ (scoredAt score next).Better (scoredAt score id) ∧ flag' = true) ∧
      ∀ other ∈ links, ¬ (scoredAt score other).Better (scoredAt score next) := by
  induction links generalizing id flag with
  | nil => exact ⟨id, flag, rfl, .inl ⟨rfl, rfl⟩, fun _ listed => by cases listed⟩
  | cons neighbor links ih =>
    have rest := fun other listed => inside other (List.mem_cons_of_mem _ listed)
    have isScored := scores.scored neighbor (inside neighbor List.mem_cons_self)
    rw [List.foldlM_cons, improve, isScored, except_ok_bind]
    by_cases better : (scoredAt score neighbor).Better (scoredAt score id)
    · rw [if_pos (show (⟨neighbor, score neighbor⟩ : ScoredNode S).Better _ from better)]
      obtain ⟨next, flag', ran, moved, top⟩ := ih rest neighbor true
      refine ⟨next, flag', ran, .inr ?_, ?_⟩
      · rcases moved with ⟨rfl, rfl⟩ | ⟨listed, more, rfl⟩
        · exact ⟨List.mem_cons_self, better, rfl⟩
        · exact ⟨List.mem_cons_of_mem _ listed, more.trans better, rfl⟩
      · intro other listed above
        rcases List.mem_cons.mp listed with rfl | later
        · rcases moved with ⟨rfl, -⟩ | ⟨-, more, -⟩
          · exact ScoredNode.Better.irrefl _ above
          · exact ScoredNode.Better.irrefl _ (above.trans more)
        · exact top other later above
    · rw [if_neg (show ¬ (⟨neighbor, score neighbor⟩ : ScoredNode S).Better _ from better)]
      obtain ⟨next, flag', ran, moved, top⟩ := ih rest id flag
      refine ⟨next, flag', ran, ?_, ?_⟩
      · rcases moved with stays | ⟨listed, more, isTrue⟩
        · exact .inl stays
        · exact .inr ⟨List.mem_cons_of_mem _ listed, more, isTrue⟩
      · intro other listed above
        rcases List.mem_cons.mp listed with rfl | later
        · rcases moved with ⟨rfl, -⟩ | ⟨-, more, -⟩
          · exact better above
          · exact better (above.trans more)
        · exact top other later above

/-- How many nodes are better than a node. -/
def nodesAbove (score : Nat → S) (count id : Nat) : Nat :=
  (List.range count).countP fun other => (scoredAt score other).Better (scoredAt score id)

theorem nodesAbove_lt {count id next : Nat} (inside : next < count)
    (better : (scoredAt score next).Better (scoredAt score id)) :
    nodesAbove score count next < nodesAbove score count id := by
  unfold nodesAbove
  rw [List.countP_eq_length_filter, List.countP_eq_length_filter]
  have sublist : ((List.range count).filter fun other => (scoredAt score other).Better (scoredAt score next)).Sublist
      ((List.range count).filter fun other => (scoredAt score other).Better (scoredAt score id)) := by
    apply List.monotone_filter_right
    intro other above
    exact decide_eq_true ((of_decide_eq_true above).trans better)
  apply Nat.lt_of_le_of_ne sublist.length_le
  intro same
  have equal := sublist.eq_of_length same
  have listed : next ∈ (List.range count).filter fun other => (scoredAt score other).Better (scoredAt score id) :=
    List.mem_filter.mpr ⟨List.mem_range.mpr inside, decide_eq_true better⟩
  rw [← equal] at listed
  exact ScoredNode.Better.irrefl _ (of_decide_eq_true (List.mem_filter.mp listed).2)

/-- The loop ends where the steps do. -/
theorem greedyLoop_run (scores : Scores nodes query metric score) (layer turns id : Nat) (inside : id < nodes.length)
    (enough : nodesAbove score nodes.length id < turns) :
    ∃ last, greedyLoop nodes query metric layer turns (scoredAt score id) = .ok last ∧ last < nodes.length ∧
      GreedyEnd S nodes query metric layer id last := by
  induction turns generalizing id with
  | zero => exact absurd enough (Nat.not_lt_zero _)
  | succ turns ih =>
    obtain ⟨next, flag, ran, moved, top⟩ :=
      improve_run scores (linksAt nodes layer id) (scores.inside layer id) id false
    rw [greedyLoop, show (scoredAt score id).id = id from rfl, ran, except_ok_bind]
    rcases moved with ⟨rfl, rfl⟩ | ⟨listed, better, rfl⟩
    · refine ⟨next, rfl, inside, .refl, ?_⟩
      intro other listed preferred
      exact top other listed ((scores.preferred_iff (scores.inside _ _ _ listed) inside).mp preferred)
    · have nextInside := scores.inside _ _ _ listed
      obtain ⟨last, ran, lastInside, steps, isEnd⟩ :=
        ih next nextInside (Nat.lt_of_lt_of_le (nodesAbove_lt nextInside better) (Nat.le_of_lt_succ enough))
      refine ⟨last, ran, lastInside, .head ⟨listed, ?_, ?_⟩ steps, isEnd⟩
      · exact (scores.preferred_iff nextInside inside).mpr better
      · intro other listed preferred
        exact top other listed ((scores.preferred_iff (scores.inside _ _ _ listed) nextInside).mp preferred)

theorem greedyLayer_run (scores : Scores nodes query metric score) (layer id : Nat) (inside : id < nodes.length) :
    ∃ last, greedyLayer S nodes query id layer metric = .ok last ∧ last < nodes.length ∧
      GreedyEnd S nodes query metric layer id last := by
  unfold greedyLayer
  rw [scores.scored id inside, except_ok_bind]
  apply greedyLoop_run scores layer nodes.length id inside
  -- the node itself is not above it
  calc nodesAbove score nodes.length id < (List.range nodes.length).length :=
        List.countP_lt_length_iff.mpr ⟨id, List.mem_range.mpr inside,
          decide_eq_false (ScoredNode.Better.irrefl _)⟩
    _ = nodes.length := List.length_range

theorem descend_run (scores : Scores nodes query metric score) (layers id : Nat) (inside : id < nodes.length) :
    ∃ last, descend S nodes query metric 0 layers id = .ok last ∧ last < nodes.length ∧
      DescentEnd S nodes query metric layers id last := by
  induction layers generalizing id with
  | zero => exact ⟨id, rfl, inside, rfl⟩
  | succ layers ih =>
    obtain ⟨middle, ran, middleInside, isEnd⟩ := greedyLayer_run scores (layers + 1) id inside
    obtain ⟨last, rest, lastInside, descends⟩ := ih middle middleInside
    rw [descend, Nat.zero_add, ran, except_ok_bind]
    exact ⟨last, rest, lastInside, middle, isEnd, descends⟩

/-- The steps from a node end in one place. -/
theorem GreedyEnd.unique (scores : Scores nodes query metric score) {layer start last other : Nat}
    (first : GreedyEnd S nodes query metric layer start last)
    (second : GreedyEnd S nodes query metric layer start other) : last = other := by
  have functional : Relator.RightUnique (GreedyStep S nodes query metric layer) := by
    intro id a b ⟨listedA, _, topA⟩ ⟨listedB, _, topB⟩
    by_contra different
    have insideA := scores.inside _ _ _ listedA
    have insideB := scores.inside _ _ _ listedB
    rcases ScoredNode.better_or_better (a := scoredAt score a) (b := scoredAt score b) different with better | better
    · exact topB a listedA ((scores.preferred_iff insideA insideB).mpr better)
    · exact topA b listedB ((scores.preferred_iff insideB insideA).mpr better)
  have stuck : ∀ {id}, (∀ other ∈ linksAt nodes layer id, ¬ Preferred S nodes query metric other id) →
      ∀ {next}, Relation.ReflTransGen (GreedyStep S nodes query metric layer) id next → id = next := by
    intro id isEnd next steps
    rcases Relation.ReflTransGen.cases_head steps with same | ⟨_, ⟨listed, preferred, _⟩, _⟩
    · exact same
    · exact absurd preferred (isEnd _ listed)
  rcases Relation.ReflTransGen.total_of_right_unique functional first.1 second.1 with steps | steps
  · exact stuck first.2 steps
  · exact (stuck second.2 steps).symm

theorem DescentEnd.unique (scores : Scores nodes query metric score) {layers start last other : Nat}
    (first : DescentEnd S nodes query metric layers start last)
    (second : DescentEnd S nodes query metric layers start other) : last = other := by
  induction layers generalizing start with
  | zero => exact first.trans second.symm
  | succ layers ih =>
    obtain ⟨middle, isEnd, rest⟩ := first
    obtain ⟨middle', isEnd', rest'⟩ := second
    cases isEnd.unique scores isEnd'
    exact ih rest rest'

/-! ## The search of layer zero -/

/-- What a search that drops nothing has found when it is at a node. -/
structure Explored (nodes : List HnswNode) (score : Nat → S) (eligible : Nat → Bool) (start : Nat)
    (current : Option Nat) (state : LayerSearch S) : Prop where
  reached : ∀ id ∈ state.visited, Reaches nodes start id
  inside : ∀ id ∈ state.visited, id < nodes.length
  nodup : state.visited.Nodup
  queued : ∀ scored ∈ state.frontier, scored.id ∈ state.visited
  closed : ∀ id ∈ state.visited, current = some id ∨ (∃ scored ∈ state.frontier, scored.id = id) ∨
    ∀ neighbor ∈ linksAt nodes 0 id, neighbor ∈ state.visited
  best : state.best.Perm ((state.visited.filter eligible).map (scoredAt score))

namespace Explored

variable {eligible : Nat → Bool} {start : Nat} {current : Option Nat} {state : LayerSearch S}

theorem visited_le (explored : Explored nodes score eligible start current state) :
    state.visited.length ≤ nodes.length := by
  have below : state.visited ⊆ List.range nodes.length := fun id listed => List.mem_range.mpr (explored.inside id listed)
  calc state.visited.length ≤ (List.range nodes.length).length := (List.subperm_of_subset explored.nodup below).length_le
    _ = nodes.length := List.length_range

theorem best_le (explored : Explored nodes score eligible start current state) :
    state.best.length ≤ state.visited.length := by
  rw [explored.best.length_eq, List.length_map]
  exact List.length_filter_le _ _

/-- As many visited nodes as there are nodes are all of them. -/
theorem mem_of_full (explored : Explored nodes score eligible start current state)
    (full : nodes.length ≤ state.visited.length) {id : Nat} (inside : id < nodes.length) : id ∈ state.visited := by
  have below : state.visited ⊆ List.range nodes.length := fun id listed => List.mem_range.mpr (explored.inside id listed)
  have perm : state.visited.Perm (List.range nodes.length) :=
    (List.subperm_of_subset explored.nodup below).perm_of_length_le (by rwa [List.length_range])
  exact perm.mem_iff.mpr (List.mem_range.mpr inside)

/-- What is pushed for a node that was not visited. -/
theorem push (explored : Explored nodes score eligible start current state) {id : Nat} (fresh : id ∉ state.visited)
    (inside : id < nodes.length) (reached : Reaches nodes start id) :
    Explored nodes score eligible start current
      (({ state with visited := id :: state.visited } : LayerSearch S).enqueue (scoredAt score id) |>.admitNode eligible
        (scoredAt score id)) := by
  have frontier : ∀ scored, scored ∈ state.frontier.orderedInsert ScoredNode.Better (scoredAt score id) ↔
      scored = scoredAt score id ∨ scored ∈ state.frontier := fun scored => List.mem_orderedInsert _
  have visited : (({ state with visited := id :: state.visited } : LayerSearch S).enqueue (scoredAt score id)
      |>.admitNode eligible (scoredAt score id)).visited = id :: state.visited := by
    unfold LayerSearch.admitNode
    split <;> rfl
  have queue : (({ state with visited := id :: state.visited } : LayerSearch S).enqueue (scoredAt score id)
      |>.admitNode eligible (scoredAt score id)).frontier =
        state.frontier.orderedInsert ScoredNode.Better (scoredAt score id) := by
    unfold LayerSearch.admitNode
    split <;> rfl
  refine ⟨?_, ?_, ?_, ?_, ?_, ?_⟩
  · rw [visited]
    exact List.forall_mem_cons.mpr ⟨reached, explored.reached⟩
  · rw [visited]
    exact List.forall_mem_cons.mpr ⟨inside, explored.inside⟩
  · rw [visited]
    exact List.nodup_cons.mpr ⟨fresh, explored.nodup⟩
  · intro scored member
    rw [queue, frontier] at member
    rw [visited]
    rcases member with rfl | old
    · exact List.mem_cons_self
    · exact List.mem_cons_of_mem _ (explored.queued scored old)
  · intro other listed
    rw [visited] at listed ⊢
    rw [queue]
    rcases List.mem_cons.mp listed with rfl | old
    · exact .inr (.inl ⟨_, (frontier _).mpr (.inl rfl), rfl⟩)
    · rcases explored.closed other old with here | ⟨scored, waits, same⟩ | closed
      · exact .inl here
      · exact .inr (.inl ⟨scored, (frontier _).mpr (.inr waits), same⟩)
      · exact .inr (.inr fun neighbor linked => List.mem_cons_of_mem _ (closed neighbor linked))
  · unfold LayerSearch.admitNode
    by_cases isEligible : eligible id = true
    · rw [if_pos (show eligible (scoredAt score id).id = true from isEligible)]
      show (state.best.orderedInsert _ (scoredAt score id)).Perm (((id :: state.visited).filter eligible).map _)
      rw [List.filter_cons, if_pos isEligible, List.map_cons]
      exact (List.perm_orderedInsert _ _ _).trans (explored.best.cons _)
    · rw [if_neg (show ¬ eligible (scoredAt score id).id = true from isEligible)]
      show state.best.Perm (((id :: state.visited).filter eligible).map _)
      rw [List.filter_cons, if_neg isEligible]
      exact explored.best

theorem push_visited (state : LayerSearch S) (eligible : Nat → Bool) (scored : ScoredNode S) :
    ((state.enqueue scored).admitNode eligible scored).visited = state.visited := by
  unfold LayerSearch.admitNode
  split <;> rfl

theorem push_frontier_length (state : LayerSearch S) (eligible : Nat → Bool) (scored : ScoredNode S) :
    ((state.enqueue scored).admitNode eligible scored).frontier.length = state.frontier.length + 1 := by
  have queue : ((state.enqueue scored).admitNode eligible scored).frontier =
      state.frontier.orderedInsert ScoredNode.Better scored := by
    unfold LayerSearch.admitNode
    split <;> rfl
  rw [queue, List.orderedInsert_length]

/-- A neighbor is visited: every node waits in the frontier once. -/
theorem visit (explored : Explored nodes score eligible start current state) (scores : Scores nodes query metric score)
    {ef neighbor : Nat} (wide : nodes.length ≤ ef) (inside : neighbor < nodes.length)
    (reached : Reaches nodes start neighbor) :
    ∃ state', Vector.visit nodes query metric eligible ef state neighbor = .ok state' ∧
      Explored nodes score eligible start current state' ∧ neighbor ∈ state'.visited ∧
      state.visited ⊆ state'.visited ∧
      state'.frontier.length + (nodes.length - state'.visited.length) =
        state.frontier.length + (nodes.length - state.visited.length) := by
  unfold Vector.visit
  by_cases known : neighbor ∈ state.visited
  · rw [if_pos known]
    exact ⟨state, rfl, explored, known, fun _ => id, rfl⟩
  · have after := explored.push known inside reached
    have visited := push_visited ({ state with visited := neighbor :: state.visited } : LayerSearch S) eligible
      (scoredAt score neighbor)
    have many := after.visited_le
    rw [visited] at many
    have less : state.best.length < ef :=
      calc state.best.length ≤ state.visited.length := explored.best_le
        _ < nodes.length := many
        _ ≤ ef := wide
    rw [if_neg known, scores.scored neighbor inside, except_ok_bind]
    rw [if_pos (show state.best.length < ef ∨ _ from .inl less)]
    have kept : ¬ ef < ((({ state with visited := neighbor :: state.visited } : LayerSearch S).enqueue
        (scoredAt score neighbor)).admitNode eligible (scoredAt score neighbor)).best.length := by
      have := after.best_le
      have := after.visited_le
      omega
    refine ⟨(({ state with visited := neighbor :: state.visited } : LayerSearch S).enqueue
      (scoredAt score neighbor)).admitNode eligible (scoredAt score neighbor),
      congrArg Except.ok (if_neg kept), after, ?_, ?_, ?_⟩
    · rw [visited]
      exact List.mem_cons_self
    · rw [visited]
      exact List.subset_cons_self _ _
    · rw [push_frontier_length, visited]
      simp only [List.length_cons] at many ⊢
      omega

/-- All links of a node are visited. -/
theorem visitAll (scores : Scores nodes query metric score) {ef : Nat} (wide : nodes.length ≤ ef) (links : List Nat)
    (inside : ∀ neighbor ∈ links, neighbor < nodes.length) (reached : ∀ neighbor ∈ links, Reaches nodes start neighbor)
    (explored : Explored nodes score eligible start current state) :
    ∃ state', links.foldlM (Vector.visit nodes query metric eligible ef) state = .ok state' ∧
      Explored nodes score eligible start current state' ∧ (∀ neighbor ∈ links, neighbor ∈ state'.visited) ∧
      state.visited ⊆ state'.visited ∧
      state'.frontier.length + (nodes.length - state'.visited.length) =
        state.frontier.length + (nodes.length - state.visited.length) := by
  induction links generalizing state with
  | nil => exact ⟨state, rfl, explored, fun _ none => (by cases none), fun _ => id, rfl⟩
  | cons neighbor links ih =>
    obtain ⟨state₁, ran₁, explored₁, here, more₁, measure₁⟩ :=
      explored.visit scores wide (inside _ List.mem_cons_self) (reached _ List.mem_cons_self)
    obtain ⟨state₂, ran₂, explored₂, rest, more₂, measure₂⟩ :=
      ih (fun n listed => inside n (List.mem_cons_of_mem _ listed))
        (fun n listed => reached n (List.mem_cons_of_mem _ listed)) explored₁
    refine ⟨state₂, ?_, explored₂, ?_, fun id listed => more₂ (more₁ listed), measure₂.trans measure₁⟩
    · rw [List.foldlM_cons, ran₁, except_ok_bind, ran₂]
    · intro n listed
      rcases List.mem_cons.mp listed with rfl | later
      · exact more₂ here
      · exact rest n later

/-- A search whose frontier is empty, or that has visited all nodes, has visited what its entry leads to. -/
theorem complete (explored : Explored nodes score eligible start none state) (scores : Scores nodes query metric score)
    (root : start ∈ state.visited) (isEnd : state.frontier = [] ∨ nodes.length ≤ state.visited.length) (id : Nat) :
    id ∈ state.visited ↔ Reaches nodes start id := by
  constructor
  · exact explored.reached id
  · intro reaches
    induction reaches with
    | refl => exact root
    | @tail before after _ linked ih =>
      rcases isEnd with empty | full
      · rcases explored.closed before ih with here | ⟨scored, waits, -⟩ | closed
        · cases here
        · rw [empty] at waits
          cases waits
        · exact closed after linked
      · exact explored.mem_of_full full (scores.inside _ _ _ linked)

end Explored

/-- A turn of the loop. -/
theorem searchLoop_cons {eligible : Nat → Bool} {ef layer turns : Nat} {state : LayerSearch S}
    {current : ScoredNode S} {rest : List (ScoredNode S)} (queue : state.frontier = current :: rest) :
    searchLoop nodes query metric eligible ef layer (turns + 1) state =
      if ef ≤ state.best.length ∧ state.best.head?.any (current.score < ·.score) then .ok { state with frontier := rest }
      else (linksAt nodes layer current.id).foldlM (visit nodes query metric eligible ef)
          { state with frontier := rest } >>= searchLoop nodes query metric eligible ef layer turns := by
  rw [searchLoop, queue]

/-- The loop visits all that the entry leads to. -/
theorem searchLoop_run (scores : Scores nodes query metric score) {eligible : Nat → Bool} {ef start : Nat}
    (wide : nodes.length ≤ ef) (turns : Nat) {state : LayerSearch S}
    (explored : Explored nodes score eligible start none state) (root : start ∈ state.visited)
    (enough : state.frontier.length + (nodes.length - state.visited.length) ≤ turns) :
    ∃ last, searchLoop nodes query metric eligible ef 0 turns state = .ok last ∧
      Explored nodes score eligible start none last ∧ ∀ id, id ∈ last.visited ↔ Reaches nodes start id := by
  induction turns generalizing state with
  | zero =>
    have empty : state.frontier = [] := List.eq_nil_of_length_eq_zero (by omega)
    exact ⟨state, rfl, explored, explored.complete scores root (.inl empty)⟩
  | succ turns ih =>
    cases queue : state.frontier with
    | nil =>
      rw [searchLoop, queue]
      exact ⟨state, rfl, explored, explored.complete scores root (.inl queue)⟩
    | cons current rest =>
      rw [searchLoop_cons queue]
      have queued := explored.queued current (by rw [queue]; exact List.mem_cons_self)
      by_cases worse : ef ≤ state.best.length ∧ state.best.head?.any (current.score < ·.score)
      · -- only a search that has found every node stops early
        rw [if_pos worse]
        have full : nodes.length ≤ state.visited.length :=
          Nat.le_trans wide (Nat.le_trans worse.1 explored.best_le)
        have found := explored.complete scores root (.inr full)
        refine ⟨_, rfl, ⟨explored.reached, explored.inside, explored.nodup, ?_, ?_, explored.best⟩, found⟩
        · intro scored waits
          exact explored.queued scored (by rw [queue]; exact List.mem_cons_of_mem _ waits)
        · intro id listed
          refine .inr (.inr fun neighbor linked => ?_)
          exact explored.mem_of_full full (scores.inside _ _ _ linked)
      · rw [if_neg worse]
        have taken : Explored nodes score eligible start (some current.id) { state with frontier := rest } := by
          refine ⟨explored.reached, explored.inside, explored.nodup, ?_, ?_, explored.best⟩
          · intro scored waits
            exact explored.queued scored (by rw [queue]; exact List.mem_cons_of_mem _ waits)
          · intro id listed
            rcases explored.closed id listed with here | ⟨scored, waits, same⟩ | closed
            · cases here
            · rw [queue] at waits
              rcases List.mem_cons.mp waits with rfl | later
              · exact .inl (congrArg some same)
              · exact .inr (.inl ⟨scored, later, same⟩)
            · exact .inr (.inr closed)
        obtain ⟨state', ran, explored', all, more, measure⟩ := taken.visitAll scores wide
          (linksAt nodes 0 current.id) (scores.inside 0 current.id)
          fun neighbor linked => (explored.reached _ queued).tail linked
        have next : Explored nodes score eligible start none state' := by
          refine { explored' with closed := ?_ }
          intro id listed
          rcases explored'.closed id listed with here | waits | closed
          · cases here
            exact .inr (.inr all)
          · exact .inr (.inl waits)
          · exact .inr (.inr closed)
        rw [queue, List.length_cons] at enough
        have less : state'.frontier.length + (nodes.length - state'.visited.length) ≤ turns := by
          rw [measure]
          show rest.length + (nodes.length - state.visited.length) ≤ turns
          omega
        obtain ⟨last, rest, isLast⟩ := ih next (more root) less
        refine ⟨last, ?_, isLast⟩
        rw [ran, except_ok_bind, rest]

/-- A search of layer zero that is wide enough for all nodes finds the eligible ones that its entry leads to. -/
theorem searchLayer_run (scores : Scores nodes query metric score) {ef start : Nat} (wide : nodes.length ≤ ef)
    (inside : start < nodes.length) (eligible : Nat → Bool) :
    ∃ found : List (ScoredNode S), searchLayer nodes query [start] ef 0 metric eligible = .ok found ∧
      found.length ≤ nodes.length ∧ (found.map (·.id)).Nodup ∧
      ∀ id, id ∈ found.map (·.id) ↔ Reaches nodes start id ∧ eligible id = true := by
  have empty : Explored nodes score eligible start none (⟨[], [], []⟩ : LayerSearch S) := by
    refine ⟨?_, ?_, List.nodup_nil, ?_, ?_, .refl _⟩
    all_goals
      intro _ none
      cases none
  have entered := empty.push List.not_mem_nil inside .refl
  have visited := Explored.push_visited ({ visited := [start], frontier := [], best := [] } : LayerSearch S) eligible
    (scoredAt score start)
  have enough : ((({ visited := [start], frontier := [], best := [] } : LayerSearch S).enqueue
      (scoredAt score start)).admitNode eligible (scoredAt score start)).frontier.length + (nodes.length -
      ((({ visited := [start], frontier := [], best := [] } : LayerSearch S).enqueue
      (scoredAt score start)).admitNode eligible (scoredAt score start)).visited.length) ≤ nodes.length := by
    rw [Explored.push_frontier_length, visited]
    show 0 + 1 + (nodes.length - 1) ≤ nodes.length
    omega
  obtain ⟨last, ran, explored, all⟩ := searchLoop_run scores wide nodes.length entered
    (by rw [visited]; exact List.mem_singleton_self start) enough
  have ids : ((sortScored last.best).map (·.id)).Perm (last.visited.filter eligible) := by
    have images := ((List.perm_insertionSort ScoredNode.Better last.best).trans explored.best).map (·.id)
    rw [List.map_map, show ScoredNode.id ∘ scoredAt score = id from rfl, List.map_id] at images
    exact images
  refine ⟨sortScored last.best, ?_, ?_, ids.nodup_iff.mpr (explored.nodup.filter _), ?_⟩
  · unfold searchLayer
    rw [List.foldlM_cons, enter, if_neg (show ¬ (nodes.length ≤ start ∨ start ∈ ([] : List Nat)) by simpa using inside),
      scores.scored start inside, except_ok_bind]
    exact except_bind_ok.mpr ⟨_, rfl, except_bind_ok.mpr ⟨last, ran, rfl⟩⟩
  · rw [sortScored, List.length_insertionSort]
    exact Nat.le_trans explored.best_le explored.visited_le
  · intro id
    rw [ids.mem_iff, List.mem_filter, all]

end

end Vyrm.Vector
