import Vyrm.Core.Runtime.Graph
import Vyrm.Lib.Bfs

/-!
# Traversal

`traverse` of `crates/vyrm-core/src/runtime.rs`: the nodes a start leads to through the relations of
a graph, up to a depth.
-/

namespace Vyrm.Core
open Lib Std

namespace RuntimeGraphSnapshot

/-- `outgoing` (`runtime.rs:1320-1327`). -/
def outgoing (snapshot : RuntimeGraphSnapshot) (from_ : RuntimeRef) : List RuntimeRelation :=
  snapshot.relations.filter fun relation => relation.from_ = from_

theorem outgoing_subset (snapshot : RuntimeGraphSnapshot) (from_ : RuntimeRef) :
    snapshot.outgoing from_ ⊆ snapshot.relations := fun _ listed => (List.mem_filter.mp listed).1

/-- A relation that the traversal follows: no kinds at all permit every one (`runtime.rs:1348-1351`). -/
def permits (relationKinds : List RuntimeType) (relation : RuntimeRelation) : Bool :=
  relationKinds.isEmpty || relation.reference.kind ∈ relationKinds

/-- The set of the visited nodes, and the queue. -/
abbrev Traversal := OrdMap RuntimeRef Unit × List (RuntimeRef × Nat)

/-- One relation of the node that was popped (`runtime.rs:1347-1355`). -/
def follow (relationKinds : List RuntimeType) (depth : Nat) (state : Traversal) (relation : RuntimeRelation) :
    Traversal :=
  if ¬ permits relationKinds relation then state
  else if relation.to_ ∈ state.1 then state
  else (state.1.insert relation.to_ (), state.2 ++ [(relation.to_, depth + 1)])

/-- How many relations lead to a node that was not visited. -/
def unseen (snapshot : RuntimeGraphSnapshot) (visited : OrdMap RuntimeRef Unit) : Nat :=
  snapshot.relations.countP fun relation => relation.to_ ∉ visited

theorem unseen_insert (snapshot : RuntimeGraphSnapshot) {visited : OrdMap RuntimeRef Unit} {relation : RuntimeRelation}
    (here : relation ∈ snapshot.relations) (fresh : relation.to_ ∉ visited) :
    snapshot.unseen (visited.insert relation.to_ ()) < snapshot.unseen visited := by
  unfold unseen
  obtain ⟨before, after, whole⟩ := List.append_of_mem here
  have less (part : List RuntimeRelation) :
      (part.countP fun other => other.to_ ∉ visited.insert relation.to_ ()) ≤ part.countP fun other => other.to_ ∉ visited := by
    refine List.countP_mono_left fun other _ unseen => ?_
    simp only [decide_eq_true_eq, ExtTreeMap.mem_insert, not_or] at unseen ⊢
    exact unseen.2
  have first := less before
  have last := less after
  have seen : relation.to_ ∈ visited.insert relation.to_ () := ExtTreeMap.mem_insert_self
  rw [whole]
  simp only [List.countP_append, List.countP_cons, decide_not, seen, fresh, decide_true, decide_false, Bool.not_true,
    Bool.not_false, if_true, Bool.false_eq_true, if_false]
  simp only [decide_not] at first last
  omega

/-- A node is queued once, for a relation that no longer leads to an unvisited node. -/
theorem unseen_follow (snapshot : RuntimeGraphSnapshot) (relationKinds : List RuntimeType) (depth : Nat)
    {relations : List RuntimeRelation} (listed : relations ⊆ snapshot.relations) (state : Traversal) :
    snapshot.unseen (relations.foldl (follow relationKinds depth) state).1 +
      (relations.foldl (follow relationKinds depth) state).2.length ≤ snapshot.unseen state.1 + state.2.length := by
  induction relations generalizing state with
  | nil => exact Nat.le_refl _
  | cons relation relations ih =>
    obtain ⟨here, listed⟩ := List.cons_subset.mp listed
    apply Nat.le_trans (ih listed _)
    rw [follow]
    split
    · exact Nat.le_refl _
    split
    · exact Nat.le_refl _
    next fresh =>
    have fewer := snapshot.unseen_insert here fresh
    rw [List.length_append, List.length_singleton]
    dsimp only
    omega

/-- The loop of `traverse` (`runtime.rs:1343-1357`). -/
def traverseLoop (snapshot : RuntimeGraphSnapshot) (maxDepth : Nat) (relationKinds : List RuntimeType)
    (visited : OrdMap RuntimeRef Unit) : List (RuntimeRef × Nat) → OrdMap RuntimeRef Unit
  | [] => visited
  | (current, depth) :: queue =>
    if maxDepth ≤ depth then traverseLoop snapshot maxDepth relationKinds visited queue
    else
      let state := (snapshot.outgoing current).foldl (follow relationKinds depth) (visited, queue)
      traverseLoop snapshot maxDepth relationKinds state.1 state.2
termination_by queue => snapshot.unseen visited + queue.length
decreasing_by
  · simp
  · have few := snapshot.unseen_follow relationKinds depth (snapshot.outgoing_subset current) (visited, queue)
    simp only [List.length_cons] at few ⊢
    omega

/-- `traverse` (`runtime.rs:1336-1359`). -/
def traverse (snapshot : RuntimeGraphSnapshot) (start : RuntimeRef) (maxDepth : Nat)
    (relationKinds : List RuntimeType) : List RuntimeRef :=
  (snapshot.traverseLoop maxDepth relationKinds ((∅ : OrdMap RuntimeRef Unit).insert start ()) [(start, 0)]).keys

/-! ## What is reached -/

/-- Where the relations of a node lead that are followed. -/
def next (snapshot : RuntimeGraphSnapshot) (relationKinds : List RuntimeType) (node : RuntimeRef) : List RuntimeRef :=
  ((snapshot.outgoing node).filter (permits relationKinds)).map (·.to_)

/-- The queue of a search: the nodes of one depth, and then those of the next. -/
def queued (depth : Nat) (near far : List RuntimeRef) : List (RuntimeRef × Nat) :=
  near.map (·, depth) ++ far.map (·, depth + 1)

section

variable {snapshot : RuntimeGraphSnapshot} {relationKinds : List RuntimeType} {start current : RuntimeRef}
  {maxDepth depth : Nat}

/-- The relations of a node queue what they discover. -/
theorem searching_follow {relations : List RuntimeRelation} (listed : relations ⊆ snapshot.outgoing current)
    (deeper : depth < maxDepth) {visited : OrdMap RuntimeRef Unit} {near far : List RuntimeRef}
    (searching : Searching (snapshot.next relationKinds) start maxDepth depth (· ∈ visited) (current :: near) far) :
    ∃ found, (relations.foldl (follow relationKinds depth) (visited, queued depth near far)).2 =
        queued depth near (far ++ found) ∧
      Searching (snapshot.next relationKinds) start maxDepth depth
        (· ∈ (relations.foldl (follow relationKinds depth) (visited, queued depth near far)).1) (current :: near)
        (far ++ found) ∧
      (∀ node ∈ visited, node ∈ (relations.foldl (follow relationKinds depth) (visited, queued depth near far)).1) ∧
      ∀ relation ∈ relations, permits relationKinds relation = true →
        relation.to_ ∈ (relations.foldl (follow relationKinds depth) (visited, queued depth near far)).1 := by
  induction relations generalizing visited far with
  | nil => exact ⟨[], by simp, by simpa using searching, fun _ seen => seen, fun _ absent => by cases absent⟩
  | cons relation relations ih =>
    obtain ⟨here, rest⟩ := List.cons_subset.mp listed
    rw [List.foldl_cons, follow]
    by_cases allowed : permits relationKinds relation = true
    · rw [if_neg (not_not.mpr allowed)]
      by_cases seen : relation.to_ ∈ visited
      · rw [if_pos seen]
        obtain ⟨found, queue, later, kept, all_⟩ := ih rest searching
        refine ⟨found, queue, later, kept, fun other member permitted => ?_⟩
        rcases List.mem_cons.mp member with rfl | member
        · exact kept _ seen
        · exact all_ other member permitted
      · rw [if_neg seen]
        have link : relation.to_ ∈ snapshot.next relationKinds current :=
          List.mem_map.mpr ⟨relation, List.mem_filter.mpr ⟨here, allowed⟩, rfl⟩
        have discovered := searching.discover deeper List.mem_cons_self link seen
        have same : (fun other => other = relation.to_ ∨ other ∈ visited) =
            fun other => other ∈ visited.insert relation.to_ () := by
          funext other
          rw [ExtTreeMap.mem_insert, LawfulEqOrd.compare_eq_iff_eq, eq_comm (a := other)]
        rw [same] at discovered
        have queue : queued depth near far ++ [(relation.to_, depth + 1)] = queued depth near (far ++ [relation.to_]) := by
          simp [queued]
        rw [queue]
        obtain ⟨found, queue, later, kept, all_⟩ := ih rest discovered
        rw [List.append_assoc] at queue later
        have own : relation.to_ ∈ visited.insert relation.to_ () := ExtTreeMap.mem_insert_self
        refine ⟨_, queue, later, fun node old => kept node (ExtTreeMap.mem_insert.mpr (.inr old)), ?_⟩
        intro other member permitted
        rcases List.mem_cons.mp member with rfl | member
        · exact kept _ own
        · exact all_ other member permitted
    · rw [if_pos allowed]
      obtain ⟨found, queue, later, kept, all_⟩ := ih rest searching
      refine ⟨found, queue, later, kept, fun other member permitted => ?_⟩
      rcases List.mem_cons.mp member with rfl | member
      · exact absurd permitted allowed
      · exact all_ other member permitted

/-- The front of a queue is a node of the least depth. -/
theorem exists_front {queue : List (RuntimeRef × Nat)} {visited : OrdMap RuntimeRef Unit} {near far : List RuntimeRef}
    (whole : queued depth near far = queue)
    (searching : Searching (snapshot.next relationKinds) start maxDepth depth (· ∈ visited) near far) :
    queue = [] ∧ near = [] ∧ far = [] ∨ ∃ current depth near far, queue = (current, depth) :: queued depth near far ∧
      Searching (snapshot.next relationKinds) start maxDepth depth (· ∈ visited) (current :: near) far := by
  subst whole
  cases near with
  | cons current near => exact .inr ⟨current, depth, near, far, rfl, searching⟩
  | nil =>
    cases far with
    | nil => exact .inl ⟨rfl, rfl, rfl⟩
    | cons current far => exact .inr ⟨current, depth + 1, far, [], by simp [queued], searching.turn⟩

/-- The loop visits what is near enough, and nothing else. -/
theorem mem_traverseLoop {visited : OrdMap RuntimeRef Unit} {queue : List (RuntimeRef × Nat)} {near far : List RuntimeRef}
    (whole : queued depth near far = queue)
    (searching : Searching (snapshot.next relationKinds) start maxDepth depth (· ∈ visited) near far) (node : RuntimeRef) :
    node ∈ snapshot.traverseLoop maxDepth relationKinds visited queue ↔
      ∃ length ≤ maxDepth, Walk (snapshot.next relationKinds) start length node := by
  induction visited, queue using traverseLoop.induct snapshot maxDepth relationKinds generalizing depth near far with
  | case1 visited =>
    rcases exists_front whole searching with ⟨-, rfl, rfl⟩ | ⟨_, _, _, _, absurd_, -⟩
    · rw [traverseLoop]
      exact searching.ended node
    · cases absurd_
  | case2 visited current depth' queue deep ih =>
    rcases exists_front whole searching with ⟨absurd_, -, -⟩ | ⟨_, _, near', far', same, front⟩
    · cases absurd_
    · obtain ⟨⟨rfl, rfl⟩, rfl⟩ : (current = _ ∧ depth' = _) ∧ queue = _ := by simpa using same
      rw [traverseLoop, if_pos deep]
      exact ih rfl (front.done fun shallow => absurd deep (Nat.not_le.mpr shallow))
  | case3 visited current depth' queue deep state =>
    rename_i ih
    rcases exists_front whole searching with ⟨absurd_, -, -⟩ | ⟨_, _, near', far', same, front⟩
    · cases absurd_
    · obtain ⟨⟨rfl, rfl⟩, rfl⟩ : (current = _ ∧ depth' = _) ∧ queue = _ := by simpa using same
      obtain ⟨found, queue, later, -, all_⟩ :=
        searching_follow (List.Subset.refl _) (Nat.lt_of_not_le deep) front
      rw [traverseLoop, if_neg deep]
      refine ih queue.symm (later.done fun _ other link => ?_)
      obtain ⟨relation, listed, rfl⟩ := List.mem_map.mp link
      obtain ⟨out, permitted⟩ := List.mem_filter.mp listed
      exact all_ relation out permitted

end

/-- A traversal returns, each once, the nodes that a walk of at most so many permitted relations leads to. -/
theorem traverse_reaches (snapshot : RuntimeGraphSnapshot) (start : RuntimeRef) (maxDepth : Nat)
    (relationKinds : List RuntimeType) : (snapshot.traverse start maxDepth relationKinds).Nodup ∧
      ∀ node, node ∈ snapshot.traverse start maxDepth relationKinds ↔
        ∃ length ≤ maxDepth, Walk (snapshot.next relationKinds) start length node := by
  constructor
  · have distinct := ExtTreeMap.distinct_keys (t := snapshot.traverseLoop maxDepth relationKinds
      ((∅ : OrdMap RuntimeRef Unit).insert start ()) [(start, 0)])
    refine distinct.imp fun different same => ?_
    exact different (LawfulEqOrd.compare_eq_iff_eq.mpr same)
  · intro node
    rw [traverse, ExtTreeMap.mem_keys]
    have begins := Searching.begin_ (snapshot.next relationKinds) start maxDepth
    have same : (fun other => other = start) = fun other => other ∈ (∅ : OrdMap RuntimeRef Unit).insert start () := by
      funext other
      rw [ExtTreeMap.mem_insert, LawfulEqOrd.compare_eq_iff_eq, eq_comm (a := other)]
      simp
    rw [same] at begins
    exact mem_traverseLoop (by simp [queued]) begins node

end RuntimeGraphSnapshot

end Vyrm.Core
