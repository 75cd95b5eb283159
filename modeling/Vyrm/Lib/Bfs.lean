import Mathlib.Data.Nat.Find

/-!
# Breadth-first search

A search that visits what a start leads to, nearest first and up to a depth. Its queue holds the
nodes of one depth and behind them those of the next one, so the depth at which a node is found is
its distance, and nothing that is near enough is cut off by the depth of a longer way to it.
-/

namespace Vyrm.Lib

variable {κ : Type}

/-- A walk of so many steps. -/
def Walk (next : κ → List κ) (start : κ) : Nat → κ → Prop
  | 0, node => node = start
  | length + 1, node => ∃ before, Walk next start length before ∧ node ∈ next before

/-- The shortest walk to a node is of so many steps. -/
structure Distance (next : κ → List κ) (start : κ) (distance : Nat) (node : κ) : Prop where
  walk : Walk next start distance node
  least : ∀ length, Walk next start length node → distance ≤ length

section

variable {next : κ → List κ} {start node : κ}

theorem Distance.unique {distance other : Nat} (one : Distance next start distance node)
    (two : Distance next start other node) : distance = other :=
  Nat.le_antisymm (one.least other two.walk) (two.least distance one.walk)

/-- A node that is walked to is at a distance. -/
theorem Walk.exists_distance {length : Nat} (walk : Walk next start length node) :
    ∃ distance ≤ length, Distance next start distance node := by
  classical
  have found : ∃ length, Walk next start length node := ⟨length, walk⟩
  exact ⟨Nat.find found, Nat.find_min' found walk, Nat.find_spec found, fun _ other => Nat.find_min' found other⟩

end

/-- A search in between: the queue is what is near, at a depth, and then what is far, one step on. -/
structure Searching (next : κ → List κ) (start : κ) (maxDepth depth : Nat) (visited : κ → Prop)
    (near far : List κ) : Prop where
  /-- Everything up to the depth is visited. -/
  within : ∀ length ≤ depth, length ≤ maxDepth → ∀ node, Walk next start length node → visited node
  sound : ∀ node, visited node → ∃ length ≤ maxDepth, Walk next start length node
  near_ : ∀ node ∈ near, Distance next start depth node
  far_ : ∀ node ∈ far, Distance next start (depth + 1) node
  /-- What is visited and no longer queued was expanded, if it is not as deep as can be. -/
  expanded : ∀ node distance, visited node → Distance next start distance node → distance < maxDepth →
    node ∈ near ∨ node ∈ far ∨ ∀ other ∈ next node, visited other

namespace Searching

variable {next : κ → List κ} {start current : κ} {maxDepth depth : Nat} {visited : κ → Prop} {near far : List κ}

theorem begin_ (next : κ → List κ) (start : κ) (maxDepth : Nat) :
    Searching next start maxDepth 0 (· = start) [start] [] where
  within length short _ node walk := by
    obtain rfl := Nat.le_zero.mp short
    exact walk
  sound node is := ⟨0, Nat.zero_le _, is⟩
  near_ node listed := by
    rw [List.mem_singleton.mp listed]
    exact ⟨rfl, fun _ _ => Nat.zero_le _⟩
  far_ node listed := by cases listed
  expanded node _ is _ _ := .inl (List.mem_singleton.mpr is)

/-- A step from a node that is near leads to a node one step on, unless that was visited. -/
theorem discover {node : κ} (searching : Searching next start maxDepth depth visited near far)
    (deeper : depth < maxDepth) (among : current ∈ near) (link : node ∈ next current) (fresh : ¬ visited node) :
    Searching next start maxDepth depth (fun other => other = node ∨ visited other) near (far ++ [node]) := by
  have walk : Walk next start (depth + 1) node := ⟨current, (searching.near_ current among).walk, link⟩
  have distance : Distance next start (depth + 1) node := by
    refine ⟨walk, ?_⟩
    intro length shorter
    by_contra less
    exact fresh (searching.within length (by omega) (by omega) node shorter)
  refine ⟨?_, ?_, searching.near_, ?_, ?_⟩
  · exact fun length short allowed other reached => .inr (searching.within length short allowed other reached)
  · rintro other (rfl | seen)
    · exact ⟨depth + 1, deeper, walk⟩
    · exact searching.sound other seen
  · intro other listed
    rcases List.mem_append.mp listed with before | last
    · exact searching.far_ other before
    · rw [List.mem_singleton.mp last]
      exact distance
  · rintro other length (rfl | seen) isDistance short
    · exact .inr (.inl (List.mem_append_right _ List.mem_cons_self))
    · rcases searching.expanded other length seen isDistance short with isNear | isFar | all
      · exact .inl isNear
      · exact .inr (.inl (List.mem_append_left _ isFar))
      · exact .inr (.inr fun more link => .inr (all more link))

/-- The node at the front of the queue is done, when it is as deep as can be or all it leads to was
visited. -/
theorem done (searching : Searching next start maxDepth depth visited (current :: near) far)
    (complete : depth < maxDepth → ∀ other ∈ next current, visited other) :
    Searching next start maxDepth depth visited near far := by
  refine ⟨searching.within, searching.sound, ?_, searching.far_, ?_⟩
  · exact fun node listed => searching.near_ node (List.mem_cons_of_mem _ listed)
  · intro node distance seen isDistance short
    rcases searching.expanded node distance seen isDistance short with isNear | isFar | all
    · rcases List.mem_cons.mp isNear with rfl | behind
      · have same := (searching.near_ node List.mem_cons_self).unique isDistance
        exact .inr (.inr (complete (same ▸ short)))
      · exact .inl behind
    · exact .inr (.inl isFar)
    · exact .inr (.inr all)

/-- When nothing near is left, what is far comes near. -/
theorem turn (searching : Searching next start maxDepth depth visited [] far) :
    Searching next start maxDepth (depth + 1) visited far [] := by
  refine ⟨?_, searching.sound, searching.far_, ?_, ?_⟩
  · intro length short allowed node walk
    rcases Nat.lt_or_ge depth length with deep | shallow
    · obtain rfl : length = depth + 1 := by omega
      obtain ⟨before, reached, link⟩ := walk
      obtain ⟨distance, least, isDistance⟩ := reached.exists_distance
      have seen := searching.within depth (Nat.le_refl _) (by omega) before reached
      rcases searching.expanded before distance seen isDistance (by omega) with isNear | isFar | all
      · cases isNear
      · have := (searching.far_ before isFar).unique isDistance
        omega
      · exact all node link
    · exact searching.within length shallow allowed node walk
  · intro node listed
    cases listed
  · intro node distance seen isDistance short
    rcases searching.expanded node distance seen isDistance short with isNear | isFar | all
    · cases isNear
    · exact .inl isFar
    · exact .inr (.inr all)

/-- A search that ends has visited what is near enough, and nothing else. -/
theorem ended (searching : Searching next start maxDepth depth visited [] []) (node : κ) :
    visited node ↔ ∃ length ≤ maxDepth, Walk next start length node := by
  refine ⟨searching.sound node, ?_⟩
  rintro ⟨length, short, walk⟩
  induction length generalizing node with
  | zero => exact searching.within 0 (Nat.zero_le _) (Nat.zero_le _) node walk
  | succ length ih =>
    obtain ⟨before, reached, link⟩ := walk
    obtain ⟨distance, least, isDistance⟩ := reached.exists_distance
    have seen := ih before (by omega) reached
    rcases searching.expanded before distance seen isDistance (by omega) with isNear | isFar | all
    · cases isNear
    · cases isFar
    · exact all node link

end Searching

end Vyrm.Lib
