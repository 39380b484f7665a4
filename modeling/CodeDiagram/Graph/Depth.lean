/-
# Roots and depths

A root has no incoming edge.  The depth of a node is the length of a shortest way to it from a root;
nodes that no root leads to have none.  Depths are found with a queue, the nearest nodes first
(`Graph.spread`).  Each turn takes one node from the queue, and what it puts there was hidden
before, so the search ends (`Graph.length_hidden_discovered`).
-/
import CodeDiagram.Graph.Basic

namespace CodeDiagram.Graph

/-! ## 1. Roots -/

/-- Whether an edge ends at a node. -/
def isTarget (g : Graph) (id : NodeId) : Bool := g.edges.any (·.target == id)

/-- The nodes that no edge ends at, in order. -/
def roots (g : Graph) : List NodeId := g.ids.filter (!g.isTarget ·)

/-- How many edges end at a node. -/
def inDegree (g : Graph) (id : NodeId) : Nat := g.edges.countP (·.target == id)

/-- Every node with the number of edges that end at it. -/
def inDegrees (g : Graph) : List (NodeId × Nat) := g.ids.map fun id => (id, g.inDegree id)

/-! ## 2. What is found on the way -/

/-- Where the edges of a node lead. -/
def targets (g : Graph) (id : NodeId) : List NodeId :=
  (g.edges.filter (·.source == id)).map (·.target)

/-- Whether a node has a depth. -/
def isFound (found : List (NodeId × Nat)) (id : NodeId) : Bool := found.any (·.1 == id)

/-- The targets of a node that have no depth yet, each once, at a depth. -/
def discovered (g : Graph) (found : List (NodeId × Nat)) (id : NodeId) (depth : Nat) :
    List (NodeId × Nat) :=
  ((g.targets id).filter (!isFound found ·)).eraseDups.map (·, depth)

/-- The nodes that an edge ends at and that have no depth yet. -/
def hidden (g : Graph) (found : List (NodeId × Nat)) : List NodeId :=
  (g.edges.map (·.target)).eraseDups.filter (!isFound found ·)

theorem isFound_append (a b : List (NodeId × Nat)) (id : NodeId) :
    isFound (a ++ b) id = (isFound a id || isFound b id) := List.any_append

theorem isFound_eq_true {found : List (NodeId × Nat)} {id : NodeId} :
    isFound found id = true ↔ id ∈ found.map (·.1) := by
  simp [isFound]

theorem nodup_eraseDups (ids : List NodeId) : ids.eraseDups.Nodup := by
  match ids with
  | [] => simp
  | id :: rest =>
    rw [List.eraseDups_cons]
    refine List.nodup_cons.mpr ⟨?_, nodup_eraseDups _⟩
    simp [List.mem_eraseDups]
termination_by ids.length
decreasing_by exact Nat.lt_succ_of_le (List.length_filter_le _ _)

theorem mem_discovered {g : Graph} {found : List (NodeId × Nat)} {id t : NodeId}
    {depth k : Nat} :
    (t, k) ∈ g.discovered found id depth ↔
      t ∈ g.targets id ∧ isFound found t = false ∧ k = depth := by
  simp only [discovered, List.mem_map, List.mem_eraseDups, List.mem_filter, Bool.not_eq_true',
    Prod.mk.injEq]
  constructor
  · rintro ⟨_, ⟨ht, hf⟩, rfl, rfl⟩
    exact ⟨ht, hf, rfl⟩
  · rintro ⟨ht, hf, rfl⟩
    exact ⟨t, ⟨ht, hf⟩, rfl, rfl⟩

theorem mem_hidden {g : Graph} {found : List (NodeId × Nat)} {t : NodeId} :
    t ∈ g.hidden found ↔ t ∈ g.edges.map (·.target) ∧ isFound found t = false := by
  simp [hidden, List.mem_eraseDups]

/-- What is discovered is no longer hidden. -/
theorem length_hidden_discovered (g : Graph) (found : List (NodeId × Nat)) (id : NodeId)
    (depth : Nat) :
    (g.discovered found id depth).length +
        (g.hidden (found ++ g.discovered found id depth)).length ≤ (g.hidden found).length := by
  have hmap : (g.discovered found id depth).map (·.1) =
      ((g.targets id).filter (!isFound found ·)).eraseDups := by
    simp [discovered, Function.comp_def]
  have hnodup : ((g.discovered found id depth).map (·.1) ++
      g.hidden (found ++ g.discovered found id depth)).Nodup := by
    refine List.nodup_append.mpr ⟨hmap ▸ nodup_eraseDups _,
      (nodup_eraseDups _).sublist List.filter_sublist, ?_⟩
    rintro a ha b hb rfl
    have hnew := (mem_hidden.mp hb).2
    rw [isFound_append, Bool.or_eq_false_iff] at hnew
    exact absurd (isFound_eq_true.mpr ha) (by simp [hnew.2])
  have hsub : ((g.discovered found id depth).map (·.1) ++
      g.hidden (found ++ g.discovered found id depth)) ⊆ g.hidden found := by
    intro a ha
    rcases List.mem_append.mp ha with ha | ha
    · obtain ⟨⟨t, k⟩, ht, rfl⟩ := List.mem_map.mp ha
      obtain ⟨ht, hf, -⟩ := mem_discovered.mp ht
      obtain ⟨e, he, rfl⟩ := List.mem_map.mp ht
      exact mem_hidden.mpr ⟨List.mem_map_of_mem (List.mem_filter.mp he).1, hf⟩
    · obtain ⟨ht, hf⟩ := mem_hidden.mp ha
      rw [isFound_append, Bool.or_eq_false_iff] at hf
      exact mem_hidden.mpr ⟨ht, hf.1⟩
  have := hnodup.length_le_of_subset hsub
  simpa using this

/-! ## 3. Depths -/

/-- Takes the nodes of a queue one after the other: their targets without a depth lie one deeper
and go to the end of the queue.  A turn takes a node from the queue for each that it adds, or
leaves fewer nodes hidden. -/
def spread (g : Graph) (found : List (NodeId × Nat)) :
    List (NodeId × Nat) → List (NodeId × Nat)
  | [] => found
  | (id, depth) :: queue =>
    have := g.length_hidden_discovered found id (depth + 1)
    g.spread (found ++ g.discovered found id (depth + 1))
      (queue ++ g.discovered found id (depth + 1))
termination_by queue => queue.length + (g.hidden found).length
decreasing_by
  simp only [List.length_cons, List.length_append]
  omega

/-- The depth of every node that a root leads to, in the order in which they are found. -/
def depths (g : Graph) : List (NodeId × Nat) :=
  g.spread (g.roots.map (·, 0)) (g.roots.map (·, 0))

/-- The depth of a node. -/
def depth? (g : Graph) (id : NodeId) : Option Nat := g.depths.lookup id

end CodeDiagram.Graph
