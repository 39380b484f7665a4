/-
# Depths by tables

`Graph/Depth.lean` says what roots, degrees and depths are by searching lists.  Here they are found
with sets and tables: the set of all targets, a table that counts the edges ending at each node, a
table of where the edges of each node lead, and a table of the depths found so far beside the queue
(`Graph.depthTable?`).  Both find the same: see `Proofs/Graph/Searching.lean`.
-/
import CodeDiagram.Graph.Depth
import Mathlib.Data.List.Count
import Std.Data.HashMap.Lemmas
import Std.Data.HashSet.Lemmas

namespace CodeDiagram.Graph

/-! ## 1. Roots and degrees -/

/-- The nodes that are not in the set of all targets, in order. -/
def rootList (g : Graph) : List NodeId :=
  let targets := Std.HashSet.ofList (g.edges.map (·.target))
  g.ids.filter (!targets.contains ·)

/-- Every node with a count, from which each edge that ends there counts on. -/
def degreeTable (g : Graph) : Std.HashMap NodeId Nat :=
  g.edges.foldl (fun degrees e => degrees.insert e.target (degrees.getD e.target 0 + 1))
    (.ofList (g.ids.map (·, 0)))

/-! ## 2. A search -/

/-- Where the edges of each node lead, in the order of the edges. -/
def childTable (g : Graph) : Std.HashMap NodeId (List NodeId) :=
  g.edges.foldl
    (fun children e => children.insert e.source (children.getD e.source [] ++ [e.target])) ∅

/-- The depths found so far, and the nodes whose edges were not followed yet. -/
structure Search where
  depths : Std.HashMap NodeId Nat := ∅
  queue : List NodeId := []

namespace Search

/-- Puts a node with its depth into the queue. -/
def enter (depth : Nat) (s : Search) (id : NodeId) : Search where
  depths := s.depths.insert id depth
  queue := s.queue ++ [id]

/-- Puts a node into the queue if it has no depth yet. -/
def reach (depth : Nat) (s : Search) (id : NodeId) : Search :=
  if s.depths.contains id then s else s.enter depth id

/-- The roots wait, with depth zero. -/
def start (roots : List NodeId) : Search := roots.foldl (enter 0) {}

/-- Follows the edges of a node, with the rest of the queue. -/
def follow (children : Std.HashMap NodeId (List NodeId)) (s : Search) (id : NodeId) (depth : Nat)
    (queue : List NodeId) : Search :=
  (children.getD id []).foldl (reach (depth + 1)) { s with queue }

/-- Takes a node from the queue and follows its edges.  There is no answer if the node has no
depth. -/
def turn (children : Std.HashMap NodeId (List NodeId)) (s : Search) : Option Search :=
  match s.queue with
  | [] => some s
  | id :: queue => s.depths[id]?.map fun depth => s.follow children id depth queue

/-- The search after a number of turns. -/
def after (children : Std.HashMap NodeId (List NodeId)) : Nat → Search → Option Search
  | 0, s => some s
  | n + 1, s => s.turn children >>= after children n

/-- How many turns are left at most: one for each node that waits or may still be reached. -/
def turnsLeft (children : Std.HashMap NodeId (List NodeId)) (s : Search) : Nat :=
  s.queue.length + (children.toList.flatMap (·.2)).countP (!s.depths.contains ·)

/-- A node that is put into the queue could still be reached before. -/
theorem turnsLeft_reach_le {children : Std.HashMap NodeId (List NodeId)} {id : NodeId}
    (h : id ∈ children.toList.flatMap (·.2)) (depth : Nat) (s : Search) :
    (s.reach depth id).turnsLeft children ≤ s.turnsLeft children := by
  unfold reach
  split
  · exact Nat.le_refl _
  · rename_i hnew
    generalize hall : children.toList.flatMap (·.2) = all at h
    have hsplit : ∀ other, (!(s.enter depth id).depths.contains other) =
        (other != id && !s.depths.contains other) := by
      intro other
      rw [enter, Std.HashMap.contains_insert, Bool.not_or, bne, Bool.beq_comm]
    have hless : all.countP (!(s.enter depth id).depths.contains ·) <
        all.countP (!s.depths.contains ·) := by
      simp only [hsplit]
      rw [← List.countP_filter, List.countP_eq_length_filter (p := (!s.depths.contains ·)),
        List.countP_lt_length_iff]
      exact ⟨id, List.mem_filter.mpr ⟨h, by simpa using hnew⟩, by simp⟩
    rw [turnsLeft, turnsLeft, hall]
    simp only [enter, List.length_append, List.length_singleton] at hless ⊢
    omega

theorem turnsLeft_foldl_reach_le {children : Std.HashMap NodeId (List NodeId)}
    {ids : List NodeId} (h : ids ⊆ children.toList.flatMap (·.2)) (depth : Nat) (s : Search) :
    (ids.foldl (reach depth) s).turnsLeft children ≤ s.turnsLeft children := by
  induction ids generalizing s with
  | nil => exact Nat.le_refl _
  | cons id ids ih =>
    obtain ⟨hid, hids⟩ := List.cons_subset.mp h
    exact Nat.le_trans (ih hids _) (turnsLeft_reach_le hid depth s)

/-- Where the edges of a node lead can be reached. -/
theorem getD_subset (children : Std.HashMap NodeId (List NodeId)) (id : NodeId) :
    children.getD id [] ⊆ children.toList.flatMap (·.2) := by
  intro child hchild
  rw [Std.HashMap.getD_eq_getD_getElem?] at hchild
  cases hids : children[id]? with
  | none => simp [hids] at hchild
  | some ids =>
    rw [hids] at hchild
    exact List.mem_flatMap.mpr ⟨(id, ids), Std.HashMap.mem_toList_iff_getElem?_eq_some.mpr hids,
      hchild⟩

/-- A turn leaves fewer turns. -/
theorem turnsLeft_follow_lt (children : Std.HashMap NodeId (List NodeId)) {s : Search}
    {id : NodeId} {queue : List NodeId} (h : s.queue = id :: queue) (depth : Nat) :
    (s.follow children id depth queue).turnsLeft children < s.turnsLeft children := by
  refine Nat.lt_of_le_of_lt
    (turnsLeft_foldl_reach_le (getD_subset children id) (depth + 1) { s with queue }) ?_
  simp only [turnsLeft, h, List.length_cons]
  omega

/-- Makes turns until no node waits. -/
def run (children : Std.HashMap NodeId (List NodeId)) (s : Search) :
    Option (Std.HashMap NodeId Nat) :=
  match hqueue : s.queue with
  | [] => some s.depths
  | id :: queue =>
    match s.depths[id]? with
    | none => none
    | some depth =>
      have := turnsLeft_follow_lt children hqueue depth
      run children (s.follow children id depth queue)
termination_by s.turnsLeft children

variable {children : Std.HashMap NodeId (List NodeId)} {s : Search}

theorem run_of_nil (h : s.queue = []) : s.run children = some s.depths := by
  unfold run
  split
  · rfl
  · simp_all

theorem run_of_cons {id : NodeId} {queue : List NodeId} (h : s.queue = id :: queue) :
    s.run children = s.turn children >>= run children := by
  rw [turn, h]
  conv => lhs; unfold run
  split
  · simp_all
  · rename_i id' queue' hqueue
    obtain ⟨rfl, rfl⟩ := List.cons.inj (hqueue.symm.trans h)
    cases hdepth : s.depths[id']? with
    | none => simp [hdepth]
    | some depth => simp [hdepth]

end Search

/-- The depth of every node that a root leads to. -/
def depthTable? (g : Graph) : Option (Std.HashMap NodeId Nat) :=
  (Search.start g.rootList).run g.childTable

end CodeDiagram.Graph
