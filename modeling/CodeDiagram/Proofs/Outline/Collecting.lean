/-
# What an outline is made of

An outline grows by one visited node at a time, and everything in it comes from the nodes that were
visited: each has a node of the graph, and their declarations and diagnostics are put together in
the same order (`IsMadeOf`).  This holds of every outline, whatever nodes were passed over
(`build_isMadeOf`), and of one that is drawn of a listing the nodes are those that are listed
(`drawn_isMadeOf`).
-/
import CodeDiagram.Proofs.FrontEnd.Collecting
import CodeDiagram.Proofs.FrontEnd.Declarations
import CodeDiagram.Proofs.Outline.Building
import CodeDiagram.Proofs.Outline.Growing

namespace CodeDiagram

open Syntax

namespace Outline

variable {fe : FrontEnd} {limit labelLength : Nat} {d : Document} {ns : List Node} {o : Outline}

/-- Everything in an outline comes from some nodes, in order. -/
structure IsMadeOf (fe : FrontEnd) (labelLength : Nat) (d : Document) (ns : List Node)
    (o : Outline) : Prop where
  nextId : o.graph.nextId = ns.length
  nodes : o.graph.nodes = ns.mapIdx fun i n =>
    ⟨i, n.kind, fe.classify n.kind, fe.label labelLength d n, some (d.line n)⟩
  declarations : o.declarations = .collect (fe.declared d) ns
  diagnostics : o.diagnostics = (ns.mapIdx fun i n =>
    (fe.faults d n).map fun f => ⟨i, some (d.line n), f.message⟩).flatten

theorem isMadeOf_nil : IsMadeOf fe labelLength d [] {} := ⟨rfl, rfl, rfl, rfl⟩

/-- **A visit adds what the visited node has.** -/
theorem IsMadeOf.visit (h : IsMadeOf fe labelLength d ns o) (v : Visit) :
    IsMadeOf fe labelLength d (ns ++ [v.node]) (o.visit fe limit labelLength d v).1 where
  nextId := by
    have hnext : (o.visit fe limit labelLength d v).1.graph.nextId = o.graph.nextId + 1 := by
      rw [Outline.visit, add]
      cases v.parent with
      | none => rfl
      | some parent => exact Graph.nextId_addEdge _ _
    rw [hnext, h.nextId, List.length_append, List.length_singleton]
  nodes := by rw [nodes_visit, h.nodes, h.nextId, List.mapIdx_concat]
  declarations := by
    rw [Declarations.collect_concat, ← h.declarations]
    rfl
  diagnostics := by
    rw [List.mapIdx_concat, List.flatten_concat, ← h.diagnostics, ← h.nextId]
    rfl

/-- **Every outline is made of nodes of the document.** -/
theorem build_isMadeOf (fe : FrontEnd) (limit labelLength : Nat) (d : Document) :
    ∃ ns, (∀ n ∈ ns, d.root.IsInside n) ∧
      IsMadeOf fe labelLength d ns (build fe limit labelLength d) := by
  refine grow_induction fe limit labelLength d
    (p := fun o => ∃ ns, (∀ n ∈ ns, d.root.IsInside n) ∧ IsMadeOf fe labelLength d ns o)
    (q := d.root.IsInside) ?_ ?_ [] {} [{ node := d.root }] ⟨[], by simp, isMadeOf_nil⟩
    (by simp [Node.IsInside.self])
  · rintro o v ⟨ns, hns, h⟩ hv
    refine ⟨ns ++ [v.node], fun n hn => ?_, h.visit v⟩
    rcases List.mem_append.mp hn with hn | hn
    · exact hns n hn
    · rwa [List.mem_singleton.mp hn]
  · exact fun n hn m hm => .child hn (Node.mem_children_of_mem_namedChildren hm)

theorem mapIdx_map_node {β : Type} (f : Nat → Node → β) (ps : List Place) :
    ps.mapIdx (fun i k => f i k.node) = (ps.map (·.node)).mapIdx f :=
  List.ext_getElem (by simp) fun i _ _ => by simp

/-- The outline that is drawn of some places is made of what stands there. -/
theorem drawn_isMadeOf (fe : FrontEnd) (limit labelLength : Nat) (d : Document) (ps : List Place) :
    IsMadeOf fe labelLength d (ps.map (·.node)) (drawn fe limit labelLength d ps) where
  nextId := (List.length_map _).symm
  nodes := by
    rw [← mapIdx_map_node]
    rfl
  declarations := by
    rw [← List.nil_append (ps.map _), ← Declarations.foldl_append, List.foldl_map]
    rfl
  diagnostics := by
    rw [← mapIdx_map_node]
    rfl

end Outline

end CodeDiagram
