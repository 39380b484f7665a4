/-
# What an outline learns

While an outline grows it collects declarations and diagnostics.  What every visit keeps holds of
the finished outline (`grow_induction`), whatever nodes are passed over.  Two things are kept: each
diagnostic is about a node of the graph and has its line (`build_refers`), and each function that
was learnt is declared by a node of the document (`exists_declares_of_mem_build`).
-/
import CodeDiagram.Diagram.Outline
import CodeDiagram.Proofs.Graph.Sound
import CodeDiagram.Proofs.Syntax.Paths

namespace CodeDiagram

open Syntax

/-! ## 1. Diagnostics and graphs -/

/-- A diagnostic is about a node of a graph, and has its line. -/
def Diagnostic.RefersTo (x : Diagnostic) (g : Graph) : Prop :=
  ∃ v ∈ g.nodes, v.id = x.node ∧ v.line = x.line

theorem Diagnostic.RefersTo.mem_ids {x : Diagnostic} {g : Graph} (h : x.RefersTo g) :
    x.node ∈ g.ids := by
  obtain ⟨v, hv, hid, -⟩ := h
  exact List.mem_map.mpr ⟨v, hv, hid⟩

theorem Diagnostic.RefersTo.mono {x : Diagnostic} {g g' : Graph} (h : x.RefersTo g)
    (hg : ∀ v ∈ g.nodes, v ∈ g'.nodes) : x.RefersTo g' := by
  obtain ⟨v, hv, hrest⟩ := h
  exact ⟨v, hg v hv, hrest⟩

namespace Outline

variable {fe : FrontEnd} {limit labelLength : Nat} {d : Document}

/-! ## 2. Growing -/

/-- **What every visit keeps holds of the grown outline**, if what holds of the visits that wait
holds of those that they lead to. -/
theorem grow_induction (fe : FrontEnd) (limit labelLength : Nat) (d : Document)
    {p : Outline → Prop} {q : Node → Prop}
    (hvisit : ∀ o v, p o → q v.node → p (o.visit fe limit labelLength d v).1)
    (hinside : ∀ n, q n → ∀ m ∈ n.namedChildren, q m) (seen : List Nat) (o : Outline)
    (visits : List Visit) (ho : p o) (hq : ∀ v ∈ visits, q v.node) :
    p (o.grow fe limit labelLength d seen visits) := by
  induction seen, o, visits using grow.induct fe limit labelLength d with
  | case1 seen o => rwa [grow]
  | case2 seen o v rest hseen ih =>
    rw [grow, if_pos hseen]
    exact ih ho fun w hw => hq w (List.mem_cons_of_mem _ hw)
  | case3 seen o v rest hseen _ ih =>
    rw [grow, if_neg hseen]
    have hv := hq v List.mem_cons_self
    refine ih (hvisit o v ho hv) fun w hw => ?_
    rcases List.mem_append.mp hw with hw | hw
    · unfold Visit.inside at hw
      split at hw
      · obtain ⟨m, hm, rfl⟩ := List.mem_map.mp hw
        exact hinside v.node hv m hm
      · cases hw
    · exact hq w (List.mem_cons_of_mem _ hw)

/-- A visit adds a node, and edges at most besides. -/
theorem nodes_visit (fe : FrontEnd) (limit labelLength : Nat) (d : Document) (o : Outline)
    (v : Visit) :
    (o.visit fe limit labelLength d v).1.graph.nodes = o.graph.nodes ++
      [⟨o.graph.nextId, v.node.kind, fe.classify v.node.kind, fe.label labelLength d v.node,
        some (d.line v.node)⟩] := by
  rw [visit, add]
  cases v.parent with
  | none => rfl
  | some parent => exact Graph.nodes_addEdge _ _

/-- **A visit keeps diagnostics with the graph**: those it adds are about the node that it adds. -/
theorem refers_visit {o : Outline} (ho : ∀ x ∈ o.diagnostics, x.RefersTo o.graph) (v : Visit) :
    ∀ x ∈ (o.visit fe limit labelLength d v).1.diagnostics,
      x.RefersTo (o.visit fe limit labelLength d v).1.graph := by
  have hnodes := nodes_visit fe limit labelLength d o v
  intro x hx
  rcases List.mem_append.mp hx with hx | hx
  · refine (ho x hx).mono fun w hw => ?_
    rw [hnodes]
    exact List.mem_append_left _ hw
  · obtain ⟨f, -, rfl⟩ := List.mem_map.mp hx
    refine ⟨_, hnodes ▸ List.mem_append_right _ List.mem_cons_self, rfl, rfl⟩

/-- **The diagnostics of an outline are about its graph.** -/
theorem build_refers (fe : FrontEnd) (limit labelLength : Nat) (d : Document) :
    ∀ x ∈ (build fe limit labelLength d).diagnostics,
      x.RefersTo (build fe limit labelLength d).graph :=
  grow_induction fe limit labelLength d (p := fun o => ∀ x ∈ o.diagnostics, x.RefersTo o.graph)
    (q := fun _ => True) (fun _ v ho _ => refers_visit ho v) (fun _ _ _ _ => trivial) [] {}
    [{ node := d.root }] (by simp) (fun _ _ => trivial)

/-- A visit keeps the graph sound. -/
theorem sound_visit {o : Outline} (ho : o.graph.Sound) (v : Visit) :
    (o.visit fe limit labelLength d v).1.graph.Sound := by
  rw [visit, add]
  cases v.parent with
  | none => exact ho.addNode _ _ _ _
  | some parent => exact (ho.addNode _ _ _ _).addEdge _

/-- The graph of an outline is sound. -/
theorem build_sound (fe : FrontEnd) (limit labelLength : Nat) (d : Document) :
    (build fe limit labelLength d).graph.Sound :=
  grow_induction fe limit labelLength d (p := fun o => o.graph.Sound) (q := fun _ => True)
    (fun _ v ho _ => sound_visit ho v) (fun _ _ _ _ => trivial) [] {} [{ node := d.root }]
    Graph.Sound.empty (fun _ _ => trivial)

/-- The functions of an outline are declared by nodes of the document. -/
theorem exists_declares_of_mem_build {f : FunctionInfo}
    (hf : f ∈ (build fe limit labelLength d).declarations.functions) :
    ∃ n ds, d.root.IsInside n ∧ fe.declarations d n = .ok ds ∧ f ∈ ds.functions := by
  refine grow_induction fe limit labelLength d
    (p := fun o => ∀ f ∈ o.declarations.functions, ∃ n ds, d.root.IsInside n ∧
      fe.declarations d n = .ok ds ∧ f ∈ ds.functions)
    (q := d.root.IsInside) ?_ ?_ [] {} [{ node := d.root }] (by simp) (by simp [Node.IsInside.self])
    f hf
  · intro o v ho hv f hf
    rcases List.mem_append.mp hf with hf | hf
    · exact ho f hf
    · cases hds : fe.declarations d v.node with
      | error e =>
        rw [hds] at hf
        cases hf
      | ok ds =>
        rw [hds] at hf
        exact ⟨v.node, ds, hv, hds, hf⟩
  · exact fun n hn m hm => .child hn (Node.mem_children_of_mem_namedChildren hm)

end Outline

end CodeDiagram
