/-
# Call graphs to a larger depth

The outline of a document collects the names of its functions to a depth limit, and the call graph
links the calls of the whole document to the names that were collected.  Raising the limit makes
more names known (`Outline.functions_build_sublist`).  A call that was linked already has the same
caller and callee as before: which function stands around it is told by the document, and a new name
is no name of another function (`Keeps.wired`).  So functions and calls are only added
(`synthesize_keeps`).
-/
import CodeDiagram.FrontEnd.Python
import CodeDiagram.Proofs.CallGraph.Framing
import CodeDiagram.Proofs.Outline.Restricting

namespace CodeDiagram

open Syntax

/-- To a larger depth more functions are collected. -/
theorem Outline.functions_build_sublist (fe : FrontEnd) {small limit : Nat} (labelLength : Nat)
    {d : Document} (hd : d.tree.ids.Nodup) (hle : small ≤ limit) :
    (build fe small labelLength d).metadata.functions.Sublist
      (build fe limit labelLength d).metadata.functions := by
  obtain ⟨ps, -, -, hbuild, hsmall⟩ := build_within fe labelLength hd hle
  rw [hbuild, hsmall]
  exact (declarations_drawn_within fe small limit labelLength d ps).1

/-! ## 1. What a graph shows -/

/-- A call as it is shown: there is a `calls` edge between nodes with these kinds and labels. -/
def Graph.ShowsCall (g : Graph) (caller callee : NodeKind × String) : Prop :=
  ∃ v ∈ g.nodes, ∃ w ∈ g.nodes, (v.kind, v.label) = caller ∧ (w.kind, w.label) = callee ∧
    ⟨v.id, w.id, some .calls⟩ ∈ g.edges

namespace CallGraph

/-- A graph shows all functions and calls of another one. -/
structure Keeps (part whole : Graph) : Prop where
  functions : ∀ v ∈ part.nodesOf .function, ∃ w ∈ whole.nodesOf .function, w.label = v.label
  /-- Each call is one from a function or the program to a function. -/
  shown : ∀ e ∈ part.edges, e.relation = some .calls →
    ∃ v ∈ part.nodesOf .function ++ part.nodesOf .globalCaller,
      ∃ w ∈ part.nodesOf .function, e = ⟨v.id, w.id, some .calls⟩
  calls : ∀ caller callee, part.ShowsCall caller callee → whole.ShowsCall caller callee

variable {fe : FrontEnd} {d : Document} {functions more : List FunctionInfo}

/-- The global caller has the label of global callers. -/
theorem label_of_globalCaller {v : Graph.Vertex}
    (hv : v ∈ (wired fe functions (some d)).graph.nodesOf .globalCaller) :
    v.label = globalLabel := by
  obtain ⟨-, -, h⟩ := wired_extends fe functions (some d)
  rw [h.nodesOf_globalCaller (skeleton_isSkeleton functions)] at hv
  obtain ⟨id, -, rfl⟩ := List.mem_map.mp hv
  rfl

/-! ## 2. More names -/

section Names

variable (hsub : functions.map (·.name) ⊆ more.map (·.name))

include hsub

/-- A function has a node of its name among those of more functions. -/
theorem exists_function {v : Graph.Vertex}
    (hv : v ∈ (wired fe functions (some d)).graph.nodesOf .function) :
    ∃ w ∈ (wired fe more (some d)).graph.nodesOf .function, w.label = v.label := by
  obtain ⟨hk, -⟩ := wired_linked fe functions d
  obtain ⟨hk', -⟩ := wired_linked fe more d
  obtain ⟨w, ⟨hw, hlabel⟩, -⟩ := hk'.existsUnique_function (hsub (hk.label_mem hv))
  exact ⟨w, hw, hlabel⟩

/-- A call between two functions is one between the functions of their names. -/
theorem exists_call_between {v w : Graph.Vertex}
    (hv : v ∈ (wired fe functions (some d)).graph.nodesOf .function)
    (hw : w ∈ (wired fe functions (some d)).graph.nodesOf .function)
    (he : ⟨v.id, w.id, some .calls⟩ ∈ (wired fe functions (some d)).graph.edges) :
    ∃ v' ∈ (wired fe more (some d)).graph.nodesOf .function, v'.label = v.label ∧
      ∃ w' ∈ (wired fe more (some d)).graph.nodesOf .function, w'.label = w.label ∧
        ⟨v'.id, w'.id, some .calls⟩ ∈ (wired fe more (some d)).graph.edges := by
  obtain ⟨hk, hl⟩ := wired_linked fe functions d
  obtain ⟨hk', hl'⟩ := wired_linked fe more d
  obtain ⟨v', hv', hcaller⟩ := exists_function hsub hv
  obtain ⟨w', hw', hcallee⟩ := exists_function hsub hw
  refine ⟨v', hv', hcaller, w', hw', hcallee, ?_⟩
  rw [calls_between_iff hk' hl' hv' hw', hcaller, hcallee]
  exact (calls_between_iff hk hl hv hw).mp he

/-- A call outside of all functions is one also among more functions. -/
theorem exists_call_outside {v w : Graph.Vertex}
    (hv : v ∈ (wired fe functions (some d)).graph.nodesOf .globalCaller)
    (hw : w ∈ (wired fe functions (some d)).graph.nodesOf .function)
    (he : ⟨v.id, w.id, some .calls⟩ ∈ (wired fe functions (some d)).graph.edges) :
    ∃ v' ∈ (wired fe more (some d)).graph.nodesOf .globalCaller, v'.label = v.label ∧
      ∃ w' ∈ (wired fe more (some d)).graph.nodesOf .function, w'.label = w.label ∧
        ⟨v'.id, w'.id, some .calls⟩ ∈ (wired fe more (some d)).graph.edges := by
  obtain ⟨hk, hl⟩ := wired_linked fe functions d
  obtain ⟨hk', hl'⟩ := wired_linked fe more d
  obtain ⟨w', hw', hcallee⟩ := exists_function hsub hw
  have hcall : CallAt fe d w'.label none := by
    rw [hcallee]
    exact (calls_outside_iff hk hl hw).mp ⟨v, hv, he⟩
  obtain ⟨v', hv', he'⟩ := (calls_outside_iff hk' hl' hw').mpr hcall
  refine ⟨v', hv', ?_, w', hw', hcallee, he'⟩
  rw [label_of_globalCaller hv, label_of_globalCaller hv']

/-- **Where more names are known**, no function and no call gets lost. -/
theorem wired_keeps :
    Keeps (wired fe functions (some d)).graph (wired fe more (some d)).graph := by
  obtain ⟨hk, hl⟩ := wired_linked fe functions d
  refine ⟨fun v hv => exists_function hsub hv, ?_, ?_⟩
  · rintro ⟨a, b, relation⟩ he rfl
    obtain ⟨⟨v, hv, rfl⟩, w, hw, rfl⟩ := calls_ends hk hl he
    exact ⟨v, hv, w, hw, rfl⟩
  · rintro _ _ ⟨v, hv, w, hw, rfl, rfl, he⟩
    -- the nodes that show the call are those that it joins
    obtain ⟨⟨v₁, hv₁, hcaller⟩, w₁, hw₁, hcallee⟩ := calls_ends hk hl he
    have hcallers : v₁ ∈ (wired fe functions (some d)).graph.nodes := by
      rcases List.mem_append.mp hv₁ with h | h
      · exact (Graph.mem_nodesOf.mp h).1
      · exact (Graph.mem_nodesOf.mp h).1
    obtain rfl := hk.sound.eq_of_id_eq hv hcallers hcaller
    obtain rfl := hk.sound.eq_of_id_eq hw (Graph.mem_nodesOf.mp hw₁).1 hcallee
    have hshow : ∀ {kind : NodeKind}, v ∈ (wired fe functions (some d)).graph.nodesOf kind →
        (∃ v' ∈ (wired fe more (some d)).graph.nodesOf kind, v'.label = v.label ∧
          ∃ w' ∈ (wired fe more (some d)).graph.nodesOf .function, w'.label = w.label ∧
            ⟨v'.id, w'.id, some .calls⟩ ∈ (wired fe more (some d)).graph.edges) →
        (wired fe more (some d)).graph.ShowsCall (v.kind, v.label) (w.kind, w.label) := by
      rintro kind hkind ⟨v', hv', hvlabel, w', hw', hwlabel, he'⟩
      obtain ⟨hv', hvkind⟩ := Graph.mem_nodesOf.mp hv'
      obtain ⟨hw', hwkind⟩ := Graph.mem_nodesOf.mp hw'
      refine ⟨v', hv', w', hw', ?_, ?_, he'⟩
      · rw [hvkind, hvlabel, (Graph.mem_nodesOf.mp hkind).2]
      · rw [hwkind, hwlabel, (Graph.mem_nodesOf.mp hw₁).2]
    rcases List.mem_append.mp hv₁ with h | h
    · exact hshow h (exists_call_between hsub h hw₁ he)
    · exact hshow h (exists_call_outside hsub h hw₁ he)

end Names

/-! ## 3. A larger depth -/

/-- **A larger depth limit loses no control flow**: the call graph of a document shows every
function and every call that it shows to a smaller limit. -/
theorem synthesize_keeps (fe : FrontEnd) {small limit : Nat} (labelLength : Nat) (d : Document)
    (hd : d.tree.ids.Nodup) (hle : small ≤ limit) :
    Keeps (synthesize fe (Outline.build fe small labelLength d).metadata.functions (some d))
      (synthesize fe (Outline.build fe limit labelLength d).metadata.functions (some d)) := by
  have hsub := Outline.functions_build_sublist fe labelLength hd hle
  generalize (Outline.build fe small labelLength d).metadata.functions = functions at hsub ⊢
  generalize (Outline.build fe limit labelLength d).metadata.functions = more at hsub ⊢
  by_cases hnil : functions = []
  · -- a message shows neither functions nor calls
    subst hnil
    have hnodes : (synthesize fe [] (some d)).nodesOf .function = [] := rfl
    have hedges : (synthesize fe [] (some d)).edges = [] := rfl
    refine ⟨by simp [hnodes], by simp [hedges], ?_⟩
    rintro caller callee ⟨v, -, w, -, -, -, he⟩
    rw [hedges] at he
    cases he
  · have hmore : more ≠ [] := by
      rintro rfl
      exact hnil (List.sublist_nil.mp hsub)
    rw [synthesize_eq_wired fe hnil, synthesize_eq_wired fe hmore]
    exact wired_keeps (hsub.map _).subset

/-- A function and one inside it, which call each other, and a call outside of both. -/
def mutualCalls : Document where
  language := .python
  text := "def f():\n  def g():\n    f()\n  g()\nf()\n"
  tree := (Tree.ofRecords? [
    ⟨0, "module", 0, 0, 38, none⟩, ⟨1, "function_definition", 0, 0, 33, none⟩,
    ⟨2, "def", 1, 0, 3, none⟩, ⟨2, "identifier", 0, 4, 5, "name"⟩,
    ⟨2, "parameters", 0, 5, 7, "parameters"⟩, ⟨3, "(", 1, 5, 6, none⟩, ⟨3, ")", 1, 6, 7, none⟩,
    ⟨2, ":", 1, 7, 8, none⟩, ⟨2, "block", 0, 11, 33, "body"⟩,
    ⟨3, "function_definition", 0, 11, 27, none⟩, ⟨4, "def", 1, 11, 14, none⟩,
    ⟨4, "identifier", 0, 15, 16, "name"⟩, ⟨4, "parameters", 0, 16, 18, "parameters"⟩,
    ⟨5, "(", 1, 16, 17, none⟩, ⟨5, ")", 1, 17, 18, none⟩, ⟨4, ":", 1, 18, 19, none⟩,
    ⟨4, "block", 0, 24, 27, "body"⟩, ⟨5, "expression_statement", 0, 24, 27, none⟩,
    ⟨6, "call", 0, 24, 27, none⟩, ⟨7, "identifier", 0, 24, 25, "function"⟩,
    ⟨7, "argument_list", 0, 25, 27, "arguments"⟩, ⟨8, "(", 1, 25, 26, none⟩,
    ⟨8, ")", 1, 26, 27, none⟩, ⟨3, "expression_statement", 0, 30, 33, none⟩,
    ⟨4, "call", 0, 30, 33, none⟩, ⟨5, "identifier", 0, 30, 31, "function"⟩,
    ⟨5, "argument_list", 0, 31, 33, "arguments"⟩, ⟨6, "(", 1, 31, 32, none⟩,
    ⟨6, ")", 1, 32, 33, none⟩, ⟨1, "expression_statement", 0, 34, 37, none⟩,
    ⟨2, "call", 0, 34, 37, none⟩, ⟨3, "identifier", 0, 34, 35, "function"⟩,
    ⟨3, "argument_list", 0, 35, 37, "arguments"⟩, ⟨4, "(", 1, 35, 36, none⟩,
    ⟨4, ")", 1, 36, 37, none⟩]).getD default

/-- To a depth of two only the outer function and the call of it from outside are shown. -/
theorem synthesize_keeps_mutualCalls :
    let g limit := synthesize Python.frontEnd
      (Outline.build Python.frontEnd limit 30 mutualCalls).metadata.functions (some mutualCalls)
    mutualCalls.tree.ids.Nodup ∧ 2 ≤ 9 ∧ Keeps (g 2) (g 9) ∧
      (g 2).edges.filter (·.relation == some .calls) = [⟨3, 0, some .calls⟩] ∧
      (g 9).edges.filter (·.relation == some .calls) =
        [⟨3, 0, some .calls⟩, ⟨0, 3, some .calls⟩, ⟨6, 0, some .calls⟩] :=
  ⟨by decide +kernel, by decide,
    synthesize_keeps Python.frontEnd 30 mutualCalls (by decide +kernel) (by decide),
    by decide +kernel, by decide +kernel⟩

end CallGraph

end CodeDiagram
