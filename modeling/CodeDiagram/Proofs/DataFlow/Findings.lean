/-
# What is found where

The walk finds its events in the order of evaluation, and a node may be visited more than once.  As
a collection, what it finds is what there is to find at each node that it visits, once for each
visit (`evaluate_perm`).
-/
import CodeDiagram.Proofs.DataFlow.Evaluation
import Mathlib.Data.List.Perm.Basic

namespace CodeDiagram

open Syntax

/-- What there is to find at a node itself: the names that it binds, the function that it is, or the
name that it reads. -/
def FrontEnd.findings (fe : FrontEnd) (d : Document) (n : Node) : List Event :=
  match fe.flowStep d n with
  | .bind _ targets binding _ => (fe.namesOf d targets binding).map .define
  | .function name parameters _ => [.enter name (d.line n) parameters]
  | .reference name => [.read name (d.line n)]
  | .walk _ => []
  | .skip => []

variable {fe : FrontEnd} {d : Document}

/-- **The walk finds what there is at the nodes that it visits**, at each visit. -/
theorem evaluate_perm (fe : FrontEnd) (d : Document) (n : Node) :
    (fe.evaluate d n).Perm ((fe.trail d n).flatMap (fe.findings d)) := by
  induction n using FrontEnd.trail.induct fe d with
  | case1 n ih =>
    -- what the nodes ahead find may be collected node by node
    have hall : ∀ ns : List Node, (∀ m ∈ ns, m ∈ fe.ahead d n) → (ns.flatMap (fe.evaluate d)).Perm
        ((ns.flatMap (fe.trail d)).flatMap (fe.findings d)) := by
      intro ns hns
      rw [List.flatMap_assoc]
      exact List.Perm.flatMap_left ns fun m hm => ih m (hns m hm)
    rw [FrontEnd.evaluate_eq, FrontEnd.trail_eq, List.flatMap_cons]
    unfold FrontEnd.findings FrontEnd.ahead at *
    cases hstep : fe.flowStep d n with
    | bind values targets binding next =>
      simp only [hstep] at hall
      simp only [List.flatMap_append, List.append_assoc]
      have hvalues := hall values fun m hm => by simp [hm]
      have hreads := hall (fe.readsOf d targets binding) fun m hm => by simp [hm]
      have hnext := hall next fun m hm => by simp [hm]
      -- the values come before the names
      refine List.perm_append_comm_assoc _ _ _ |>.trans (.append_left _ ?_)
      exact hvalues.append (hreads.append hnext)
    | function name parameters body =>
      simp only [hstep] at hall
      exact (hall body fun _ hm => hm).cons _
    | reference name => exact .refl _
    | walk children =>
      simp only [hstep] at hall
      exact hall children fun _ hm => hm
    | skip => exact .refl _

/-- An event is found at a node that is visited. -/
theorem mem_evaluate_iff {n : Node} {e : Event} :
    e ∈ fe.evaluate d n ↔ ∃ m ∈ fe.trail d n, e ∈ fe.findings d m := by
  rw [(evaluate_perm fe d n).mem_iff, List.mem_flatMap]

/-- What the walk finds at a node is what there is to find at it. -/
theorem mem_findings_of_mem_trace {n m : Node} {e : Event} (h : (m, e) ∈ fe.trace d n) :
    e ∈ fe.findings d m := by
  induction n using FrontEnd.trail.induct fe d with
  | case1 n ih =>
    have hahead : ∀ ns : List Node, (∀ c ∈ ns, c ∈ fe.ahead d n) →
        (m, e) ∈ ns.flatMap (fe.trace d) → e ∈ fe.findings d m := by
      intro ns hns hmem
      obtain ⟨c, hc, hm⟩ := List.mem_flatMap.mp hmem
      exact ih c (hns c hc) hm
    unfold FrontEnd.ahead at hahead
    rw [FrontEnd.trace_eq] at h
    cases hstep : fe.flowStep d n with
    | bind values targets binding next =>
      simp only [hstep] at h hahead
      simp only [List.mem_append] at h
      rcases h with ((h | h) | h) | h
      · exact hahead values (fun c hc => by simp [hc]) h
      · obtain ⟨b, hb, heq⟩ := List.mem_map.mp h
        obtain ⟨rfl, rfl⟩ := Prod.mk.inj heq
        rw [FrontEnd.findings, hstep]
        exact List.mem_map_of_mem hb
      · exact hahead _ (fun c hc => by simp [hc]) h
      · exact hahead next (fun c hc => by simp [hc]) h
    | function name parameters body =>
      simp only [hstep] at h hahead
      rcases List.mem_cons.mp h with h | h
      · obtain ⟨rfl, rfl⟩ := Prod.mk.inj h
        rw [FrontEnd.findings, hstep]
        exact List.mem_cons_self
      · exact hahead body (fun _ hc => hc) h
    | reference name =>
      rw [hstep] at h
      obtain ⟨rfl, rfl⟩ := Prod.mk.inj (List.mem_singleton.mp h)
      rw [FrontEnd.findings, hstep]
      exact List.mem_cons_self
    | walk children =>
      simp only [hstep] at h hahead
      exact hahead children (fun _ hc => hc) h
    | skip =>
      rw [hstep] at h
      cases h

end CodeDiagram
