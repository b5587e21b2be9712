import WorkflowPolicy.Proofs.Graph.Components

/-!
# Reported cycles are disjoint

A reported edge leads to a node of the stack, and the stack leads from there back to the beginning
of the edge. That part of the stack is the way by which the edge is closed (`Search.ReportsFrom`),
and with the edge it is a cycle (`WayBack`).

The report makes the whole stack black, and black nodes do not come on the stack again. So no node
is on the stack at two reports (`Search.eq_of_reports`): the ways of different reports have no node
in common, the reported edges begin at different nodes, and a cycle is reported from one root only.
-/

namespace WorkflowPolicy

namespace Graph

/-- **A way back**: it leads from the end of an edge to its beginning, with no node on it twice. -/
structure WayBack (r : String → String → Prop) (e : Edge) (way : List String) : Prop where
  head : way.head? = some e.target
  last : way.getLast? = some e.source
  chain : way.IsChain r
  nodup : way.Nodup

variable {g : Graph}

namespace Search

variable {s : Search} {e e' : Edge} {root root' a : String} {way way' : List String}

/-! ### Reports with their ways -/

/-- **The search reports the edge from the root with the way.** The root is the lowest node of the
stack, and the way is the stack from the end of the edge upwards. -/
def ReportsFrom (g : Graph) (root : String) (e : Edge) (way : List String) : Prop :=
  ∃ s before, Reached g s ∧ s.Reports e ∧ s.path.getLast? = some root ∧
    s.path.reverse = before ++ way ∧ way.head? = some e.target

/-- The way of a report is a way back. -/
theorem ReportsFrom.wayBack (hg : g.WellFormed) (h : ReportsFrom g root e way) :
    WayBack g.Leads e way := by
  obtain ⟨s, before, hs, ⟨ahead, below, hstack, -⟩, -, hparts, hhead⟩ := h
  have hinv := hs.inv hg
  have hsuffix : way <:+ s.path.reverse := ⟨before, hparts.symm⟩
  have hne : way ≠ [] := by
    rintro rfl
    cases hhead
  -- From below, the stack is a way along edges that ends at the top.
  have hlast : way.getLast? = some e.source := by
    have htop : s.path.reverse.getLast? = some e.source := by
      rw [List.getLast?_reverse, path_of_stack hstack, List.head?_cons]
    rwa [hparts, List.getLast?_append_of_ne_nil _ hne] at htop
  have hchain : s.path.reverse.IsChain g.Leads := List.isChain_reverse.mpr hinv.path_chain
  exact ⟨hhead, hlast, hchain.suffix hsuffix,
    hsuffix.sublist.nodup (List.nodup_reverse.mpr hinv.path_nodup)⟩

/-- Every reported edge is reported from some root with some way. -/
theorem exists_reportsFrom (hg : g.WellFormed) (he : e ∈ g.findCycles) :
    ∃ root way, ReportsFrom g root e way := by
  obtain ⟨s, hs, ahead, below, hstack, hgray⟩ := (mem_findCycles_iff hg).mp he
  have htarget : e.target ∈ s.path.reverse :=
    List.mem_reverse.mpr (((hs.inv hg).gray_iff e.target).mp hgray)
  obtain ⟨before, after, hparts⟩ := List.append_of_mem htarget
  have hne : s.path ≠ [] := by
    rw [path_of_stack hstack]
    exact List.cons_ne_nil _ _
  exact ⟨s.path.getLast hne, e.target :: after, s, before, hs, ⟨ahead, below, hstack, hgray⟩,
    List.getLast?_eq_some_getLast hne, hparts, rfl⟩

/-- **Ways that have a node in common are those of one report.** -/
theorem ReportsFrom.unique (hg : g.WellFormed) (h : ReportsFrom g root e way)
    (h' : ReportsFrom g root' e' way') (ha : a ∈ way) (ha' : a ∈ way') :
    root = root' ∧ e = e' ∧ way = way' := by
  obtain ⟨s, before, hs, hr, hroot, hparts, hhead⟩ := h
  obtain ⟨t, before', ht, hr', hroot', hparts', hhead'⟩ := h'
  have hmem : a ∈ s.path := by
    rw [← List.mem_reverse, hparts]
    exact List.mem_append_right _ ha
  have hmem' : a ∈ t.path := by
    rw [← List.mem_reverse, hparts']
    exact List.mem_append_right _ ha'
  obtain rfl := eq_of_reports hg hs hr hmem ht hr' hmem'
  obtain rfl := hr.unique hr'
  refine ⟨Option.some.inj (hroot.symm.trans hroot'), rfl, ?_⟩
  -- The end of the edge is on the stack once, so the two ways begin at the same place.
  have hnodup : s.path.reverse.Nodup := List.nodup_reverse.mpr (hs.inv hg).path_nodup
  obtain ⟨rest, rfl⟩ := List.head?_eq_some_iff.mp hhead
  obtain ⟨rest', rfl⟩ := List.head?_eq_some_iff.mp hhead'
  rw [hparts, List.nodup_middle, List.nodup_cons, List.mem_append, not_or] at hnodup
  have hsame : before' ++ e.target :: rest' = before ++ e.target :: rest :=
    hparts'.symm.trans hparts
  have hcut := (List.append_cons_inj_of_notMem hnodup.1.1 hnodup.1.2).mp hsame.symm
  rw [hcut.2.2]

/-! ### Beginnings of reported edges -/

/-- A reported edge begins at a black node. -/
theorem black_of_mem_found (hs : Reached g s) (he : e ∈ s.found) : s.color e.source = .black := by
  induction hs with
  | refl => cases he
  | @tail r t hr hstep ih =>
    cases move_of_step hstep with
    | report u v ahead below hstack hgray =>
      rcases List.mem_append.mp he with he | he
      · exact black_of_move (move_of_step hstep) (ih he)
      · -- The new edge begins at the top of the stack.
        obtain rfl := List.mem_singleton.mp he
        have hreports : r.Reports ⟨u, v⟩ := ⟨ahead, below, hstack, hgray⟩
        have htop : u ∈ r.path := by
          rw [path_of_stack hstack]
          exact List.mem_cons_self
        exact black_after_report hreports htop hstep
    | _ => exact black_of_move (move_of_step hstep) (ih he)

/-- **Reported edges begin at different nodes.** -/
theorem nodup_sources_found (hg : g.WellFormed) (hs : Reached g s) :
    (s.found.map Edge.source).Nodup := by
  induction hs with
  | refl => exact List.nodup_nil
  | @tail r t hr hstep ih =>
    cases move_of_step hstep with
    | report u v ahead below hstack hgray =>
      change ((r.found ++ [(⟨u, v⟩ : Edge)]).map Edge.source).Nodup
      rw [List.map_append, List.map_singleton, ← List.concat_eq_append, List.nodup_concat]
      refine ⟨?_, ih⟩
      -- An earlier edge with this beginning would have left it black, and it is on the stack.
      intro hmem
      obtain ⟨e, he, hsource⟩ := List.mem_map.mp hmem
      have hblack := black_of_mem_found hr he
      have hreached : Reached g r := hr
      have htop : r.color u = .gray := by
        rw [(hreached.inv hg).gray_iff, path_of_stack hstack]
        exact List.mem_cons_self
      rw [hsource, htop] at hblack
      cases hblack
    | _ => exact ih

end Search

/-! ### All reports together -/

open Search (ReportsFrom)

theorem nodup_sources_findCycles (hg : g.WellFormed) : (g.findCycles.map Edge.source).Nodup :=
  Search.nodup_sources_found hg (search_spec hg).1

/-- The reported edges have ways back that are pairwise disjoint. -/
theorem exists_disjoint_ways (hg : g.WellFormed) :
    ∃ ways, List.Forall₂ (fun e way => ∃ root, ReportsFrom g root e way) g.findCycles ways ∧
      ways.Pairwise List.Disjoint := by
  have hevery : ∀ e ∈ g.findCycles, ∃ way root, ReportsFrom g root e way := by
    intro e he
    obtain ⟨root, way, hway⟩ := Search.exists_reportsFrom hg he
    exact ⟨way, root, hway⟩
  choose! way hway using hevery
  refine ⟨g.findCycles.map way,
    List.forall₂_map_right_iff.mpr (List.forall₂_same.mpr hway), List.pairwise_map.mpr ?_⟩
  have hnodup : g.findCycles.Nodup := (nodup_sources_findCycles hg).of_map _
  refine hnodup.imp_of_mem fun {e e'} he he' hne => ?_
  intro a ha ha'
  obtain ⟨root, hfrom⟩ := hway e he
  obtain ⟨root', hfrom'⟩ := hway e' he'
  exact hne (hfrom.unique hg hfrom' ha ha').2.1

end Graph

namespace Workflow

open WorkflowPolicy.Graph (Joined WayBack)
open WorkflowPolicy.Graph.Search (ReportsFrom)

/-- **What is reported are disjoint cycles.** Take the edges between two different ones of the nodes
of a workflow.

* Every reported edge is one of them.
* The reported edges have ways back along them of which no two have a node in common, each as the
  search has it on its stack at the report.
* No two reported edges begin at the same node.
* Two reports with a node in common on their ways are one report, from one root. -/
theorem reported_cycles_disjoint (w : Workflow) :
    (∀ e ∈ w.graph.findCycles, Joined w.nodes.names w.edges e.source e.target) ∧
    (∃ ways, List.Forall₂ (fun e way => (∃ root, ReportsFrom w.graph root e way) ∧
        WayBack (Joined w.nodes.names w.edges) e way) w.graph.findCycles ways ∧
      ways.Pairwise List.Disjoint) ∧
    (w.graph.findCycles.map Edge.source).Nodup ∧
    ∀ root root' e e' way way', ReportsFrom w.graph root e way →
      ReportsFrom w.graph root' e' way' → (∃ a ∈ way, a ∈ way') →
        root = root' ∧ e = e' ∧ way = way' := by
  have hg := w.wellFormed_graph
  rw [← w.leads_graph]
  refine ⟨fun e he => (Graph.closes_of_mem_findCycles hg he).1, ?_,
    Graph.nodup_sources_findCycles hg, ?_⟩
  · obtain ⟨ways, hways, hdisjoint⟩ := Graph.exists_disjoint_ways hg
    refine ⟨ways, hways.imp ?_, hdisjoint⟩
    rintro e way ⟨root, hfrom⟩
    exact ⟨⟨root, hfrom⟩, hfrom.wayBack hg⟩
  · rintro root root' e e' way way' hfrom hfrom' ⟨a, ha, ha'⟩
    exact hfrom.unique hg hfrom' ha ha'

/-- Two loops, one of them with two edges back, and a node that leads to both. -/
def sharedLoops : Workflow where
  name := "loops"
  nodes := .ofList (["a", "b", "e", "x", "y"].map fun name => (name, ⟨name ++ ".ts", .empty⟩))
  edges := [⟨"a", "b"⟩, ⟨"b", "a"⟩, ⟨"b", "a"⟩, ⟨"e", "a"⟩, ⟨"e", "x"⟩, ⟨"x", "y"⟩, ⟨"y", "x"⟩]

/-- Either loop is reported, once, and the two ways back are disjoint. -/
theorem sharedLoops_reported :
    sharedLoops.graph.findCycles = [⟨"b", "a"⟩, ⟨"y", "x"⟩] ∧
      ∃ way way', WayBack (Joined sharedLoops.nodes.names sharedLoops.edges) ⟨"b", "a"⟩ way ∧
        WayBack (Joined sharedLoops.nodes.names sharedLoops.edges) ⟨"y", "x"⟩ way' ∧
          way.Disjoint way' := by
  have hfound : sharedLoops.graph.findCycles = [⟨"b", "a"⟩, ⟨"y", "x"⟩] := by decide +kernel
  obtain ⟨-, ⟨ways, hways, hdisjoint⟩, -, -⟩ := reported_cycles_disjoint sharedLoops
  rw [hfound] at hways
  obtain ⟨way, rest, ⟨-, hway⟩, hrest, rfl⟩ := List.forall₂_cons_left_iff.mp hways
  obtain ⟨way', rest', ⟨-, hway'⟩, -, rfl⟩ := List.forall₂_cons_left_iff.mp hrest
  exact ⟨hfound, way, way', hway, hway',
    (List.pairwise_cons.mp hdisjoint).1 way' List.mem_cons_self⟩

end Workflow

end WorkflowPolicy
