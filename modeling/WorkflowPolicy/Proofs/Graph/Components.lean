import WorkflowPolicy.Proofs.Draft.Cycles

/-!
# Which components are reported

Two nodes are `Linked` if each can be reached from the other. The classes of linked nodes are the
strongly connected components, and a cycle stays in its component. The search reports an edge of a
component, or it does not: a report gives all nodes on the stack up, and these may be nodes of
components from which the present one can be reached. If they are on all cycles of another
component, then no edge of that one is reported any more.

`component_reported_iff` says exactly when this does not happen. In any case a reported edge can be
reached from every component with a cycle, so a component from which no other cycle can be reached
is reported.
-/

namespace WorkflowPolicy

open Relation (TransGen ReflTransGen)

namespace Graph

/-! ### Components -/

section Linked

variable {r : String → String → Prop} {a b c : String}

/-- **Each of the two nodes can be reached from the other.** -/
def Linked (r : String → String → Prop) (a b : String) : Prop :=
  ReflTransGen r a b ∧ ReflTransGen r b a

theorem Linked.symm (h : Linked r a b) : Linked r b a := ⟨h.2, h.1⟩

theorem Linked.trans (h : Linked r a b) (h' : Linked r b c) : Linked r a c :=
  ⟨h.1.trans h'.1, h'.2.trans h.2⟩

/-- A node that is linked to another one is on a cycle. -/
theorem Linked.cycle (h : Linked r a b) (hne : a ≠ b) : TransGen r a a := by
  rcases ReflTransGen.cases_head h.1 with heq | ⟨x, hax, hxb⟩
  · exact absurd heq hne
  · exact TransGen.head' hax (hxb.trans h.2)

/-- **A cycle stays in its component.** -/
theorem cycle_linked (h : TransGen r a a) : TransGen (fun x y => r x y ∧ Linked r a x) a a := by
  -- From every node on the way there is a way back to the beginning.
  have hway : ∀ x, TransGen r a x → ReflTransGen r x a →
      TransGen (fun x y => r x y ∧ Linked r a x) a x := by
    intro x hx
    induction hx with
    | single hax => exact fun _ => TransGen.single ⟨hax, ReflTransGen.refl, ReflTransGen.refl⟩
    | @tail x y hx hxy ih =>
      intro hback
      have hback' : ReflTransGen r x a := ReflTransGen.head hxy hback
      exact (ih hback').tail ⟨hxy, hx.to_reflTransGen, hback'⟩
  exact hway a h ReflTransGen.refl

end Linked

/-! ### Reports in a component -/

variable {g : Graph} {a : String}

/-- The search reports an edge of the component of a node. -/
def ReportsIn (g : Graph) (a : String) : Prop :=
  ∃ e ∈ g.findCycles, Linked g.Leads a e.source ∧ Linked g.Leads a e.target

/-- The search gives the node up at the report of an edge of another component. -/
def LostElsewhere (g : Graph) (a : String) : Prop :=
  ∃ e, Search.GivesUp g e a ∧ ¬ Linked g.Leads a e.source

/-- Both ends of a reported edge are in the same component. -/
theorem linked_of_mem_findCycles (hg : g.WellFormed) {e : Edge} (he : e ∈ g.findCycles) :
    Linked g.Leads e.source e.target := by
  obtain ⟨hlead, hback⟩ := closes_of_mem_findCycles hg he
  exact ⟨ReflTransGen.single hlead, hback⟩

/-- Some cycle through a reported edge is given up with the edge, and with no edge of another
component. -/
theorem cycle_of_reportsIn (hg : g.WellFormed) (h : ReportsIn g a) :
    ∃ c, TransGen (fun x y => g.Leads x y ∧ Linked g.Leads a x ∧ ¬ LostElsewhere g x) c c := by
  obtain ⟨e, he, hsource, -⟩ := h
  obtain ⟨s, hs, hreports⟩ := (mem_findCycles_iff hg).mp he
  -- The cycle lies on the stack of the report, and it stays in its component.
  have hcycle := cycle_linked (Search.cycle_of_reports hg hs hreports)
  refine ⟨e.source, TransGen.mono ?_ _ _ hcycle⟩
  rintro x y ⟨⟨hxy, hgives⟩, hthere, hback⟩
  have hlinked : Linked g.Leads e.source x :=
    ⟨ReflTransGen.mono (fun _ _ hab => hab.1) _ _ hthere,
      ReflTransGen.mono (fun _ _ hab => hab.1) _ _ hback⟩
  refine ⟨hxy, hsource.trans hlinked, ?_⟩
  -- A node is given up only once.
  rintro ⟨e', hgives', hnot⟩
  obtain rfl := hgives.unique hg hgives'
  exact hnot hlinked.symm

/-- A cycle of a component with no node that is given up elsewhere has a node that is given up at
a report in the component. -/
theorem reportsIn_of_cycle (hg : g.WellFormed) {c : String}
    (h : TransGen (fun x y => g.Leads x y ∧ Linked g.Leads a x ∧ ¬ LostElsewhere g x) c c) :
    ReportsIn g a := by
  obtain ⟨x, ⟨hlinked, hhere⟩, e, hgives⟩ := exists_lost_of_cycle hg h
  have he := mem_findCycles_of_givesUp hg hgives
  have hsource : Linked g.Leads a e.source := by
    by_contra hnot
    exact hhere ⟨e, hgives, fun hx => hnot (hlinked.trans hx)⟩
  exact ⟨e, he, hsource, hsource.trans (linked_of_mem_findCycles hg he)⟩

/-- **From every cycle a reported edge can be reached.** -/
theorem reaches_report_of_cycle (hg : g.WellFormed) (h : TransGen g.Leads a a) :
    ∃ e ∈ g.findCycles, ReflTransGen g.Leads a e.source := by
  obtain ⟨x, hlinked, e, hgives⟩ := exists_lost_of_cycle hg (cycle_linked h)
  exact ⟨e, mem_findCycles_of_givesUp hg hgives, hlinked.1.trans (hgives.reaches hg)⟩

/-- A component from which no other cycle can be reached is reported. -/
theorem reportsIn_of_closed (hg : g.WellFormed) (h : TransGen g.Leads a a)
    (hclosed : ∀ c, ReflTransGen g.Leads a c → TransGen g.Leads c c → ReflTransGen g.Leads c a) :
    ReportsIn g a := by
  obtain ⟨e, he, hreach⟩ := reaches_report_of_cycle hg h
  obtain ⟨hlead, hback⟩ := closes_of_mem_findCycles hg he
  -- A reported edge is on a cycle, so there is a way back from it.
  have hsource : Linked g.Leads a e.source :=
    ⟨hreach, hclosed _ hreach (TransGen.head' hlead hback)⟩
  exact ⟨e, he, hsource, hsource.trans (linked_of_mem_findCycles hg he)⟩

end Graph

/-! ### The graph of a workflow -/

namespace Workflow

open WorkflowPolicy.Graph (Linked Joined)

theorem wellFormed_graph (w : Workflow) : w.graph.WellFormed :=
  Graph.wellFormed_restrict w.nodup_nodeNames w.edges

/-- The relation of the graph of a workflow: its edges between two different ones of its nodes. -/
theorem leads_graph (w : Workflow) : w.graph.Leads = Joined w.nodes.names w.edges := by
  funext a b
  exact propext (Graph.leads_restrict.trans
    (Graph.joined_congr (fun _ => Workflow.mem_nodeNames) (fun _ => Iff.rfl) a b))

/-- **When a component is reported.** Take a component of two or more nodes of the edges between
two different ones of the nodes of a workflow.

* An edge of the component is reported exactly if some cycle in it has no node that is given up at
  the report of an edge of another component.
* In any case a reported edge can be reached from the component.
* So an edge of the component is reported if no cycle outside can be reached from it. -/
theorem component_reported_iff (w : Workflow) {a b : String} (hne : a ≠ b)
    (hlinked : Linked (Joined w.nodes.names w.edges) a b) :
    ((∃ e ∈ w.graph.findCycles, Linked (Joined w.nodes.names w.edges) a e.source ∧
        Linked (Joined w.nodes.names w.edges) a e.target) ↔
      ∃ c, TransGen (fun x y => Joined w.nodes.names w.edges x y ∧
        Linked (Joined w.nodes.names w.edges) a x ∧ ¬ w.graph.LostElsewhere x) c c) ∧
    (∃ e ∈ w.graph.findCycles, ReflTransGen (Joined w.nodes.names w.edges) a e.source) ∧
    ((∀ c, ReflTransGen (Joined w.nodes.names w.edges) a c →
        TransGen (Joined w.nodes.names w.edges) c c →
          ReflTransGen (Joined w.nodes.names w.edges) c a) →
      ∃ e ∈ w.graph.findCycles, Linked (Joined w.nodes.names w.edges) a e.source ∧
        Linked (Joined w.nodes.names w.edges) a e.target) := by
  have hg := w.wellFormed_graph
  have hcycle := hlinked.cycle hne
  rw [← w.leads_graph] at hcycle ⊢
  exact ⟨⟨Graph.cycle_of_reportsIn hg, fun ⟨_, h⟩ => Graph.reportsIn_of_cycle hg h⟩,
    Graph.reaches_report_of_cycle hg hcycle, Graph.reportsIn_of_closed hg hcycle⟩

/-- Two loops, the first of which leads to the second one before it comes back. -/
def twoLoops : Workflow where
  name := "loops"
  nodes := .ofList (["a", "b", "c", "d"].map fun name => (name, ⟨name ++ ".ts", .empty⟩))
  edges := [⟨"a", "c"⟩, ⟨"c", "d"⟩, ⟨"d", "c"⟩, ⟨"a", "b"⟩, ⟨"b", "a"⟩]

/-- **A loop that is missed.** The search goes from the first loop to the second one, reports that
and gives up the node in which it began, so no edge of the first loop is reported, and the first
node has been lost to the second loop. -/
theorem twoLoops_reported_once :
    twoLoops.graph.findCycles = [⟨"d", "c"⟩] ∧
      Linked (Joined twoLoops.nodes.names twoLoops.edges) "a" "b" ∧
      ¬ (∃ e ∈ twoLoops.graph.findCycles,
        Linked (Joined twoLoops.nodes.names twoLoops.edges) "a" e.source ∧
          Linked (Joined twoLoops.nodes.names twoLoops.edges) "a" e.target) ∧
      ¬ ∃ c, TransGen (fun x y => Joined twoLoops.nodes.names twoLoops.edges x y ∧
        Linked (Joined twoLoops.nodes.names twoLoops.edges) "a" x ∧
          ¬ twoLoops.graph.LostElsewhere x) c c := by
  have hfound : twoLoops.graph.findCycles = [⟨"d", "c"⟩] := by decide +kernel
  have hab : Joined twoLoops.nodes.names twoLoops.edges "a" "b" := by
    unfold Graph.Joined
    decide
  have hba : Joined twoLoops.nodes.names twoLoops.edges "b" "a" := by
    unfold Graph.Joined
    decide
  have hlinked : Linked (Joined twoLoops.nodes.names twoLoops.edges) "a" "b" :=
    ⟨ReflTransGen.single hab, ReflTransGen.single hba⟩
  -- From the second loop no edge leads back.
  have hstay : ∀ x, ReflTransGen (Joined twoLoops.nodes.names twoLoops.edges) "d" x →
      x = "c" ∨ x = "d" := by
    intro x hx
    induction hx with
    | refl => exact .inr rfl
    | tail _ hyz ih =>
      have hedge := hyz.1
      rcases ih with rfl | rfl
      · exact .inr (by simpa [twoLoops] using hedge)
      · exact .inl (by simpa [twoLoops] using hedge)
  have hmissed : ¬ ∃ e ∈ twoLoops.graph.findCycles,
      Linked (Joined twoLoops.nodes.names twoLoops.edges) "a" e.source ∧
        Linked (Joined twoLoops.nodes.names twoLoops.edges) "a" e.target := by
    rintro ⟨e, he, hsource, -⟩
    rw [hfound, List.mem_singleton] at he
    subst he
    rcases hstay "a" hsource.2 with h | h <;> exact absurd h (by decide)
  have hiff := (component_reported_iff twoLoops (by decide) hlinked).1
  exact ⟨hfound, hlinked, hmissed, fun h => hmissed (hiff.mpr h)⟩

end Workflow

end WorkflowPolicy
