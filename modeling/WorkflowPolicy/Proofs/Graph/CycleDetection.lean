import WorkflowPolicy.Proofs.Graph.Reports

/-!
# Cycles are found

The search for cycles reports nothing exactly on the graphs without a cycle
(`findCycles_eq_nil_iff`), although it gives a root up at its first report. A report is a cycle, by
`Search.Inv`. The other way round, every cycle has a node that is given up, and a node is given up
at a report only.

For the graph of a workflow this is said of the edges as they are declared
(`findCycles_restrict_eq_nil_iff`): edges with an end that is no node, edges from a node to itself,
repetitions and the order of the edges do not matter.
-/

namespace WorkflowPolicy.Graph

open Relation (TransGen ReflTransGen)

variable {g : Graph}

/-- **The search decides whether there is a cycle.** -/
theorem findCycles_eq_nil_iff (hg : g.WellFormed) : g.findCycles = [] ↔ ¬ HasCycle g.Leads := by
  constructor
  · rintro hnil ⟨a, hcycle⟩
    have hall : TransGen (fun b c => g.Leads b c ∧ True) a a :=
      TransGen.mono (fun _ _ hbc => ⟨hbc, trivial⟩) _ _ hcycle
    obtain ⟨b, -, e, hlost⟩ := exists_lost_of_cycle hg hall
    have he := mem_findCycles_of_givesUp hg hlost
    rw [hnil] at he
    exact absurd he List.not_mem_nil
  · intro hacyclic
    by_contra hne
    -- A reported edge and the way back to its beginning are a cycle.
    obtain ⟨e, he⟩ := List.exists_mem_of_ne_nil _ hne
    obtain ⟨hlead, hback⟩ := closes_of_mem_findCycles hg he
    exact hacyclic ⟨e.source, TransGen.head' hlead hback⟩

/-- The search decides whether the edges between two different ones of the nodes have a cycle. -/
theorem findCycles_restrict_eq_nil_iff {nodes : List String} (h : nodes.Nodup)
    (edges : List Edge) :
    (restrict nodes edges).findCycles = [] ↔ ¬ HasCycle (Joined nodes edges) := by
  rw [findCycles_eq_nil_iff (wellFormed_restrict h edges),
    hasCycle_congr fun _ _ => leads_restrict]

/-- The relation of the edges depends only on which names are nodes and which edges there are. -/
theorem joined_congr {nodes nodes' : List String} {edges edges' : List Edge}
    (hnodes : ∀ a, a ∈ nodes ↔ a ∈ nodes') (hedges : ∀ e, e ∈ edges ↔ e ∈ edges')
    (a b : String) : Joined nodes edges a b ↔ Joined nodes' edges' a b := by
  simp only [Joined, hnodes, hedges]

end WorkflowPolicy.Graph
