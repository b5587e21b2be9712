import Mathlib
import WorkflowPolicy.Graph.Basic

/-!
# Reachability in a graph

The edges of a graph as a relation (`Graph.Leads`), and the graphs on which the searches work
(`Graph.WellFormed`): no node is listed twice, and the edges join nodes of the list. A restricted
graph is such a graph (`wellFormed_restrict`), and its relation is the one of the edges that join
two different nodes (`leads_restrict`).

`runSteps_spec` is the law of all machines of this library: a machine whose measure falls with
every step has come to its end when the bound is reached, and whatever its steps keep holds there.
-/

namespace WorkflowPolicy

open Relation (TransGen ReflTransGen)

/-! ### Machines that take steps -/

section Steps

variable {σ : Type} {step : σ → Option σ} {Inv : σ → Prop} {measure : σ → Nat}

/-- **A run to the end.** If every step keeps the invariant and lowers the measure, then a run with
a bound of at least the measure ends where no step is left, and the invariant holds there. -/
theorem runSteps_spec
    (keep : ∀ s t, Inv s → step s = some t → Inv t ∧ measure t < measure s) :
    ∀ bound s, Inv s → measure s ≤ bound →
      Inv (runSteps step bound s) ∧ step (runSteps step bound s) = none := by
  intro bound
  induction bound with
  | zero =>
    intro s hs hle
    refine ⟨hs, ?_⟩
    cases hstep : step s with
    | none => exact hstep
    | some t =>
      -- The measure is zero and cannot fall, so no step is left.
      have hlt := (keep s t hs hstep).2
      omega
  | succ bound ih =>
    intro s hs hle
    cases hstep : step s with
    | none =>
      -- The machine has stopped before its bound.
      have hrun : runSteps step (bound + 1) s = s := by simp only [runSteps, hstep]
      rw [hrun]
      exact ⟨hs, hstep⟩
    | some t =>
      have hrun : runSteps step (bound + 1) s = runSteps step bound t := by
        simp only [runSteps, hstep]
      obtain ⟨ht, hlt⟩ := keep s t hs hstep
      rw [hrun]
      exact ih t ht (by omega)

end Steps

namespace Graph

variable {g : Graph}

/-! ### The relation of a graph -/

/-- An edge leads from the one node to the other. -/
def Leads (g : Graph) (a b : String) : Prop := ⟨a, b⟩ ∈ g.edges

theorem mem_successors_iff_leads {a b : String} : b ∈ g.successors a ↔ g.Leads a b :=
  mem_successors

/-- **A graph as the searches expect it.** -/
structure WellFormed (g : Graph) : Prop where
  /-- No node is listed twice. -/
  nodup : g.nodes.Nodup
  /-- An edge begins at a node. -/
  source_mem : ∀ {a b}, g.Leads a b → a ∈ g.nodes
  /-- An edge ends at a node. -/
  target_mem : ∀ {a b}, g.Leads a b → b ∈ g.nodes

/-- **A directed cycle**: a way from a node to itself with at least one edge. -/
def HasCycle (r : String → String → Prop) : Prop := ∃ a, TransGen r a a

/-- Relations that agree have the same cycles. -/
theorem hasCycle_congr {r r' : String → String → Prop} (h : ∀ a b, r a b ↔ r' a b) :
    HasCycle r ↔ HasCycle r' := by
  have heq : r = r' := by
    funext a b
    exact propext (h a b)
  rw [heq]

/-- A node from which only finitely many edges can be followed is on no cycle. -/
theorem not_transGen_self_of_acc {r : String → String → Prop} {a : String}
    (h : Acc (fun b a => r a b) a) : ¬ TransGen r a a := by
  intro hcycle
  have hacc : Acc (TransGen fun b a => r a b) a := h.transGen
  -- A node on a cycle lies below itself, so the induction comes to the node again.
  induction hacc with
  | intro x _ ih =>
    have hswap : TransGen (fun b a => r a b) x x := Relation.transGen_swap.mpr hcycle
    exact ih x hswap (h.inv_of_transGen hswap) hcycle

/-! ### Restricted graphs -/

/-- The edges between two different ones of the given nodes, as a relation. -/
def Joined (nodes : List String) (edges : List Edge) (a b : String) : Prop :=
  ⟨a, b⟩ ∈ edges ∧ a ∈ nodes ∧ b ∈ nodes ∧ a ≠ b

theorem leads_restrict {nodes : List String} {edges : List Edge} {a b : String} :
    (restrict nodes edges).Leads a b ↔ Joined nodes edges a b := by
  rw [Leads, mem_edges_restrict, Joined]
  exact ⟨fun ⟨h, hne, ha, hb⟩ => ⟨h, ha, hb, hne⟩, fun ⟨h, ha, hb, hne⟩ => ⟨h, hne, ha, hb⟩⟩

theorem wellFormed_restrict {nodes : List String} (h : nodes.Nodup) (edges : List Edge) :
    (restrict nodes edges).WellFormed where
  nodup := h
  source_mem := fun hleads => (leads_restrict.mp hleads).2.1
  target_mem := fun hleads => (leads_restrict.mp hleads).2.2.1

/-! ### Counting edges -/

/-- The number of edges that begin at a node. -/
theorem length_successors (a : String) :
    (g.successors a).length = g.edges.countP (·.source == a) := by
  rw [successors, List.length_map, List.countP_eq_length_filter]

/-- A name is at most one of the nodes of a list without repetitions. -/
theorem sum_indicator_le_one {nodes : List String} (h : nodes.Nodup) (name : String) :
    (nodes.map fun a => if name == a then 1 else 0).sum ≤ 1 := by
  induction nodes with
  | nil => simp
  | cons a nodes ih =>
    obtain ⟨hnot, hrest⟩ := List.nodup_cons.mp h
    by_cases heq : name = a
    · subst heq
      -- The name does not occur a second time.
      have hzero : (nodes.map fun b => if name == b then 1 else 0).sum = 0 := by
        refine List.sum_eq_zero fun n hn => ?_
        obtain ⟨b, hb, rfl⟩ := List.mem_map.mp hn
        have hne : name ≠ b := fun hb' => hnot (hb' ▸ hb)
        simp [hne]
      rw [List.map_cons, List.sum_cons, hzero]
      simp
    · simpa [heq] using ih hrest

/-- An edge begins at one node only, so the nodes of a list begin no more edges than there are. -/
theorem sum_countP_source_le {nodes : List String} (h : nodes.Nodup) (edges : List Edge) :
    (nodes.map fun a => edges.countP (·.source == a)).sum ≤ edges.length := by
  induction edges with
  | nil => simp
  | cons e edges ih =>
    -- The first edge is counted at its source, if that is listed.
    have hone := sum_indicator_le_one h e.source
    have hsplit : (nodes.map fun a => (e :: edges).countP (·.source == a)).sum
        = (nodes.map fun a => edges.countP (·.source == a)).sum
          + (nodes.map fun a => if e.source == a then 1 else 0).sum := by
      rw [← List.sum_map_add]
      exact congrArg List.sum (List.map_congr_left fun a _ => List.countP_cons)
    rw [hsplit, List.length_cons]
    omega

/-- The nodes of a graph begin no more edges than there are. -/
theorem sum_length_successors_le (h : g.nodes.Nodup) :
    (g.nodes.map fun a => (g.successors a).length).sum ≤ g.edges.length := by
  simp only [length_successors]
  exact sum_countP_source_le h g.edges

end Graph

end WorkflowPolicy
