import WorkflowPolicy.Proofs.Graph.DisjointCycles

/-!
# Runs of the search

The states of a search are the heads of its loops: where the stack is empty the next root is taken,
and where it is not its top is looked at. A *complete run* is the list of these states from the
start to one that has no step (`Search.CompleteRun`). Every search has one
(`Search.exists_completeRun`), it is no longer than the bound allows
(`Search.CompleteRun.length_le`), and from each of its states the stack becomes empty before another
root is taken (`Search.exists_stack_empty`).

`Search.pushes` lists the nodes by which the stack has grown in a run. A node is white before it is
pushed and not after, and no step but a push changes which nodes are white. So what a run has pushed
of a node and whether the node is still white add up (`Search.count_pushes_add_unseen`), and at the
end, where all nodes are black, each of them has been pushed once.
-/

namespace WorkflowPolicy

open Relation (ReflTransGen)

namespace Graph

variable {g : Graph}

namespace Search

variable {s t : Search} {run : List Search} {v a : String}

/-! ### Complete runs -/

/-- **A complete run of the search**: its states one after another, from the start to the end. -/
structure CompleteRun (g : Graph) (run : List Search) : Prop where
  head : run.head? = some (start g)
  steps : run.IsChain fun s t => step g s = some t
  /-- No step is left at the end. -/
  stops : ∀ s ∈ run.getLast?, step g s = none

/-- A step with a node on the stack, by which the search stays with its root. -/
def StaysWithRoot (g : Graph) (s t : Search) : Prop := s.stack ≠ [] ∧ step g s = some t

/-- **The search has a complete run**, so it ends. -/
theorem exists_completeRun (hg : g.WellFormed) : ∃ run, CompleteRun g run := by
  obtain ⟨hend, -, -, hnone⟩ := search_spec hg
  -- The search is a chain of steps from the start, and the chain is the run.
  obtain ⟨rest, hchain, hlast⟩ := List.exists_isChain_cons_of_relationReflTransGen hend
  refine ⟨start g :: rest, rfl, hchain, ?_⟩
  intro s hs
  rw [List.getLast?_eq_some_getLast (List.cons_ne_nil _ _), hlast] at hs
  cases hs
  exact hnone

/-- The search comes to every state of a complete run. -/
theorem CompleteRun.reached (h : CompleteRun g run) (hs : s ∈ run) : Reached g s := by
  -- The steps go on from reached states to reached states, and the first state is the start.
  refine h.steps.induction (Reached g) run (fun _ _ hstep hreached => hreached.tail hstep) ?_ s hs
  intro hne
  have hhead : run.head hne = start g :=
    Option.some.inj ((List.head?_eq_some_head hne).symm.trans h.head)
  rw [hhead]
  exact ReflTransGen.refl

/-- **All complete runs come to the same end.** -/
theorem CompleteRun.getLast?_eq (hg : g.WellFormed) (h : CompleteRun g run) :
    run.getLast? = some g.searchEnd := by
  have hne : run ≠ [] := by
    rintro rfl
    cases h.head
  have hlast := List.getLast?_eq_some_getLast hne
  have hreached : Reached g (run.getLast hne) := h.reached (List.getLast_mem hne)
  have hstops : step g (run.getLast hne) = none := h.stops _ hlast
  -- The end of the search is reached from every state, and from the last one no step is taken.
  rcases ReflTransGen.cases_head (hreached.steps_to_end hg) with heq | ⟨next, hnext, -⟩
  · rw [hlast, heq]
  · rw [hstops] at hnext
    cases hnext

/-- A complete run does not leave out what follows on one of its states. -/
theorem CompleteRun.mem_of_step (h : CompleteRun g run) (hs : s ∈ run)
    (hstep : step g s = some t) : t ∈ run := by
  obtain ⟨before, after, rfl⟩ := List.append_of_mem hs
  -- The state stands somewhere in the run, and if it is the last one nothing follows on it.
  cases after with
  | nil =>
    have hnone : step g s = none := h.stops s (by rw [List.getLast?_concat]; rfl)
    rw [hnone] at hstep
    cases hstep
  | cons next after =>
    have hnext : step g s = some next :=
      (List.isChain_cons_cons.mp (List.isChain_append.mp h.steps).2.1).1
    obtain rfl := Option.some.inj (hnext.symm.trans hstep)
    exact List.mem_append_right _ (List.mem_cons_of_mem _ List.mem_cons_self)

theorem CompleteRun.mem_of_steps (h : CompleteRun g run) (hs : s ∈ run)
    (hsteps : ReflTransGen (fun s t => step g s = some t) s t) : t ∈ run := by
  induction hsteps with
  | refl => exact hs
  | tail _ hstep ih => exact h.mem_of_step ih hstep

/-! ### How long a run is -/

/-- From a state of the search no more steps can be taken than its measure says. -/
theorem length_le_toGo (hg : g.WellFormed) (hs : Reached g s)
    (hsteps : (s :: run).IsChain fun s t => step g s = some t) : run.length ≤ toGo g s := by
  induction run generalizing s with
  | nil => exact Nat.zero_le _
  | cons t run ih =>
    obtain ⟨hstep, hrest⟩ := List.isChain_cons_cons.mp hsteps
    -- Each step lowers the measure, so there are no more steps than its value.
    have hlt := toGo_move hg (hs.inv hg) (move_of_step hstep)
    have hle := ih (hs.tail hstep) hrest
    rw [List.length_cons]
    omega

/-- **A complete run keeps to the bound of the search.** -/
theorem CompleteRun.length_le (hg : g.WellFormed) (h : CompleteRun g run) :
    run.length ≤ g.searchBound + 1 := by
  obtain ⟨rest, rfl⟩ := List.head?_eq_some_iff.mp h.head
  have hle := length_le_toGo hg ReflTransGen.refl h.steps
  have hbound := toGo_start_le hg
  rw [List.length_cons]
  omega

/-- As long as a node is on the stack, no root is taken. -/
theorem roots_eq_of_move (hmove : Move g s t) (hne : s.stack ≠ []) : t.roots = s.roots := by
  cases hmove with
  | skip root roots hstack hroots hseen => exact absurd hstack hne
  | enter root roots hstack hroots hwhite => exact absurd hstack hne
  | _ => rfl

/-- **The search of a root ends**: the stack becomes empty, with the same roots to come. -/
theorem exists_stack_empty (hg : g.WellFormed) (hs : Reached g s) :
    ∃ t, ReflTransGen (StaysWithRoot g) s t ∧ t.stack = [] ∧ t.roots = s.roots := by
  -- By induction on the measure, which every step lowers.
  induction hmeasure : toGo g s using Nat.strong_induction_on generalizing s with
  | _ n ih =>
    by_cases hstack : s.stack = []
    · exact ⟨s, ReflTransGen.refl, hstack, rfl⟩
    · cases hstep : step g s with
      | none => exact absurd (eq_nil_of_step_eq_none hstep).1 hstack
      | some next =>
        have hmove := move_of_step hstep
        -- The measure is less after the step, and the roots are the same.
        have hlt := toGo_move hg (hs.inv hg) hmove
        obtain ⟨t, hsteps, hempty, hroots⟩ := ih _ (hmeasure ▸ hlt) (hs.tail hstep) rfl
        exact ⟨t, ReflTransGen.head ⟨hstack, hstep⟩ hsteps, hempty,
          hroots.trans (roots_eq_of_move hmove hstack)⟩

/-! ### What is pushed -/

/-- The node by which the stack has grown from the one state to the other, if it has. -/
def pushed (s t : Search) : List String :=
  match t.path with
  | [] => []
  | top :: below => if below = s.path then [top] else []

/-- **The nodes that are pushed on the stack** in a run, in their order. -/
def pushes : List Search → List String
  | s :: t :: run => pushed s t ++ pushes (t :: run)
  | _ => []

theorem pushed_of_path_eq (h : t.path = v :: s.path) : pushed s t = [v] := by
  simp only [pushed, h, if_true]

/-- A stack that is no longer than before has not grown. -/
theorem pushed_of_length_le (h : t.path.length ≤ s.path.length) : pushed s t = [] := by
  cases hpath : t.path with
  | nil => simp only [pushed, hpath]
  | cons top below =>
    have hne : below ≠ s.path := by
      rintro rfl
      rw [hpath, List.length_cons] at h
      omega
    simp only [pushed, hpath, if_neg hne]

/-- A node that is white counts as one. -/
def unseen (s : Search) (a : String) : Nat := if s.color a = .white then 1 else 0

/-- Steps that push nothing and leave the same nodes white keep the count. -/
theorem count_pushed_add_unseen_of_length_le (hpath : t.path.length ≤ s.path.length)
    (hcolor : t.color a = .white ↔ s.color a = .white) :
    (pushed s t).count a + unseen t a = unseen s a := by
  rw [pushed_of_length_le hpath, List.count_nil, Nat.zero_add]
  simp only [unseen, hcolor]

/-- A push of a white node takes the node over to what has been pushed. -/
theorem count_singleton_add_unseen_push (hv : s.color v = .white) (a : String) :
    [v].count a + unseen (push g s v) a = unseen s a := by
  change [v].count a + (if recolor s.color v .gray a = .white then 1 else 0)
    = if s.color a = .white then 1 else 0
  by_cases heq : a = v
  · subst heq
    simp [hv]
  · rw [recolor_of_ne heq, List.count_singleton, if_neg (by simpa using Ne.symm heq), Nat.zero_add]

/-- **A step pushes a node exactly if it makes a white node another colour.** -/
theorem count_pushed_add_unseen (h : Inv g s) (hmove : Move g s t) (a : String) :
    (pushed s t).count a + unseen t a = unseen s a := by
  -- The cases are the kinds of steps: two of them push a white node, and the others push nothing
  -- and leave white what is white.
  cases hmove with
  | skip root roots hstack hroots hseen =>
    exact count_pushed_add_unseen_of_length_le (Nat.le_refl _) Iff.rfl
  | enter root roots hstack hroots hwhite =>
    have hpushed : pushed s (push g { s with roots } root) = [root] := pushed_of_path_eq rfl
    rw [hpushed]
    exact count_singleton_add_unseen_push (s := { s with roots }) hwhite a
  | leave u below hstack =>
    have hgray : s.color u = .gray := by
      rw [h.gray_iff, path_of_stack hstack]
      exact List.mem_cons_self
    refine count_pushed_add_unseen_of_length_le ?_ ?_
    · rw [path_of_stack hstack, List.length_cons]
      exact Nat.le_succ _
    · change recolor s.color u .black a = .white ↔ s.color a = .white
      by_cases heq : a = u
      · subst heq
        simp [hgray]
      · rw [recolor_of_ne heq]
  | report u v ahead below hstack hgray =>
    refine count_pushed_add_unseen_of_length_le (Nat.zero_le _) ?_
    change closeAll s.color s.stack a = .white ↔ s.color a = .white
    rw [closeAll_apply]
    split
    · next hmem =>
      -- The nodes of the stack are gray before and black after.
      have hgray : s.color a = .gray := (h.gray_iff a).mpr hmem
      simp [hgray]
    · exact Iff.rfl
  | descend u v ahead below hstack hwhite =>
    have hpushed : pushed s (push g (s.advance u ahead below) v) = [v] := by
      refine pushed_of_path_eq ?_
      rw [path_of_stack hstack]
      rfl
    rw [hpushed]
    exact count_singleton_add_unseen_push (s := s.advance u ahead below) hwhite a
  | pass u v ahead below hstack hblack =>
    refine count_pushed_add_unseen_of_length_le ?_ Iff.rfl
    rw [path_of_stack hstack]
    exact Nat.le_refl _

/-- **What a run has pushed of a node, and whether the node is white at its end, add up** to whether
it was white at the beginning. -/
theorem count_pushes_add_unseen (hg : g.WellFormed) (hs : Reached g s)
    (hsteps : (s :: run).IsChain fun s t => step g s = some t)
    (hlast : t ∈ (s :: run).getLast?) (a : String) :
    (pushes (s :: run)).count a + unseen t a = unseen s a := by
  -- The induction is on the run. What one step pushes and the rest of the run adds up.
  induction run generalizing s with
  | nil =>
    cases hlast
    exact Nat.zero_add _
  | cons next run ih =>
    obtain ⟨hstep, hrest⟩ := List.isChain_cons_cons.mp hsteps
    have hfirst := count_pushed_add_unseen (hs.inv hg) (move_of_step hstep) a
    have hlater := ih (hs.tail hstep) hrest (by rwa [List.getLast?_cons_cons] at hlast)
    rw [pushes, List.count_append]
    omega

/-- **A complete run pushes every node once**, and nothing else. -/
theorem CompleteRun.count_pushes (hg : g.WellFormed) (h : CompleteRun g run) (a : String) :
    (pushes run).count a = if a ∈ g.nodes then 1 else 0 := by
  have hlast := h.getLast?_eq hg
  obtain ⟨rest, rfl⟩ := List.head?_eq_some_iff.mp h.head
  have hsum := count_pushes_add_unseen hg ReflTransGen.refl h.steps hlast a
  have hstart : unseen (start g) a = 1 := rfl
  rw [hstart] at hsum
  by_cases hmem : a ∈ g.nodes
  · -- At the end the node is black.
    have hend : unseen g.searchEnd a = 0 := by
      rw [unseen, black_of_mem_nodes hg hmem]
      rfl
    rw [if_pos hmem]
    omega
  · -- A node that is not of the graph is never seen, so it is white at the end.
    have hwhite : g.searchEnd.color a = .white :=
      by_contra fun hseen => hmem ((search_spec hg).2.1.seen_mem a hseen)
    have hend : unseen g.searchEnd a = 1 := if_pos hwhite
    rw [if_neg hmem]
    omega

end Search

end Graph

namespace Workflow

open WorkflowPolicy.Graph.Search (CompleteRun StaysWithRoot pushes)

/-- **The search for cycles ends, and every node is pushed once.** The search on the graph of a
workflow has a complete run. Of such a run:

* it takes at most twice as many steps as there are nodes, and one for each edge;
* from each of its states the stack becomes empty before another root is taken;
* every node of the workflow is pushed exactly once, and nothing else is pushed;
* in each of its states the gray nodes are those on the stack;
* at its end every node is black, nothing is on the stack, and what has been found is what the
  search reports. -/
theorem cycle_search_pushes_each_node_once (w : Workflow) :
    (∃ run, CompleteRun w.graph run) ∧
    ∀ run, CompleteRun w.graph run →
      run.length ≤ 2 * w.graph.nodes.length + w.graph.edges.length + 1 ∧
      (∀ s ∈ run, ∃ t ∈ run, ReflTransGen (StaysWithRoot w.graph) s t ∧ t.stack = [] ∧
        t.roots = s.roots) ∧
      (∀ a, (pushes run).count a = if a ∈ w.nodes.names then 1 else 0) ∧
      (∀ s ∈ run, ∀ a, s.color a = .gray ↔ a ∈ s.path) ∧
      ∃ last, run.getLast? = some last ∧ (∀ a ∈ w.nodes.names, last.color a = .black) ∧
        last.stack = [] ∧ last.found = w.graph.findCycles := by
  have hg := w.wellFormed_graph
  have hnode : ∀ a, a ∈ w.graph.nodes ↔ a ∈ w.nodes.names := fun _ => mem_nodeNames
  refine ⟨Graph.Search.exists_completeRun hg, fun run hrun => ⟨hrun.length_le hg, ?_, ?_, ?_,
    w.graph.searchEnd, hrun.getLast?_eq hg, ?_, ?_, rfl⟩⟩
  · -- The states on the way to the empty stack are in the run, since the run leaves out none.
    intro s hs
    obtain ⟨t, hsteps, hempty, hroots⟩ := Graph.Search.exists_stack_empty hg (hrun.reached hs)
    exact ⟨t, hrun.mem_of_steps hs (ReflTransGen.mono (fun _ _ h => h.2) _ _ hsteps), hsteps,
      hempty, hroots⟩
  · intro a
    rw [hrun.count_pushes hg a, if_congr (hnode a) rfl rfl]
  · exact fun s hs => ((hrun.reached hs).inv hg).gray_iff
  · exact fun a ha => Graph.black_of_mem_nodes hg ((hnode a).mpr ha)
  · exact (Graph.Search.eq_nil_of_step_eq_none (Graph.search_spec hg).2.2.2).1

/-- Both loops are given up, and yet each of the five nodes is pushed once. -/
theorem sharedLoops_pushed_once :
    ∃ run, CompleteRun sharedLoops.graph run ∧ run.length ≤ 18 ∧
      (∀ a ∈ ["a", "b", "e", "x", "y"], (pushes run).count a = 1) ∧
      ∃ last, run.getLast? = some last ∧ last.found = [⟨"b", "a"⟩, ⟨"y", "x"⟩] := by
  obtain ⟨⟨run, hrun⟩, hall⟩ := cycle_search_pushes_each_node_once sharedLoops
  obtain ⟨hlength, -, hcount, -, last, hlast, -, -, hfound⟩ := hall run hrun
  have hbound : 2 * sharedLoops.graph.nodes.length + sharedLoops.graph.edges.length + 1 = 18 := by
    decide +kernel
  have hreported : sharedLoops.graph.findCycles = [⟨"b", "a"⟩, ⟨"y", "x"⟩] := by decide +kernel
  have hnodes : ∀ a ∈ ["a", "b", "e", "x", "y"], a ∈ sharedLoops.nodes.names := by decide +kernel
  refine ⟨run, hrun, hlength.trans_eq hbound, fun a ha => ?_, last, hlast, hfound.trans hreported⟩
  rw [hcount a, if_pos (hnodes a ha)]

end Workflow

end WorkflowPolicy
