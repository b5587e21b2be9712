import WorkflowPolicy.Proofs.Graph.Search

/-!
# What the search reports and gives up

The states of a search follow one another in a line (`Search.Reached.total`) that leads to the end
of the search (`Search.Reached.steps_to_end`), and a black node stays black
(`Search.black_of_steps`). So the search reports exactly the edges that it comes upon with their
ends on the stack (`mem_findCycles_iff`), and gives every node up at most once
(`Search.GivesUp.unique`).

At a report the stack holds the way from the end of the edge back to its beginning, so some cycle
through the edge is given up as a whole (`Search.cycle_of_reports`). The other way round, every
cycle has a node that is given up (`exists_lost_of_cycle`): on the rest of the graph the search has
been complete.
-/

namespace WorkflowPolicy.Graph

open Relation (TransGen ReflTransGen)

variable {g : Graph}

namespace Search

variable {s t : Search} {e e' : Edge} {a : String}

/-! ### The line of states -/

/-- **Of two states of a search, one follows from the other.** -/
theorem Reached.total (hs : Reached g s) (ht : Reached g t) :
    ReflTransGen (fun s t => step g s = some t) s t ∨
      ReflTransGen (fun s t => step g s = some t) t s :=
  ReflTransGen.total_of_right_unique (fun _ _ _ h h' => Option.some.inj (h.symm.trans h')) hs ht

/-- Every state that the search comes to has the shape of a search. -/
theorem Reached.inv (hg : g.WellFormed) (hs : Reached g s) : Inv g s := by
  induction hs with
  | refl => exact .initial g
  | tail _ hstep ih => exact ih.move hg (move_of_step hstep)

/-- Black nodes stay black at every move. -/
theorem black_of_move (hmove : Move g s t) (h : s.color a = .black) : t.color a = .black := by
  cases hmove with
  | skip root roots hstack hroots hseen => exact h
  | enter root roots hstack hroots hwhite => exact black_recolor_gray hwhite h
  | leave u below hstack =>
    change recolor s.color u .black a = .black
    by_cases heq : a = u
    · rw [heq, recolor_self]
    · rw [recolor_of_ne heq, h]
  | report u v ahead below hstack hgray =>
    change closeAll s.color s.stack a = .black
    rw [closeAll_apply, h, ite_self]
  | descend u v ahead below hstack hwhite => exact black_recolor_gray hwhite h
  | pass u v ahead below hstack hblack => exact h

/-- **Black nodes stay black.** -/
theorem black_of_steps (hsteps : ReflTransGen (fun s t => step g s = some t) s t)
    (h : s.color a = .black) : t.color a = .black := by
  induction hsteps with
  | refl => exact h
  | tail _ hstep ih => exact black_of_move (move_of_step hstep) ih

/-- Reports stay on record. -/
theorem found_subset_of_steps (hsteps : ReflTransGen (fun s t => step g s = some t) s t) :
    s.found ⊆ t.found := by
  induction hsteps with
  | refl => exact List.Subset.refl _
  | tail _ hstep ih =>
    refine List.Subset.trans ih ?_
    cases move_of_step hstep with
    | report u v ahead below hstack hgray => exact List.subset_append_left _ _
    | _ => exact List.Subset.refl _

/-! ### Reports -/

/-- The state after a report. -/
theorem Reports.step_eq (h : s.Reports e) : step g s =
    some { s with color := closeAll s.color s.stack, stack := [], found := s.found ++ [e] } := by
  obtain ⟨ahead, below, hstack, hgray⟩ := h
  simp only [step, hstack, hgray]

/-- A state reports one edge at most. -/
theorem Reports.unique (h : s.Reports e) (h' : s.Reports e') : e = e' := by
  obtain ⟨ahead, below, hstack, -⟩ := h
  obtain ⟨ahead', below', hstack', -⟩ := h'
  rw [hstack] at hstack'
  obtain ⟨source, target⟩ := e
  obtain ⟨source', target'⟩ := e'
  simp only [List.cons.injEq, Frame.mk.injEq] at hstack'
  rw [Edge.mk.injEq]
  exact ⟨hstack'.1.1, hstack'.1.2.1⟩

/-- What is on record has been reported by a state that the search has come to. -/
theorem exists_reports_of_mem_found (hs : Reached g s) (he : e ∈ s.found) :
    ∃ r, Reached g r ∧ r.Reports e := by
  induction hs with
  | refl => cases he
  | @tail r t hr hstep ih =>
    cases move_of_step hstep with
    | report u v ahead below hstack hgray =>
      rcases List.mem_append.mp he with he | he
      · exact ih he
      · rw [List.mem_singleton.mp he]
        exact ⟨r, hr, ahead, below, hstack, hgray⟩
    | _ => exact ih he

/-- The nodes that are given up are black ever after. -/
theorem black_after_report (hr : s.Reports e) (ha : a ∈ s.path) (hstep : step g s = some t) :
    t.color a = .black := by
  rw [hr.step_eq] at hstep
  obtain rfl := Option.some.inj hstep
  change closeAll s.color s.stack a = .black
  rw [closeAll_apply]
  exact if_pos ha

/-- Of two states that report with a node on the stack, none comes before the other: after its
report the node would be black, and in the other state it is on the stack. -/
theorem eq_of_reports_of_steps (hg : g.WellFormed) (hs : Reached g s) (hr : s.Reports e)
    (ha : a ∈ s.path) (ha' : a ∈ t.path)
    (hsteps : ReflTransGen (fun s t => step g s = some t) s t) : s = t := by
  rcases ReflTransGen.cases_head hsteps with heq | ⟨next, hstep, hrest⟩
  · exact heq
  · have ht : Reached g t := hs.trans hsteps
    have hblack : t.color a = .black := black_of_steps hrest (black_after_report hr ha hstep)
    have hgray : t.color a = .gray := ((ht.inv hg).gray_iff a).mpr ha'
    rw [hblack] at hgray
    cases hgray

/-- **No node is on the stack at two reports.** -/
theorem eq_of_reports (hg : g.WellFormed) (hs : Reached g s) (hr : s.Reports e) (ha : a ∈ s.path)
    (ht : Reached g t) (hr' : t.Reports e') (ha' : a ∈ t.path) : s = t := by
  rcases hs.total ht with hsteps | hsteps
  · exact eq_of_reports_of_steps hg hs hr ha ha' hsteps
  · exact (eq_of_reports_of_steps hg ht hr' ha' ha hsteps).symm

/-- **A node is given up at one report at most.** -/
theorem GivesUp.unique (hg : g.WellFormed) (h : GivesUp g e a) (h' : GivesUp g e' a) : e = e' := by
  obtain ⟨s, hs, hr, ha⟩ := h
  obtain ⟨t, ht, hr', ha'⟩ := h'
  obtain rfl := eq_of_reports hg hs hr ha ht hr' ha'
  exact hr.unique hr'

/-- From a node that is given up the reported edge can be reached. -/
theorem GivesUp.reaches (hg : g.WellFormed) (h : GivesUp g e a) :
    ReflTransGen g.Leads a e.source := by
  obtain ⟨s, hs, ⟨ahead, below, hstack, -⟩, ha⟩ := h
  have hchain := (hs.inv hg).path_chain
  rw [path_of_stack hstack] at hchain ha
  exact reaches_top hchain ha

/-- **The nodes of some cycle through a reported edge are all given up with it.** -/
theorem cycle_of_reports (hg : g.WellFormed) (hs : Reached g s) (hr : s.Reports e) :
    TransGen (fun a b => g.Leads a b ∧ GivesUp g e a) e.source e.source := by
  obtain ⟨ahead, below, hstack, hgray⟩ := hr
  have hinv := hs.inv hg
  have hchain := hinv.path_chain
  have htarget := (hinv.gray_iff e.target).mp hgray
  have hpath := path_of_stack hstack
  rw [hpath] at hchain htarget
  have hgives : ∀ a ∈ e.source :: below.map Frame.node, GivesUp g e a := fun a ha =>
    ⟨s, hs, ⟨ahead, below, hstack, hgray⟩, by rwa [hpath]⟩
  -- The edge leads to a node of the stack, and the stack leads back to its beginning.
  refine TransGen.head' ⟨hinv.leads_top hstack, hgives _ List.mem_cons_self⟩ ?_
  exact ReflTransGen.mono (fun a b hab => ⟨hab.1, hgives a hab.2⟩) _ _
    (climbs_to_top hchain htarget)

/-- **From every state the search comes to its end.** -/
theorem Reached.steps_to_end (hg : g.WellFormed) (hs : Reached g s) :
    ReflTransGen (fun s t => step g s = some t) s g.searchEnd := by
  obtain ⟨hend, -, -, hnone⟩ := search_spec hg
  rcases hs.total hend with hsteps | hsteps
  · exact hsteps
  · -- The end comes before the state, and has no step, so it is the state.
    rcases ReflTransGen.cases_head hsteps with heq | ⟨next, hnext, -⟩
    · rw [heq]
    · rw [hnone] at hnext
      cases hnext

end Search

/-! ### The end of the search -/

/-- **The reported edges** are those that a state of the search reports. -/
theorem mem_findCycles_iff (hg : g.WellFormed) {e : Edge} :
    e ∈ g.findCycles ↔ ∃ s, Search.Reached g s ∧ s.Reports e := by
  constructor
  · intro he
    exact Search.exists_reports_of_mem_found (search_spec hg).1 he
  · rintro ⟨s, hs, hr⟩
    have hafter : Search.Reached g
        { s with color := Search.closeAll s.color s.stack, stack := [], found := s.found ++ [e] } :=
      hs.tail hr.step_eq
    -- The state after the report comes before the end, and reports stay on record.
    exact Search.found_subset_of_steps (hafter.steps_to_end hg)
      (List.mem_append_right _ List.mem_cons_self)

/-- What is given up is given up at a reported edge. -/
theorem mem_findCycles_of_givesUp (hg : g.WellFormed) {e : Edge} {a : String}
    (h : Search.GivesUp g e a) : e ∈ g.findCycles := by
  obtain ⟨s, hs, hr, -⟩ := h
  exact (mem_findCycles_iff hg).mpr ⟨s, hs, hr⟩

/-- A reported edge is an edge, and the way back to its beginning exists. -/
theorem closes_of_mem_findCycles (hg : g.WellFormed) {e : Edge} (h : e ∈ g.findCycles) :
    g.Leads e.source e.target ∧ ReflTransGen g.Leads e.target e.source :=
  (search_spec hg).2.1.found_closes e h

/-- At the end of the search every node is black. -/
theorem black_of_mem_nodes (hg : g.WellFormed) {a : String} (h : a ∈ g.nodes) :
    g.searchEnd.color a = .black := by
  obtain ⟨-, hinv, -, hnone⟩ := search_spec hg
  obtain ⟨hstack, hroots⟩ := Search.eq_nil_of_step_eq_none hnone
  -- It has been seen, since no root is left, and it is not on the stack, which is empty.
  have hseen : g.searchEnd.color a ≠ .white :=
    hinv.seen_of_not_root a h (by rw [hroots]; exact List.not_mem_nil)
  have hnotGray : g.searchEnd.color a ≠ .gray := by
    intro hgray
    have hmem := (hinv.gray_iff a).mp hgray
    rw [Search.path, hstack] at hmem
    exact List.not_mem_nil hmem
  cases hcolor : g.searchEnd.color a with
  | white => exact absurd hcolor hseen
  | gray => exact absurd hcolor hnotGray
  | black => rfl

/-- **Every cycle has a node that is given up**, also if only some of the nodes may be visited. -/
theorem exists_lost_of_cycle (hg : g.WellFormed) {P : String → Prop} {c : String}
    (h : TransGen (fun a b => g.Leads a b ∧ P a) c c) : ∃ a, P a ∧ Search.Lost g a := by
  by_contra hnone
  -- None of the nodes is given up, so only finitely many edges can be followed from them.
  have hcycle : TransGen (fun a b => g.Leads a b ∧ ¬ Search.Lost g a) c c :=
    TransGen.mono (fun a b hab => ⟨hab.1, fun hlost => hnone ⟨a, hab.2, hlost⟩⟩) _ _ h
  have hmem : c ∈ g.nodes := by
    obtain ⟨b, hcb, -⟩ := TransGen.head'_iff.mp h
    exact hg.source_mem hcb.1
  have hacc := (search_spec hg).2.2.1.black_acc c (black_of_mem_nodes hg hmem)
  exact not_transGen_self_of_acc hacc hcycle

end WorkflowPolicy.Graph
