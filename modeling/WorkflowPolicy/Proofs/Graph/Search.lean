import Mathlib
import WorkflowPolicy.Graph.Cycle
import WorkflowPolicy.Proofs.Graph.Reach

/-!
# The search for cycles

What the three-coloured search of `Graph.findCycles` keeps at every step, and that it comes to its
end within its bound.

`Search.Move` lists the six things that a step can do. On it stand two invariants:

* `Search.Inv` — the shape of the search: the gray nodes are those on the stack, the stack is a way
  along edges, every node that is no root to come has been seen, and a reported edge closes a cycle.
* `Search.Explored` — what the colour black means. A report gives up the nodes on the stack, which
  have not been looked at in full (`Search.GivesUp`). Apart from those, only finitely many edges can
  be followed from a black node, and what has been looked at from the stack is black or above on
  the stack.

`Search.toGo` is the measure: a step takes away a root, a node of the stack, or an edge to be
looked at. `search_spec` puts the three together.
-/

namespace WorkflowPolicy.Graph

open Relation (ReflTransGen)

variable {g : Graph}

namespace Search

variable {s t : Search}

/-! ### Colourings -/

@[simp] theorem recolor_self (color : String → Color) (name : String) (c : Color) :
    recolor color name c name = c := by
  simp [recolor]

theorem recolor_of_ne {color : String → Color} {name other : String} {c : Color}
    (h : other ≠ name) : recolor color name c other = color other := by
  simp [recolor, h]

/-- The nodes on the stack, the present one first. -/
def path (s : Search) : List String := s.stack.map Frame.node

/-- Closing the stack makes its nodes black and changes no other one. -/
theorem closeAll_apply (color : String → Color) (stack : List Frame) (name : String) :
    closeAll color stack name = if name ∈ stack.map Frame.node then .black else color name := by
  induction stack generalizing color with
  | nil => simp [closeAll]
  | cons f stack ih =>
    have hfold : closeAll color (f :: stack) = closeAll (recolor color f.node .black) stack := rfl
    rw [hfold, ih]
    by_cases hmem : name ∈ stack.map Frame.node
    · simp only [List.map_cons, List.mem_cons, hmem, or_true, if_true]
    · by_cases heq : name = f.node
      · subst heq
        simp [hmem]
      · simp only [List.map_cons, List.mem_cons, hmem, heq, or_self, if_false]
        exact recolor_of_ne heq

/-! ### What a step can do -/

/-- The search has looked at one more edge of the top node. -/
def advance (s : Search) (u : String) (ahead : List String) (below : List Frame) : Search :=
  { s with stack := ⟨u, ahead⟩ :: below }

/-- **The moves of the search.** -/
inductive Move (g : Graph) (s : Search) : Search → Prop
  /-- The next root has been seen before. -/
  | skip (root : String) (roots : List String) (hstack : s.stack = [])
      (hroots : s.roots = root :: roots) (hseen : s.color root ≠ .white) :
      Move g s { s with roots }
  /-- The next root is put on the stack. -/
  | enter (root : String) (roots : List String) (hstack : s.stack = [])
      (hroots : s.roots = root :: roots) (hwhite : s.color root = .white) :
      Move g s (push g { s with roots } root)
  /-- All edges of the top node have been looked at. -/
  | leave (u : String) (below : List Frame) (hstack : s.stack = ⟨u, []⟩ :: below) :
      Move g s { s with color := recolor s.color u .black, stack := below }
  /-- An edge closes a cycle, and the stack is given up. -/
  | report (u v : String) (ahead : List String) (below : List Frame)
      (hstack : s.stack = ⟨u, v :: ahead⟩ :: below) (hgray : s.color v = .gray) :
      Move g s
        { s with color := closeAll s.color s.stack, stack := [], found := s.found ++ [⟨u, v⟩] }
  /-- An edge leads to a node that has not been seen. -/
  | descend (u v : String) (ahead : List String) (below : List Frame)
      (hstack : s.stack = ⟨u, v :: ahead⟩ :: below) (hwhite : s.color v = .white) :
      Move g s (push g (s.advance u ahead below) v)
  /-- An edge leads to a closed node. -/
  | pass (u v : String) (ahead : List String) (below : List Frame)
      (hstack : s.stack = ⟨u, v :: ahead⟩ :: below) (hblack : s.color v = .black) :
      Move g s (s.advance u ahead below)

/-- A step is one of the moves. -/
theorem move_of_step (h : step g s = some t) : Move g s t := by
  unfold step at h
  split at h
  · next hstack =>
    split at h
    · cases h
    · next root roots hroots =>
      split at h
      · next hwhite =>
        cases h
        exact .enter root roots hstack hroots hwhite
      · next hseen =>
        cases h
        exact .skip root roots hstack hroots hseen
  · next u below hstack =>
    cases h
    exact .leave u below hstack
  · next u v ahead below hstack =>
    split at h
    · next hgray =>
      cases h
      exact .report u v ahead below hstack hgray
    · next hwhite =>
      cases h
      exact .descend u v ahead below hstack hwhite
    · next hblack =>
      cases h
      exact .pass u v ahead below hstack hblack

/-- The search is over only when no node is on the stack and no root is to come. -/
theorem eq_nil_of_step_eq_none (h : step g s = none) : s.stack = [] ∧ s.roots = [] := by
  unfold step at h
  split at h
  · next hstack =>
    split at h
    · next hroots => exact ⟨hstack, hroots⟩
    · split at h <;> cases h
  · cases h
  · split at h <;> cases h

/-! ### The states of a search -/

/-- **The search comes to the state.** -/
def Reached (g : Graph) : Search → Prop := ReflTransGen (fun s t => step g s = some t) (start g)

/-- The next step reports the edge, since its end is on the stack. -/
def Reports (s : Search) (e : Edge) : Prop :=
  ∃ ahead below, s.stack = ⟨e.source, e.target :: ahead⟩ :: below ∧ s.color e.target = .gray

/-- **The search gives the node up** when it reports the edge: the node is on the stack. -/
def GivesUp (g : Graph) (e : Edge) (a : String) : Prop :=
  ∃ s, Reached g s ∧ s.Reports e ∧ a ∈ s.path

/-- The search gives the node up at some report. -/
def Lost (g : Graph) (a : String) : Prop := ∃ e, GivesUp g e a

/-! ### The shape of the search -/

/-- **The invariant of the search.** -/
structure Inv (g : Graph) (s : Search) : Prop where
  /-- The gray nodes are those on the stack. -/
  gray_iff : ∀ a, s.color a = .gray ↔ a ∈ s.path
  /-- No node is on the stack twice. -/
  path_nodup : s.path.Nodup
  /-- An edge leads from every node of the stack to the one above it. -/
  path_chain : s.path.IsChain fun above below => g.Leads below above
  /-- What lies ahead of a node are ends of its edges. -/
  ahead_leads : ∀ f ∈ s.stack, ∀ v ∈ f.ahead, g.Leads f.node v
  /-- The roots are nodes. -/
  roots_subset : ∀ a ∈ s.roots, a ∈ g.nodes
  /-- A node that is no root to come has been seen. -/
  seen_of_not_root : ∀ a ∈ g.nodes, a ∉ s.roots → s.color a ≠ .white
  /-- Only nodes have been seen. -/
  seen_mem : ∀ a, s.color a ≠ .white → a ∈ g.nodes
  /-- A reported edge leads to a node from which its own beginning can be reached. -/
  found_closes : ∀ e ∈ s.found, g.Leads e.source e.target ∧
    ReflTransGen g.Leads e.target e.source

theorem Inv.initial (g : Graph) : Inv g (start g) where
  gray_iff := by simp [start, path]
  path_nodup := List.nodup_nil
  path_chain := List.IsChain.nil
  ahead_leads := by simp [start]
  roots_subset := fun _ h => h
  seen_of_not_root := fun _ hmem hnot => absurd hmem hnot
  seen_mem := by simp [start]
  found_closes := by simp [start]

/-- From every node of the stack the top one can be reached along the stack. -/
theorem climbs_to_top {u : String} {rest : List String}
    (h : (u :: rest).IsChain fun above below => g.Leads below above) {v : String}
    (hv : v ∈ u :: rest) :
    ReflTransGen (fun a b => g.Leads a b ∧ a ∈ u :: rest) v u := by
  induction rest generalizing u with
  | nil =>
    rw [List.mem_singleton.mp hv]
  | cons w rest ih =>
    rw [List.isChain_cons_cons] at h
    rcases List.mem_cons.mp hv with rfl | hv
    · exact ReflTransGen.refl
    · -- The way to the node below the top goes on to the top.
      have hbelow : ReflTransGen (fun a b => g.Leads a b ∧ a ∈ u :: w :: rest) v w :=
        ReflTransGen.mono (fun _ _ hab => ⟨hab.1, List.mem_cons_of_mem _ hab.2⟩) _ _ (ih h.2 hv)
      exact hbelow.tail ⟨h.1, List.mem_cons_of_mem _ List.mem_cons_self⟩

/-- The top node can be reached from every node of the stack. -/
theorem reaches_top {u : String} {rest : List String}
    (h : (u :: rest).IsChain fun above below => g.Leads below above) {v : String}
    (hv : v ∈ u :: rest) : ReflTransGen g.Leads v u :=
  ReflTransGen.mono (fun _ _ hab => hab.1) _ _ (climbs_to_top h hv)

theorem path_of_stack {u : String} {ahead : List String} {below : List Frame}
    (h : s.stack = ⟨u, ahead⟩ :: below) : s.path = u :: below.map Frame.node := by
  rw [path, h, List.map_cons]

/-- What lies ahead of the top node is the end of an edge from it. -/
theorem Inv.leads_top (h : Inv g s) {u v : String} {ahead : List String} {below : List Frame}
    (hstack : s.stack = ⟨u, v :: ahead⟩ :: below) : g.Leads u v :=
  h.ahead_leads ⟨u, v :: ahead⟩ (by rw [hstack]; exact List.mem_cons_self) v List.mem_cons_self

/-- A white node is not on the stack. -/
theorem Inv.not_mem_path (h : Inv g s) {v : String} (hv : s.color v = .white) : v ∉ s.path := by
  intro hmem
  rw [(h.gray_iff v).mpr hmem] at hv
  cases hv

/-- Looking at one more edge keeps the shape. -/
theorem Inv.advance (h : Inv g s) {u v : String} {ahead : List String} {below : List Frame}
    (hstack : s.stack = ⟨u, v :: ahead⟩ :: below) : Inv g (s.advance u ahead below) := by
  have hpath : (s.advance u ahead below).path = s.path := by
    rw [path_of_stack hstack]
    rfl
  refine { h with
    gray_iff := fun a => by rw [hpath]; exact h.gray_iff a
    path_nodup := by rw [hpath]; exact h.path_nodup
    path_chain := by rw [hpath]; exact h.path_chain
    ahead_leads := ?_ }
  intro f hf w hw
  rcases List.mem_cons.mp hf with rfl | hf
  · exact h.ahead_leads ⟨u, v :: ahead⟩ (by rw [hstack]; exact List.mem_cons_self) w
      (List.mem_cons_of_mem v hw)
  · exact h.ahead_leads f (by rw [hstack]; exact List.mem_cons_of_mem _ hf) w hw

/-- Putting a white node on the stack keeps the shape, if an edge leads to it from the top. -/
theorem Inv.push (h : Inv g s) {v : String} (hv : s.color v = .white) (hmem : v ∈ g.nodes)
    (hlead : ∀ u ∈ s.path.head?, g.Leads u v) : Inv g (push g s v) := by
  -- A white node is not on the stack yet, which keeps the stack without repetitions.
  have hnot := h.not_mem_path hv
  have hpath : (Search.push g s v).path = v :: s.path := rfl
  have hcolor : (Search.push g s v).color = recolor s.color v .gray := rfl
  refine { h with
    gray_iff := ?_
    path_nodup := ?_
    path_chain := ?_
    ahead_leads := ?_
    seen_of_not_root := ?_
    seen_mem := ?_ }
  · intro a
    rw [hcolor, hpath, List.mem_cons]
    by_cases heq : a = v
    · subst heq
      simp
    · rw [recolor_of_ne heq, h.gray_iff a]
      simp [heq]
  · rw [hpath, List.nodup_cons]
    exact ⟨hnot, h.path_nodup⟩
  · rw [hpath, List.isChain_cons]
    exact ⟨hlead, h.path_chain⟩
  · intro f hf w hw
    rcases List.mem_cons.mp hf with rfl | hf
    · exact mem_successors_iff_leads.mp hw
    · exact h.ahead_leads f hf w hw
  · intro a ha hroot
    rw [hcolor]
    by_cases heq : a = v
    · subst heq
      simp
    · rw [recolor_of_ne heq]
      exact h.seen_of_not_root a ha hroot
  · intro a ha
    by_cases heq : a = v
    · exact heq ▸ hmem
    · rw [hcolor, recolor_of_ne heq] at ha
      exact h.seen_mem a ha

/-- Taking a root that has been seen keeps the shape. -/
theorem Inv.dropRoot (h : Inv g s) {root : String} {roots : List String}
    (hroots : s.roots = root :: roots) (hseen : s.color root ≠ .white) :
    Inv g { s with roots } := by
  refine { h with
    roots_subset := fun a ha => h.roots_subset a (by rw [hroots]; exact List.mem_cons_of_mem _ ha)
    seen_of_not_root := ?_ }
  intro a ha hnot
  by_cases heq : a = root
  · exact heq ▸ hseen
  · refine h.seen_of_not_root a ha ?_
    rw [hroots, List.mem_cons]
    exact fun hor => hor.elim heq hnot

/-- **The shape is kept** by every move. -/
theorem Inv.move (hg : g.WellFormed) (h : Inv g s) (hmove : Move g s t) : Inv g t := by
  cases hmove with
  | skip root roots hstack hroots hseen => exact h.dropRoot hroots hseen
  | enter root roots hstack hroots hwhite =>
    -- The root leaves the list and enters the stack in one move.
    have hpath : s.path = [] := by rw [path, hstack]; rfl
    have hmem : root ∈ g.nodes := h.roots_subset root (by rw [hroots]; exact List.mem_cons_self)
    have hpush : Inv g (Search.push g s root) :=
      h.push hwhite hmem (by rw [hpath]; simp)
    exact hpush.dropRoot (s := Search.push g s root) hroots (by simp [Search.push])
  | leave u below hstack =>
    have hpath := path_of_stack hstack
    have hnodup := h.path_nodup
    have hchain := h.path_chain
    rw [hpath] at hnodup hchain
    obtain ⟨hnot, hrest⟩ := List.nodup_cons.mp hnodup
    refine { h with
      gray_iff := ?_
      path_nodup := hrest
      path_chain := hchain.of_cons
      ahead_leads := fun f hf => h.ahead_leads f (by rw [hstack]; exact List.mem_cons_of_mem _ hf)
      seen_of_not_root := ?_
      seen_mem := ?_ }
    · intro a
      change recolor s.color u .black a = .gray ↔ a ∈ below.map Frame.node
      by_cases heq : a = u
      · subst heq
        simpa using hnot
      · rw [recolor_of_ne heq, h.gray_iff a, hpath]
        simp [heq]
    · intro a ha hroot
      change recolor s.color u .black a ≠ .white
      by_cases heq : a = u
      · subst heq
        simp
      · rw [recolor_of_ne heq]
        exact h.seen_of_not_root a ha hroot
    · intro a ha
      by_cases heq : a = u
      · exact heq ▸ h.seen_mem u (by rw [(h.gray_iff u).mpr (by rw [hpath]; simp)]; simp)
      · change recolor s.color u .black a ≠ .white at ha
        rw [recolor_of_ne heq] at ha
        exact h.seen_mem a ha
  | report u v ahead below hstack hgray =>
    have hpath := path_of_stack hstack
    -- The stack is empty now, so no gray node may be left.
    refine { h with
      gray_iff := ?_
      path_nodup := List.nodup_nil
      path_chain := List.IsChain.nil
      ahead_leads := by simp
      seen_of_not_root := ?_
      seen_mem := ?_
      found_closes := ?_ }
    · intro a
      have hcolor := closeAll_apply s.color s.stack a
      change closeAll s.color s.stack a = .gray ↔ a ∈ []
      rw [hcolor]
      by_cases hmem : a ∈ s.stack.map Frame.node
      · simp [hmem]
      · simpa [hmem] using fun hc => hmem ((h.gray_iff a).mp hc)
    · intro a ha hroot
      change closeAll s.color s.stack a ≠ .white
      rw [closeAll_apply]
      split
      · simp
      · exact h.seen_of_not_root a ha hroot
    · intro a ha
      change closeAll s.color s.stack a ≠ .white at ha
      rw [closeAll_apply] at ha
      split at ha
      · next hmem =>
        refine h.seen_mem a ?_
        rw [(h.gray_iff a).mpr hmem]
        simp
      · exact h.seen_mem a ha
    · intro e he
      rcases List.mem_append.mp he with he | he
      · exact h.found_closes e he
      · -- The edge ends on the stack, and the stack is a way back to its beginning.
        rw [List.mem_singleton.mp he]
        have hchain := h.path_chain
        have hv := (h.gray_iff v).mp hgray
        rw [hpath] at hchain hv
        exact ⟨h.leads_top hstack, reaches_top hchain hv⟩
  | descend u v ahead below hstack hwhite =>
    have hlead := h.leads_top hstack
    have hadvance := h.advance hstack
    -- The edge has been looked at before its end comes on the stack.
    refine hadvance.push hwhite (hg.target_mem hlead) ?_
    intro w hw
    have hhead : (s.advance u ahead below).path.head? = some u := rfl
    rw [hhead] at hw
    cases hw
    exact hlead
  | pass u v ahead below hstack hblack => exact h.advance hstack

/-! ### What black means -/

/-- What has been looked at from the stack is black or above on the stack; `above` are the nodes
above the given part of it. -/
def Looked (g : Graph) (color : String → Color) : List String → List Frame → Prop
  | _, [] => True
  | above, f :: below =>
    (∀ v, g.Leads f.node v → v ∈ f.ahead ∨ color v = .black ∨ v ∈ above) ∧
      Looked g color (f.node :: above) below

/-- Black nodes stay black, and a node that leaves the stack becomes black. -/
theorem Looked.mono {color color' : String → Color} {above above' : List String}
    {stack : List Frame}
    (keep : ∀ v, color v = .black ∨ v ∈ above → color' v = .black ∨ v ∈ above')
    (h : Looked g color above stack) : Looked g color' above' stack := by
  induction stack generalizing above above' with
  | nil => trivial
  | cons f below ih =>
    refine ⟨fun v hv => (h.1 v hv).imp_right (keep v), ih ?_ h.2⟩
    intro v hv
    rcases hv with hblack | hmem
    · exact (keep v (.inl hblack)).imp_right (List.mem_cons_of_mem _)
    · rcases List.mem_cons.mp hmem with rfl | hmem
      · exact .inr List.mem_cons_self
      · exact (keep v (.inr hmem)).imp_right (List.mem_cons_of_mem _)

/-- **What has been explored.** The nodes that are given up count as if no edge began there. -/
structure Explored (g : Graph) (s : Search) : Prop where
  /-- From a black node only finitely many edges can be followed. -/
  black_acc : ∀ a, s.color a = .black → Acc (fun b a => g.Leads a b ∧ ¬ Lost g a) a
  /-- What has been looked at is black or further up. -/
  looked : Looked g s.color [] s.stack

theorem Explored.initial (g : Graph) : Explored g (start g) where
  black_acc := by simp [start]
  looked := trivial

/-- Looking at an edge to a black node, or to the node that comes on top next. -/
theorem Looked.advance {color color' : String → Color} {u v : String} {ahead : List String}
    {below : List Frame} {above : List String}
    (h : Looked g color [] (⟨u, v :: ahead⟩ :: below))
    (keep : ∀ w, color w = .black → color' w = .black)
    (hv : color' v = .black ∨ v ∈ above) : Looked g color' above (⟨u, ahead⟩ :: below) := by
  refine ⟨?_, h.2.mono ?_⟩
  · intro w hw
    rcases h.1 w hw with hmem | hblack | hmem
    · rcases List.mem_cons.mp hmem with rfl | hmem
      · exact .inr hv
      · exact .inl hmem
    · exact .inr (.inl (keep w hblack))
    · exact absurd hmem List.not_mem_nil
  · intro w hw
    rcases hw with hblack | hmem
    · exact .inl (keep w hblack)
    · rw [List.mem_singleton.mp hmem]
      exact .inr List.mem_cons_self

/-- Putting a white node on the stack makes no node black, and hides none. -/
theorem black_of_recolor_gray {color : String → Color} {v a : String}
    (h : recolor color v .gray a = .black) : color a = .black := by
  by_cases heq : a = v
  · subst heq
    simp at h
  · rwa [recolor_of_ne heq] at h

theorem black_recolor_gray {color : String → Color} {v a : String} (hv : color v = .white)
    (h : color a = .black) : recolor color v .gray a = .black := by
  have hne : a ≠ v := by
    rintro rfl
    rw [hv] at h
    cases h
  rw [recolor_of_ne hne]
  exact h

/-- All edges of a new node are ahead of it. -/
theorem looked_cons_successors {color : String → Color} {v : String} {stack : List Frame}
    (h : Looked g color [v] stack) : Looked g color [] (⟨v, g.successors v⟩ :: stack) :=
  ⟨fun _ hw => .inl (mem_successors_iff_leads.mpr hw), h⟩

/-- **Black keeps its meaning** with every move of the search. -/
theorem Explored.move (hs : Reached g s) (h : Explored g s) (hmove : Move g s t) :
    Explored g t := by
  cases hmove with
  | skip root roots hstack hroots hseen => exact ⟨h.black_acc, h.looked⟩
  | enter root roots hstack hroots hwhite =>
    refine ⟨fun a ha => h.black_acc a (black_of_recolor_gray ha), ?_⟩
    change Looked g _ [] (⟨root, g.successors root⟩ :: s.stack)
    rw [hstack]
    exact looked_cons_successors trivial
  | leave u below hstack =>
    have hlooked := h.looked
    rw [hstack] at hlooked
    -- No edge of the top node is ahead, and nothing is above it: all its successors are black.
    have hsucc : ∀ v, g.Leads u v → s.color v = .black := by
      intro v hv
      rcases hlooked.1 v hv with hmem | hblack | hmem
      · exact absurd hmem List.not_mem_nil
      · exact hblack
      · exact absurd hmem List.not_mem_nil
    constructor
    · intro a ha
      by_cases heq : a = u
      · subst heq
        exact Acc.intro a fun v hv => h.black_acc v (hsucc v hv.1)
      · change recolor s.color u .black a = .black at ha
        rw [recolor_of_ne heq] at ha
        exact h.black_acc a ha
    · refine hlooked.2.mono ?_
      intro v hv
      left
      change recolor s.color u .black v = .black
      by_cases heq : v = u
      · subst heq
        simp
      · rw [recolor_of_ne heq]
        exact hv.resolve_right fun hmem => heq (List.mem_singleton.mp hmem)
  | report u v ahead below hstack hgray =>
    -- What becomes black has been on the stack and is given up; the stack is empty now.
    refine ⟨fun a ha => ?_, trivial⟩
    change closeAll s.color s.stack a = .black at ha
    rw [closeAll_apply] at ha
    split at ha
    · next hmem =>
      have hlost : Lost g a := ⟨⟨u, v⟩, s, hs, ⟨ahead, below, hstack, hgray⟩, hmem⟩
      exact Acc.intro a fun b hb => absurd hlost hb.2
    · exact h.black_acc a ha
  | descend u v ahead below hstack hwhite =>
    have hlooked := h.looked
    rw [hstack] at hlooked
    refine ⟨fun a ha => h.black_acc a (black_of_recolor_gray ha), ?_⟩
    refine looked_cons_successors (hlooked.advance ?_ (.inr List.mem_cons_self))
    exact fun w hw => black_recolor_gray hwhite hw
  | pass u v ahead below hstack hblack =>
    have hlooked := h.looked
    rw [hstack] at hlooked
    exact ⟨h.black_acc, hlooked.advance (fun _ hw => hw) (.inl hblack)⟩

/-! ### The end of the search -/

/-- The edges and the visit that the white ones among some nodes still need. -/
def whiteLoad (g : Graph) (color : String → Color) (nodes : List String) : Nat :=
  (nodes.map fun a => if color a = .white then (g.successors a).length + 1 else 0).sum

/-- **The measure of the search.** -/
def toGo (g : Graph) (s : Search) : Nat :=
  s.roots.length + (s.stack.map fun f => f.ahead.length + 1).sum + whiteLoad g s.color g.nodes

/-- Nodes that become no whiter need no more. -/
theorem whiteLoad_mono {color color' : String → Color} {nodes : List String}
    (h : ∀ a ∈ nodes, color' a = .white → color a = .white) :
    whiteLoad g color' nodes ≤ whiteLoad g color nodes := by
  refine List.sum_le_sum fun a ha => ?_
  by_cases hwhite : color' a = .white
  · simp [hwhite, h a ha hwhite]
  · simp [hwhite]

/-- A node that is seen for the first time takes its edges and its visit with it. -/
theorem whiteLoad_recolor {color : String → Color} {v : String} {c : Color} {nodes : List String}
    (hnodup : nodes.Nodup) (hmem : v ∈ nodes) (hwhite : color v = .white) (hc : c ≠ .white) :
    whiteLoad g (recolor color v c) nodes + ((g.successors v).length + 1)
      ≤ whiteLoad g color nodes := by
  induction nodes with
  | nil => exact absurd hmem List.not_mem_nil
  | cons a nodes ih =>
    obtain ⟨hnot, hrest⟩ := List.nodup_cons.mp hnodup
    have hcons : ∀ color' : String → Color, whiteLoad g color' (a :: nodes)
        = (if color' a = .white then (g.successors a).length + 1 else 0)
          + whiteLoad g color' nodes := fun _ => by
      simp only [whiteLoad, List.map_cons, List.sum_cons]
    rw [hcons, hcons]
    by_cases heq : v = a
    · subst heq
      -- The node is not listed again, so the rest needs no more than before.
      have hle : whiteLoad g (recolor color v c) nodes ≤ whiteLoad g color nodes := by
        refine whiteLoad_mono fun b hb hb' => ?_
        have hne : b ≠ v := fun hbv => hnot (by rwa [hbv] at hb)
        rwa [recolor_of_ne hne] at hb'
      rw [recolor_self, if_neg hc, if_pos hwhite]
      omega
    · have hmem' : v ∈ nodes := (List.mem_cons.mp hmem).resolve_left heq
      have hle := ih hrest hmem'
      rw [recolor_of_ne (Ne.symm heq)]
      omega

/-- **Every move brings the search nearer to its end.** -/
theorem toGo_move (hg : g.WellFormed) (h : Inv g s) (hmove : Move g s t) :
    toGo g t < toGo g s := by
  cases hmove with
  | skip root roots hstack hroots hseen =>
    simp only [toGo, hroots, List.length_cons]
    omega
  | enter root roots hstack hroots hwhite =>
    -- The root goes, and its edges come from the load onto the stack.
    have hmem : root ∈ g.nodes := h.roots_subset root (by rw [hroots]; exact List.mem_cons_self)
    have hload := whiteLoad_recolor (g := g) hg.nodup hmem hwhite (c := .gray) (by simp)
    simp only [toGo, push, hroots, List.length_cons, List.map_cons, List.sum_cons]
    omega
  | leave u below hstack =>
    -- The top node goes, and no other one becomes white.
    have hload : whiteLoad g (recolor s.color u .black) g.nodes ≤ whiteLoad g s.color g.nodes := by
      refine whiteLoad_mono fun a _ ha => ?_
      by_cases heq : a = u
      · subst heq
        simp at ha
      · rwa [recolor_of_ne heq] at ha
    simp only [toGo, hstack, List.map_cons, List.sum_cons, List.length_nil]
    omega
  | report u v ahead below hstack hgray =>
    -- The whole stack goes, and that is at least one node.
    have hload : whiteLoad g (closeAll s.color s.stack) g.nodes ≤ whiteLoad g s.color g.nodes := by
      refine whiteLoad_mono fun a _ ha => ?_
      rw [closeAll_apply] at ha
      split at ha
      · cases ha
      · exact ha
    have hstackSum : 0 < (s.stack.map fun f => f.ahead.length + 1).sum := by
      rw [hstack, List.map_cons, List.sum_cons]
      omega
    simp only [toGo, List.map_nil, List.sum_nil]
    omega
  | descend u v ahead below hstack hwhite =>
    -- The edges of the new node were part of the load and now lie ahead of it.
    have hlead := h.leads_top hstack
    have hload := whiteLoad_recolor (g := g) hg.nodup (hg.target_mem hlead) hwhite (c := .gray)
      (by simp)
    simp only [toGo, push, Search.advance, hstack, List.map_cons, List.sum_cons, List.length_cons]
    omega
  | pass u v ahead below hstack hblack =>
    simp only [toGo, Search.advance, hstack, List.map_cons, List.sum_cons, List.length_cons]
    omega

/-- At the start every node needs its visit, and every edge is looked at once. -/
theorem whiteLoad_white_le (hg : g.WellFormed) :
    whiteLoad g (fun _ => .white) g.nodes ≤ g.nodes.length + g.edges.length := by
  have hedges := sum_length_successors_le hg.nodup
  have hload : whiteLoad g (fun _ => .white) g.nodes
      = (g.nodes.map fun a => (g.successors a).length).sum + g.nodes.length := by
    simp only [whiteLoad, if_true, List.sum_map_add]
    simp
  omega

/-- The bound of the search is as large as the measure at its start. -/
theorem toGo_start_le (hg : g.WellFormed) : toGo g (start g) ≤ g.searchBound := by
  have hload := whiteLoad_white_le hg
  simp only [toGo, start, List.map_nil, List.sum_nil, searchBound]
  omega

end Search

/-- The state in which the search for cycles ends. -/
def searchEnd (g : Graph) : Search := runSteps (Search.step g) g.searchBound (Search.start g)

/-- **The search comes to its end**: no node is on the stack, all roots have been taken, the shape
has been kept, and black has kept its meaning. -/
theorem search_spec (hg : g.WellFormed) :
    Search.Reached g g.searchEnd ∧ Search.Inv g g.searchEnd ∧ Search.Explored g g.searchEnd ∧
      Search.step g g.searchEnd = none := by
  -- The step lemma of `runSteps_spec`, with both invariants at once.
  have keep : ∀ s t : Search,
      (Search.Reached g s ∧ Search.Inv g s ∧ Search.Explored g s) →
      Search.step g s = some t →
      (Search.Reached g t ∧ Search.Inv g t ∧ Search.Explored g t) ∧
        Search.toGo g t < Search.toGo g s := by
    rintro s t ⟨hreached, hinv, hexplored⟩ hstep
    have hmove := Search.move_of_step hstep
    exact ⟨⟨hreached.tail hstep, hinv.move hg hmove, hexplored.move hreached hmove⟩,
      Search.toGo_move hg hinv hmove⟩
  obtain ⟨⟨hreached, hinv, hexplored⟩, hend⟩ := runSteps_spec keep g.searchBound (Search.start g)
    ⟨ReflTransGen.refl, .initial g, .initial g⟩ (Search.toGo_start_le hg)
  exact ⟨hreached, hinv, hexplored, hend⟩

end WorkflowPolicy.Graph
