import WorkflowPolicy.Graph.Topological
import WorkflowPolicy.Proofs.Graph.Components

/-!
# Topological orders

The walk of `Graph.topologicalOrder` has one stack, on which a node may stand several times. Its
first visit puts its successors above it, and it is left when it comes on top again; in between the
node is *open* (`Visit.Open`). What stands above the place of an open node can be reached from it,
and its successors stand there until they have been left (`Visit.Ordered`). So on a graph without a
cycle a node is left after all its successors. An open successor would be on a cycle with it, and
this is the only use that is made of the premise.

Without it, the walk still leaves every node once (`Visit.Inv`). So all its edges lead forward in
the list exactly if the graph has no cycle. The search against the edges finds out whether they do
(`retraces_iff_leadsForward`): a list is given exactly when the search for cycles reports nothing
(`execution_order_iff_acyclic`).
-/

namespace WorkflowPolicy

open Relation (TransGen ReflTransGen)

namespace Graph

variable {g : Graph}

/-! ### Lists in which every edge leads forward -/

/-- Numbers that rise along every edge leave no room for a cycle. -/
theorem not_hasCycle_of_rank {r : String → String → Prop} (rank : String → Nat)
    (h : ∀ a b, r a b → rank a < rank b) : ¬ HasCycle r := by
  rintro ⟨a, hcycle⟩
  have hrise : ∀ b, TransGen r a b → rank a < rank b := by
    intro b hb
    induction hb with
    | single hab => exact h _ _ hab
    | tail _ hbc ih => exact lt_trans ih (h _ _ hbc)
  exact lt_irrefl _ (hrise a hcycle)

/-- Does every edge of the graph lead from a node of the list to a later one? -/
def leadsForward (g : Graph) : List String → Bool
  | [] => true
  | name :: later =>
    (g.edges.all fun e => e.target != name || !later.contains e.source && e.source != name) &&
      leadsForward g later

/-- The first node of a list that passes the check has no edge into it from a later node, or from
itself. -/
theorem leadsForward_cons_iff {name : String} {later : List String} :
    g.leadsForward (name :: later) = true ↔
      ((∀ b ∈ later, ¬ g.Leads b name) ∧ ¬ g.Leads name name) ∧ g.leadsForward later = true := by
  have hhere : (g.edges.all fun e =>
      e.target != name || !later.contains e.source && e.source != name) = true ↔
        (∀ b ∈ later, ¬ g.Leads b name) ∧ ¬ g.Leads name name := by
    simp only [List.all_eq_true, Bool.or_eq_true, Bool.and_eq_true, bne_iff_ne, ne_eq,
      Bool.not_eq_true', List.contains_eq_mem, decide_eq_false_iff_not]
    constructor
    · intro hall
      refine ⟨fun b hb hlead => ?_, fun hlead => ?_⟩
      · exact ((hall _ hlead).resolve_left (by simp)).1 hb
      · exact ((hall _ hlead).resolve_left (by simp)).2 rfl
    · rintro ⟨hlater, hself⟩ ⟨source, target⟩ he
      -- Only the edges into the node are checked here.
      by_cases heq : target = name
      · subst heq
        exact .inr ⟨fun hmem => hlater source hmem he,
          fun (hloop : source = target) => hself (hloop ▸ he)⟩
      · exact .inl heq
  rw [leadsForward, Bool.and_eq_true, hhere]

/-- **The check of a list**: no edge leads from a later node of the list to an earlier one, or from
a node to itself. -/
theorem leadsForward_iff {order : List String} : g.leadsForward order = true ↔
    order.Pairwise (fun a b => ¬ g.Leads b a) ∧ ∀ a ∈ order, ¬ g.Leads a a := by
  induction order with
  | nil => simp [leadsForward]
  | cons name later ih =>
    rw [leadsForward_cons_iff, ih, List.pairwise_cons, List.forall_mem_cons]
    tauto

/-- In a list that passes the check an edge leads to a later place. -/
theorem idxOf_lt_of_leadsForward {order : List String} (h : g.leadsForward order = true)
    {a b : String} (ha : a ∈ order) (hb : b ∈ order) (hlead : g.Leads a b) :
    order.idxOf a < order.idxOf b := by
  obtain ⟨hpairs, hself⟩ := leadsForward_iff.mp h
  rcases Nat.lt_trichotomy (order.idxOf a) (order.idxOf b) with hlt | heq | hgt
  · exact hlt
  · obtain rfl := (List.idxOf_inj ha).mp heq
    exact absurd hlead (hself a ha)
  · have hback := List.pairwise_iff_getElem.mp hpairs _ _ (List.idxOf_lt_length_of_mem hb)
      (List.idxOf_lt_length_of_mem ha) hgt
    rw [List.getElem_idxOf, List.getElem_idxOf] at hback
    exact absurd hlead hback

/-! ### The search against the edges -/

theorem mem_predecessors {a b : String} : a ∈ g.predecessors b ↔ g.Leads a b := by
  simp only [predecessors, List.mem_map, List.mem_filter, beq_iff_eq]
  constructor
  · rintro ⟨⟨source, target⟩, ⟨he, rfl⟩, rfl⟩
    exact he
  · intro hlead
    exact ⟨⟨a, b⟩, ⟨hlead, rfl⟩, rfl⟩

theorem hasLoop_eq_false_iff : g.hasLoop = false ↔ ∀ a, ¬ g.Leads a a := by
  simp only [hasLoop, List.any_eq_false, beq_iff_eq]
  constructor
  · exact fun h a hlead => h ⟨a, a⟩ hlead rfl
  · rintro h ⟨source, target⟩ he (heq : source = target)
    subst heq
    exact h source he

/-- The search against the edges finds nothing exactly if all nodes on its stack have been seen. -/
theorem nextBack_eq_none_iff {seen stack : List String} :
    g.nextBack seen stack = none ↔ ∀ a ∈ stack, a ∈ seen := by
  induction stack with
  | nil => simp [nextBack]
  | cons top below ih =>
    rw [nextBack, List.forall_mem_cons]
    by_cases htop : top ∈ seen
    · rw [if_pos (List.contains_iff_mem.mpr htop), ih]
      exact (and_iff_right htop).symm
    · rw [if_neg fun h => htop (List.contains_iff_mem.mp h)]
      exact iff_of_false (by simp) fun h => htop h.1

/-- From a new node the search finds no second one exactly if all its predecessors have been seen or
are the node itself. -/
theorem retraces_cons_iff {name : String} {seen later : List String} (hnew : name ∉ seen) :
    g.retraces seen (name :: later) = true ↔
      (∀ a, g.Leads a name → a ∈ name :: seen) ∧ g.retraces (name :: seen) later = true := by
  have hfirst : g.nextBack seen [name] = some (name :: seen,
      (g.predecessors name).filter (!(name :: seen).contains ·) ++ []) := by
    rw [nextBack, if_neg fun h => hnew (List.contains_iff_mem.mp h)]
  have hsecond : (g.nextBack (name :: seen)
      ((g.predecessors name).filter (!(name :: seen).contains ·) ++ [])).isNone = true ↔
        ∀ a, g.Leads a name → a ∈ name :: seen := by
    simp only [Option.isNone_iff_eq_none, nextBack_eq_none_iff, List.append_nil, List.mem_filter,
      mem_predecessors, Bool.not_eq_true', List.contains_eq_mem, decide_eq_false_iff_not]
    -- The stack holds only nodes that have not been seen, so none may be on it.
    exact ⟨fun h a hlead => by_contra fun hnot => hnot (h a ⟨hlead, hnot⟩),
      fun h a ha => h a ha.1⟩
  rw [retraces, hfirst]
  simp only [Bool.and_eq_true, hsecond]

/-- **Against the edges, the same answer.** The search from the nodes of a list finds no second node
exactly if every edge leads to a later place, as long as no edge leads from a node to itself, and
every edge into the list comes from the list or from what has been seen. -/
theorem retraces_iff_leadsForward (hloop : ∀ a, ¬ g.Leads a a) {seen order : List String}
    (hnodup : order.Nodup) (hnew : ∀ a ∈ order, a ∉ seen)
    (hsource : ∀ a, ∀ b ∈ order, g.Leads a b → a ∈ seen ∨ a ∈ order) :
    g.retraces seen order = true ↔ g.leadsForward order = true := by
  induction order generalizing seen with
  | nil => simp [retraces, leadsForward]
  | cons name later ih =>
    obtain ⟨hfresh, hlater⟩ := List.nodup_cons.mp hnodup
    have hrest : g.retraces (name :: seen) later = true ↔ g.leadsForward later = true := by
      refine ih hlater (fun a ha => ?_) fun a b hb hlead => ?_
      · rw [List.mem_cons, not_or]
        exact ⟨fun heq => hfresh (heq ▸ ha), hnew a (List.mem_cons_of_mem _ ha)⟩
      · rcases hsource a b (List.mem_cons_of_mem _ hb) hlead with hseen | horder
        · exact .inl (List.mem_cons_of_mem _ hseen)
        · rcases List.mem_cons.mp horder with rfl | hafter
          · exact .inl List.mem_cons_self
          · exact .inr hafter
    -- What comes from the list and has not been seen by now is a later node.
    have hhere : (∀ a, g.Leads a name → a ∈ name :: seen) ↔
        (∀ b ∈ later, ¬ g.Leads b name) ∧ ¬ g.Leads name name := by
      constructor
      · refine fun h => ⟨fun b hb hlead => ?_, hloop name⟩
        rcases List.mem_cons.mp (h b hlead) with rfl | hseen
        · exact hfresh hb
        · exact hnew b (List.mem_cons_of_mem _ hb) hseen
      · rintro ⟨hback, -⟩ a hlead
        rcases hsource a name List.mem_cons_self hlead with hseen | horder
        · exact List.mem_cons_of_mem _ hseen
        · rcases List.mem_cons.mp horder with rfl | hafter
          · exact List.mem_cons_self
          · exact absurd hlead (hback a hafter)
    rw [retraces_cons_iff (hnew name List.mem_cons_self), leadsForward_cons_iff, hrest, hhere]

/-! ### Lists with all successors behind -/

/-- **All successors come behind**: in the list they stand behind each of its nodes. -/
def SuccessorsBehind (g : Graph) : List String → Prop
  | [] => True
  | name :: later => (∀ v, g.Leads name v → v ∈ later) ∧ SuccessorsBehind g later

theorem SuccessorsBehind.mem_of_leads {order : List String} (h : SuccessorsBehind g order)
    {a v : String} (ha : a ∈ order) (hlead : g.Leads a v) : v ∈ order := by
  induction order with
  | nil => cases ha
  | cons name later ih =>
    rcases List.mem_cons.mp ha with rfl | ha
    · exact List.mem_cons_of_mem _ (h.1 v hlead)
    · exact List.mem_cons_of_mem _ (ih h.2 ha)

/-- A list of different nodes with all successors behind passes the check. -/
theorem SuccessorsBehind.leadsForward {order : List String} (h : SuccessorsBehind g order)
    (hnodup : order.Nodup) : g.leadsForward order = true := by
  rw [leadsForward_iff]
  induction order with
  | nil => exact ⟨.nil, by simp⟩
  | cons name later ih =>
    obtain ⟨hfresh, hlater⟩ := List.nodup_cons.mp hnodup
    obtain ⟨hpairs, hself⟩ := ih h.2 hlater
    rw [List.pairwise_cons, List.forall_mem_cons]
    -- What an edge from a later node leads to is later, and the first node is not.
    refine ⟨⟨fun b hb hlead => hfresh (h.2.mem_of_leads hb hlead), hpairs⟩, ?_, hself⟩
    exact fun hlead => hfresh (h.1 name hlead)

namespace Visit

variable {s t : Visit} {x top v : String} {above below : List String}

/-! ### What a step can do -/

/-- The successors that have not been seen, if the node itself counts as seen. -/
def fresh (g : Graph) (s : Visit) (top : String) : List String :=
  (g.successors top).filter (!(top :: s.seen).contains ·)

theorem mem_fresh : v ∈ fresh g s top ↔ g.Leads top v ∧ v ≠ top ∧ v ∉ s.seen := by
  simp only [fresh, List.mem_filter, mem_successors_iff_leads, Bool.not_eq_true',
    List.contains_eq_mem, decide_eq_false_iff_not, List.mem_cons, not_or, ne_eq]

theorem length_fresh_le : (fresh g s top).length ≤ (g.successors top).length :=
  List.length_filter_le _ _

/-- The walk after the first visit of a node. -/
def look (g : Graph) (s : Visit) (top : String) : Visit :=
  { s with seen := top :: s.seen, stack := fresh g s top ++ s.stack }

/-- **The moves of the walk.** -/
inductive Move (g : Graph) (s : Visit) : Visit → Prop
  /-- The next root has been seen before. -/
  | skip (root : String) (roots : List String) (hstack : s.stack = [])
      (hroots : s.roots = root :: roots) (hseen : root ∈ s.seen) : Move g s { s with roots }
  /-- The next root is put on the stack. -/
  | enter (root : String) (roots : List String) (hstack : s.stack = [])
      (hroots : s.roots = root :: roots) (hunseen : root ∉ s.seen) :
      Move g s { s with roots, stack := [root] }
  /-- The top node is seen for the first time. -/
  | look (top : String) (below : List String) (hstack : s.stack = top :: below)
      (hunseen : top ∉ s.seen) : Move g s (look g s top)
  /-- The top node is left. -/
  | leave (top : String) (below : List String) (hstack : s.stack = top :: below)
      (hseen : top ∈ s.seen) (hopen : top ∉ s.finished) :
      Move g s { s with stack := below, finished := top :: s.finished }
  /-- The top node has been left before. -/
  | drop (top : String) (below : List String) (hstack : s.stack = top :: below)
      (hseen : top ∈ s.seen) (hdone : top ∈ s.finished) : Move g s { s with stack := below }

theorem move_of_step (h : step g s = some t) : Move g s t := by
  unfold step at h
  split at h
  · next hstack =>
    split at h
    · cases h
    · next root roots hroots =>
      split at h
      · next hseen =>
        cases h
        exact .skip root roots hstack hroots (by simpa using hseen)
      · next hunseen =>
        cases h
        exact .enter root roots hstack hroots (by simpa using hunseen)
  · next top below hstack =>
    split at h
    · next hseen =>
      have hseen : top ∈ s.seen := by simpa using hseen
      by_cases hdone : top ∈ s.finished
      · rw [if_pos (by simpa using hdone)] at h
        cases h
        exact .drop top below hstack hseen hdone
      · rw [if_neg (by simpa using hdone)] at h
        cases h
        exact .leave top below hstack hseen hdone
    · next hunseen =>
      cases h
      exact .look top below hstack (by simpa using hunseen)

/-- The walk is over only when no node is on the stack and no root is to come. -/
theorem eq_nil_of_step_eq_none (h : step g s = none) : s.stack = [] ∧ s.roots = [] := by
  unfold step at h
  split at h
  · next hstack =>
    split at h
    · next hroots => exact ⟨hstack, hroots⟩
    · split at h <;> cases h
  · split at h <;> cases h

/-! ### Every node is left once -/

/-- **The invariant of the walk**, on all graphs. -/
structure Inv (g : Graph) (s : Visit) : Prop where
  /-- The roots are nodes. -/
  roots_subset : ∀ a ∈ s.roots, a ∈ g.nodes
  /-- Only nodes are on the stack. -/
  stack_subset : ∀ a ∈ s.stack, a ∈ g.nodes
  /-- A node that is no root to come has been seen, or it is on the stack and will be. -/
  covered : ∀ a ∈ g.nodes, a ∈ s.roots ∨ a ∈ s.stack ∨ a ∈ s.seen
  /-- A node that has been seen has been left, or it is on the stack and will be. -/
  left_or_on_stack : ∀ a ∈ s.seen, a ∈ s.stack ∨ a ∈ s.finished
  /-- Only nodes have been left. -/
  finished_subset : ∀ a ∈ s.finished, a ∈ g.nodes
  /-- No node has been left twice. -/
  finished_nodup : s.finished.Nodup

theorem Inv.initial (g : Graph) : Inv g (start g) where
  roots_subset := fun _ ha => ha
  stack_subset := by simp [start]
  covered := fun _ ha => .inl ha
  left_or_on_stack := by simp [start]
  finished_subset := by simp [start]
  finished_nodup := List.nodup_nil

/-- Taking a node off the stack keeps the invariant, if it has been seen and counts as left. -/
theorem Inv.pop {finished : List String} (h : Inv g s) (hstack : s.stack = top :: below)
    (hseen : top ∈ s.seen) (hkept : s.finished ⊆ finished) (hdone : top ∈ finished)
    (hsubset : ∀ a ∈ finished, a ∈ g.nodes) (hnodup : finished.Nodup) :
    Inv g { s with stack := below, finished } := by
  have hbelow : ∀ a ∈ s.stack, a = top ∨ a ∈ below := fun a ha => by
    rwa [hstack, List.mem_cons] at ha
  refine { h with
    stack_subset := fun a ha => h.stack_subset a (by rw [hstack]; exact List.mem_cons_of_mem _ ha)
    covered := ?_
    left_or_on_stack := ?_
    finished_subset := hsubset
    finished_nodup := hnodup }
  · intro a ha
    rcases h.covered a ha with hroot | hon | hseen'
    · exact .inl hroot
    · rcases hbelow a hon with rfl | hon
      · exact .inr (.inr hseen)
      · exact .inr (.inl hon)
    · exact .inr (.inr hseen')
  · intro a ha
    rcases h.left_or_on_stack a ha with hon | hleft
    · rcases hbelow a hon with rfl | hon
      · exact .inr hdone
      · exact .inl hon
    · exact .inr (hkept hleft)

/-- **Every move keeps the invariant.** -/
theorem Inv.move (hg : g.WellFormed) (h : Inv g s) (hmove : Move g s t) : Inv g t := by
  cases hmove with
  | skip root roots hstack hroots hseen =>
    refine { h with
      roots_subset := fun a ha => h.roots_subset a (by rw [hroots]; exact List.mem_cons_of_mem _ ha)
      covered := ?_ }
    intro a ha
    rcases h.covered a ha with hroot | hrest
    · rw [hroots, List.mem_cons] at hroot
      rcases hroot with rfl | hroot
      · exact .inr (.inr hseen)
      · exact .inl hroot
    · exact .inr hrest
  | enter root roots hstack hroots hunseen =>
    refine { h with
      roots_subset := fun a ha => h.roots_subset a (by rw [hroots]; exact List.mem_cons_of_mem _ ha)
      stack_subset := ?_
      covered := ?_
      left_or_on_stack := ?_ }
    · intro a ha
      rw [List.mem_singleton.mp ha]
      exact h.roots_subset root (by rw [hroots]; exact List.mem_cons_self)
    · intro a ha
      -- The root that is no longer to come is on the stack, which was empty.
      rcases h.covered a ha with hroot | hon | hseen
      · rw [hroots, List.mem_cons] at hroot
        rcases hroot with rfl | hroot
        · exact .inr (.inl List.mem_cons_self)
        · exact .inl hroot
      · rw [hstack] at hon
        cases hon
      · exact .inr (.inr hseen)
    · intro a ha
      rcases h.left_or_on_stack a ha with hon | hleft
      · rw [hstack] at hon
        cases hon
      · exact .inr hleft
  | look top below hstack hunseen =>
    have htop : top ∈ s.stack := by
      rw [hstack]
      exact List.mem_cons_self
    -- The stack only grows, and the node that is seen now stays on it.
    refine { h with stack_subset := ?_, covered := ?_, left_or_on_stack := ?_ }
    · intro a ha
      rcases List.mem_append.mp ha with hfresh | hon
      · exact hg.target_mem (mem_fresh.mp hfresh).1
      · exact h.stack_subset a hon
    · intro a ha
      exact (h.covered a ha).imp_right (Or.imp (List.mem_append_right _) (List.mem_cons_of_mem _))
    · intro a ha
      rcases List.mem_cons.mp ha with rfl | ha
      · exact .inl (List.mem_append_right _ htop)
      · exact (h.left_or_on_stack a ha).imp_left (List.mem_append_right _)
  | leave top below hstack hseen hopen =>
    refine h.pop hstack hseen (List.subset_cons_self _ _) List.mem_cons_self ?_
      (List.nodup_cons.mpr ⟨hopen, h.finished_nodup⟩)
    intro a ha
    rcases List.mem_cons.mp ha with rfl | ha
    · exact h.stack_subset a (by rw [hstack]; exact List.mem_cons_self)
    · exact h.finished_subset a ha
  | drop top below hstack hseen hdone =>
    exact h.pop hstack hseen (List.Subset.refl _) hdone h.finished_subset h.finished_nodup

/-! ### The end of the walk -/

/-- A colouring in which the nodes that have been seen are black. -/
def shade (seen : List String) : String → Color := fun a => if a ∈ seen then .black else .white

/-- **The measure of the walk.** A root takes a step and may put itself on the stack. -/
def toGo (g : Graph) (s : Visit) : Nat :=
  2 * s.roots.length + s.stack.length + Search.whiteLoad g (shade s.seen) g.nodes

theorem shade_cons (top : String) (seen : List String) :
    shade (top :: seen) = recolor (shade seen) top .black := by
  funext a
  by_cases heq : a = top
  · subst heq
    simp [shade]
  · rw [Search.recolor_of_ne heq]
    simp [shade, heq]

/-- **Every move brings the walk nearer to its end.** -/
theorem toGo_move (hg : g.WellFormed) (h : Inv g s) (hmove : Move g s t) : toGo g t < toGo g s := by
  cases hmove with
  | skip root roots hstack hroots hseen =>
    simp only [toGo, hroots, List.length_cons]
    omega
  | enter root roots hstack hroots hunseen =>
    simp only [toGo, hstack, hroots, List.length_cons, List.length_nil]
    omega
  | look top below hstack hunseen =>
    -- At most all edges of the node come from the load onto the stack, and its visit goes.
    have hmem : top ∈ g.nodes := h.stack_subset top (by rw [hstack]; exact List.mem_cons_self)
    have hwhite : shade s.seen top = .white := if_neg hunseen
    have hload := Search.whiteLoad_recolor (g := g) hg.nodup hmem hwhite (c := .black) (by simp)
    have hfresh : (fresh g s top).length ≤ (g.successors top).length := length_fresh_le
    simp only [toGo, Visit.look, List.length_append, shade_cons]
    omega
  | leave top below hstack hseen hopen =>
    simp only [toGo, hstack, List.length_cons]
    omega
  | drop top below hstack hseen hdone =>
    simp only [toGo, hstack, List.length_cons]
    omega

/-- The bound of the walk is as large as the measure at its start. -/
theorem toGo_start_le (hg : g.WellFormed) : toGo g (start g) ≤ g.visitBound := by
  have hload := Search.whiteLoad_white_le hg
  have hshade : shade [] = fun _ => .white := by
    funext a
    simp [shade]
  simp only [toGo, start, hshade, List.length_nil, visitBound]
  omega

/-! ### Successors are left first -/

/-- **An open node**: it has been seen and not left. Its place on the stack is the highest one, and
`above` stands over it. -/
structure Open (s : Visit) (x : String) (above : List String) : Prop where
  place : ∃ below, s.stack = above ++ x :: below
  seen : x ∈ s.seen
  unfinished : x ∉ s.finished
  highest : x ∉ above

/-- A node that has been seen and not left is open. -/
theorem Inv.exists_open (h : Inv g s) (hseen : x ∈ s.seen) (hopen : x ∉ s.finished) :
    ∃ above, s.Open x above := by
  have hon : x ∈ s.stack := (h.left_or_on_stack x hseen).resolve_right hopen
  obtain ⟨above, below, hstack, hhighest⟩ := List.eq_append_cons_of_mem hon
  exact ⟨above, ⟨below, hstack⟩, hseen, hopen, hhighest⟩

/-- Before the top node was taken off, it stood over the open node. -/
theorem Open.of_pop {finished : List String} (hstack : s.stack = top :: below)
    (hkept : s.finished ⊆ finished) (hdone : top ∈ finished)
    (h : Open { s with stack := below, finished } x above) : s.Open x (top :: above) := by
  have hne : x ≠ top := by
    rintro rfl
    exact h.unfinished hdone
  obtain ⟨rest, hrest⟩ := h.place
  refine ⟨⟨rest, ?_⟩, h.seen, fun hmem => h.unfinished (hkept hmem), ?_⟩
  · rw [hstack, List.cons_append]
    exact congrArg (top :: ·) hrest
  · rw [List.mem_cons, not_or]
    exact ⟨hne, h.highest⟩

/-- After the first visit of the top node the open nodes are this one and those that were open. -/
theorem Open.of_look (hstack : s.stack = top :: below) (h : (look g s top).Open x above) :
    (x = top ∧ above = fresh g s top) ∨
      ∃ higher, above = fresh g s top ++ top :: higher ∧ s.Open x (top :: higher) := by
  obtain ⟨rest, hrest⟩ := h.place
  -- An open node has been seen, so its place is not among the fresh ones.
  have hnotFresh : x ∉ fresh g s top := by
    intro hmem
    obtain ⟨-, hne, hunseen⟩ := mem_fresh.mp hmem
    exact hunseen ((List.mem_cons.mp h.seen).resolve_left hne)
  have hparts : fresh g s top ++ top :: below = above ++ x :: rest := by
    rw [← hstack]
    exact hrest
  -- The place is the top node itself, or below it, or among the fresh ones.
  rcases List.append_eq_append_iff.mp hparts with ⟨middle, habove, hbelow⟩ |
    ⟨middle, hfresh, hbelow⟩
  · cases middle with
    | nil =>
      obtain ⟨rfl, -⟩ := List.cons.inj hbelow
      exact .inl ⟨rfl, by rw [habove, List.append_nil]⟩
    | cons first higher =>
      rw [List.cons_append] at hbelow
      obtain ⟨rfl, hbelow⟩ := List.cons.inj hbelow
      have hnot : x ∉ top :: higher := fun hmem =>
        h.highest (by rw [habove]; exact List.mem_append_right _ hmem)
      have hseen : x ∈ s.seen :=
        (List.mem_cons.mp h.seen).resolve_left fun heq => hnot (heq ▸ List.mem_cons_self)
      refine .inr ⟨higher, habove, ⟨rest, ?_⟩, hseen, h.unfinished, hnot⟩
      rw [hstack, List.cons_append, hbelow]
  · cases middle with
    | nil =>
      obtain ⟨rfl, -⟩ := List.cons.inj hbelow
      exact .inl ⟨rfl, by rw [hfresh, List.append_nil]⟩
    | cons first higher =>
      obtain ⟨rfl, -⟩ := List.cons.inj hbelow
      exact absurd (by rw [hfresh]; exact List.mem_append_right _ List.mem_cons_self) hnotFresh

/-- **The invariant of the walk on a graph without a cycle.** -/
structure Ordered (g : Graph) (s : Visit) : Prop where
  /-- What stands above an open node can be reached from it. -/
  reaches : ∀ x above, s.Open x above → ∀ y ∈ above, TransGen g.Leads x y
  /-- The successors of an open node stand above it until they have been left. -/
  pending : ∀ x above, s.Open x above → ∀ v, g.Leads x v → v ∈ above ∨ v ∈ s.finished
  /-- A node is left after all its successors. -/
  behind : SuccessorsBehind g s.finished

theorem Ordered.initial (g : Graph) : Ordered g (start g) where
  reaches := fun _ _ hopen => absurd hopen.seen List.not_mem_nil
  pending := fun _ _ hopen => absurd hopen.seen List.not_mem_nil
  behind := trivial

/-- Taking a node off the stack keeps the order, if it counts as left after all its successors. -/
theorem Ordered.pop {finished : List String} (h : Ordered g s) (hstack : s.stack = top :: below)
    (hkept : s.finished ⊆ finished) (hdone : top ∈ finished)
    (hbehind : SuccessorsBehind g finished) :
    Ordered g { s with stack := below, finished } := by
  have hbefore : ∀ x above, Open { s with stack := below, finished } x above →
      s.Open x (top :: above) := fun x above => Open.of_pop hstack hkept hdone
  refine ⟨?_, ?_, hbehind⟩
  · intro x above hopen y hy
    exact h.reaches x _ (hbefore x above hopen) y (List.mem_cons_of_mem _ hy)
  · intro x above hopen v hlead
    -- The only successor that is no longer above is the node that has been taken off.
    rcases h.pending x _ (hbefore x above hopen) v hlead with habove | hleft
    · rcases List.mem_cons.mp habove with rfl | habove
      · exact .inr hdone
      · exact .inl habove
    · exact .inr (hkept hleft)

/-- The first visit of a node keeps the order: its successors are put above it or have been left. -/
theorem Ordered.look (hacyclic : ¬ HasCycle g.Leads) (hinv : Inv g s) (h : Ordered g s)
    (hstack : s.stack = top :: below) : Ordered g (look g s top) := by
  -- An open successor would be below, and from there the top node can be reached.
  have hsuccessor : ∀ v, g.Leads top v → v ∈ fresh g s top ∨ v ∈ s.finished := by
    intro v hlead
    have hne : v ≠ top := by
      rintro rfl
      exact hacyclic ⟨v, TransGen.single hlead⟩
    by_cases hseen : v ∈ s.seen
    · refine .inr (by_contra fun hopen => ?_)
      obtain ⟨above, hv⟩ := hinv.exists_open hseen hopen
      obtain ⟨rest, hrest⟩ := hv.place
      have htop : top ∈ above := by
        cases above with
        | nil =>
          rw [hstack] at hrest
          exact absurd (List.cons.inj hrest).1.symm hne
        | cons first higher =>
          rw [hstack, List.cons_append] at hrest
          rw [(List.cons.inj hrest).1]
          exact List.mem_cons_self
      exact hacyclic ⟨v, (h.reaches v above hv top htop).tail hlead⟩
    · exact .inl (mem_fresh.mpr ⟨hlead, hne, hseen⟩)
  refine ⟨?_, ?_, h.behind⟩
  · intro x above hopen y hy
    rcases hopen.of_look hstack with ⟨rfl, rfl⟩ | ⟨higher, rfl, hbefore⟩
    · exact TransGen.single (mem_fresh.mp hy).1
    · have habove := h.reaches x _ hbefore
      rcases List.mem_append.mp hy with hfresh | hy
      · -- A fresh node is a successor of the top one, which stands above the open node.
        exact (habove top List.mem_cons_self).tail (mem_fresh.mp hfresh).1
      · exact habove y hy
  · intro x above hopen v hlead
    rcases hopen.of_look hstack with ⟨rfl, rfl⟩ | ⟨higher, rfl, hbefore⟩
    · exact hsuccessor v hlead
    · exact (h.pending x _ hbefore v hlead).imp_left (List.mem_append_right _)

/-- **Every move keeps the order**, if there is no cycle. -/
theorem Ordered.move (hacyclic : ¬ HasCycle g.Leads) (hinv : Inv g s) (h : Ordered g s)
    (hmove : Move g s t) : Ordered g t := by
  cases hmove with
  | skip root roots hstack hroots hseen =>
    have hbefore : ∀ x above, Open { s with roots } x above → s.Open x above :=
      fun x above hopen => ⟨hopen.place, hopen.seen, hopen.unfinished, hopen.highest⟩
    exact ⟨fun x above hopen => h.reaches x above (hbefore x above hopen),
      fun x above hopen => h.pending x above (hbefore x above hopen), h.behind⟩
  | enter root roots hstack hroots hunseen =>
    -- The only node on the stack has not been seen, so no node is open.
    have hnone : ∀ x above, ¬ Open { s with roots, stack := [root] } x above := by
      rintro x above ⟨⟨rest, hrest⟩, hseen, -, -⟩
      have hx : x ∈ [root] := by
        rw [show [root] = above ++ x :: rest from hrest]
        exact List.mem_append_right _ List.mem_cons_self
      exact hunseen (List.mem_singleton.mp hx ▸ hseen)
    exact ⟨fun x above hopen => absurd hopen (hnone x above),
      fun x above hopen => absurd hopen (hnone x above), h.behind⟩
  | look top below hstack hunseen => exact h.look hacyclic hinv hstack
  | leave top below hstack hseen hopen =>
    -- Nothing stands above the top node, so all its successors have been left.
    have htop : s.Open top [] := ⟨⟨below, hstack⟩, hseen, hopen, List.not_mem_nil⟩
    refine h.pop hstack (List.subset_cons_self _ _) List.mem_cons_self ⟨?_, h.behind⟩
    intro v hlead
    exact (h.pending top [] htop v hlead).resolve_left List.not_mem_nil
  | drop top below hstack hseen hdone =>
    exact h.pop hstack (List.Subset.refl _) hdone h.behind

end Visit

/-- The state in which the walk ends. -/
def visitEnd (g : Graph) : Visit := runSteps (Visit.step g) g.visitBound (Visit.start g)

/-- **The walk comes to its end**, and what its moves keep holds there. -/
theorem visit_spec (hg : g.WellFormed) :
    Visit.Inv g g.visitEnd ∧ (¬ HasCycle g.Leads → Visit.Ordered g g.visitEnd) ∧
      Visit.step g g.visitEnd = none := by
  have keep : ∀ s t : Visit,
      (Visit.Inv g s ∧ (¬ HasCycle g.Leads → Visit.Ordered g s)) → Visit.step g s = some t →
      (Visit.Inv g t ∧ (¬ HasCycle g.Leads → Visit.Ordered g t)) ∧
        Visit.toGo g t < Visit.toGo g s := by
    rintro s t ⟨hinv, hordered⟩ hstep
    have hmove := Visit.move_of_step hstep
    exact ⟨⟨hinv.move hg hmove, fun hacyclic => (hordered hacyclic).move hacyclic hinv hmove⟩,
      Visit.toGo_move hg hinv hmove⟩
  obtain ⟨⟨hinv, hordered⟩, hend⟩ := runSteps_spec keep g.visitBound (Visit.start g)
    ⟨.initial g, fun _ => .initial g⟩ (Visit.toGo_start_le hg)
  exact ⟨hinv, hordered, hend⟩

theorem nodup_finishOrder (hg : g.WellFormed) : g.finishOrder.Nodup :=
  (visit_spec hg).1.finished_nodup

/-- **The walk leaves all nodes.** -/
theorem mem_finishOrder (hg : g.WellFormed) {a : String} : a ∈ g.finishOrder ↔ a ∈ g.nodes := by
  obtain ⟨hinv, -, hend⟩ := visit_spec hg
  obtain ⟨hstack, hroots⟩ := Visit.eq_nil_of_step_eq_none hend
  refine ⟨hinv.finished_subset a, fun ha => ?_⟩
  have hseen : a ∈ g.visitEnd.seen := by
    rcases hinv.covered a ha with hroot | hon | hseen
    · rw [hroots] at hroot
      cases hroot
    · rw [hstack] at hon
      cases hon
    · exact hseen
  rcases hinv.left_or_on_stack a hseen with hon | hleft
  · rw [hstack] at hon
    cases hon
  · exact hleft

/-- In a list of all nodes that passes the check the edges lead to later places, so there is no
cycle. -/
theorem not_hasCycle_of_leadsForward (hg : g.WellFormed) {order : List String}
    (h : g.leadsForward order = true) (hmem : ∀ a ∈ g.nodes, a ∈ order) : ¬ HasCycle g.Leads := by
  refine not_hasCycle_of_rank order.idxOf fun a b hlead => ?_
  exact idxOf_lt_of_leadsForward h (hmem a (hg.source_mem hlead)) (hmem b (hg.target_mem hlead))
    hlead

/-- **The list of the walk passes the check exactly if there is no cycle.** -/
theorem leadsForward_finishOrder_iff (hg : g.WellFormed) :
    g.leadsForward g.finishOrder = true ↔ ¬ HasCycle g.Leads := by
  constructor
  · exact fun h => not_hasCycle_of_leadsForward hg h fun a ha => (mem_finishOrder hg).mpr ha
  · intro hacyclic
    exact ((visit_spec hg).2.1 hacyclic).behind.leadsForward (nodup_finishOrder hg)

/-- **The search against the edges accepts the list exactly if there is no cycle.** -/
theorem retraces_finishOrder_iff (hg : g.WellFormed) (hloop : ∀ a, ¬ g.Leads a a) :
    g.retraces [] g.finishOrder = true ↔ ¬ HasCycle g.Leads := by
  rw [← leadsForward_finishOrder_iff hg]
  refine retraces_iff_leadsForward hloop (nodup_finishOrder hg) (fun _ _ => List.not_mem_nil) ?_
  exact fun a b _ hlead => .inr ((mem_finishOrder hg).mpr (hg.source_mem hlead))

theorem topologicalOrder_eq_some_iff (hg : g.WellFormed) {order : List String} :
    g.topologicalOrder = some order ↔ ¬ HasCycle g.Leads ∧ order = g.finishOrder := by
  have haccepted : (!g.hasLoop && g.retraces [] g.finishOrder) = true ↔ ¬ HasCycle g.Leads := by
    rw [Bool.and_eq_true, Bool.not_eq_true', hasLoop_eq_false_iff]
    constructor
    · exact fun ⟨hloop, hretraces⟩ => (retraces_finishOrder_iff hg hloop).mp hretraces
    · intro hacyclic
      have hloop : ∀ a, ¬ g.Leads a a := fun a hlead => hacyclic ⟨a, TransGen.single hlead⟩
      exact ⟨hloop, (retraces_finishOrder_iff hg hloop).mpr hacyclic⟩
  rw [topologicalOrder, ← haccepted]
  split
  · next h => simp [h, eq_comm]
  · next h => simp [h]

end Graph

/-! ### The graph of a workflow -/

namespace Workflow

open WorkflowPolicy.Graph (Joined HasCycle)

/-- **An order in which the nodes of a workflow may run**: each node once, and every edge between
two different nodes leads to a later place. -/
structure ExecutionOrder (w : Workflow) (order : List String) : Prop where
  nodup : order.Nodup
  mem_iff : ∀ name, name ∈ order ↔ name ∈ w.nodes.names
  forward : ∀ a b, Joined w.nodes.names w.edges a b → order.idxOf a < order.idxOf b

/-- What is given as the topological order is an order in which the nodes may run. -/
theorem executionOrder_of_topologicalOrder {w : Workflow} {order : List String}
    (h : w.graph.topologicalOrder = some order) : w.ExecutionOrder order := by
  have hg := w.wellFormed_graph
  obtain ⟨hacyclic, rfl⟩ := (Graph.topologicalOrder_eq_some_iff hg).mp h
  have hcheck := (Graph.leadsForward_finishOrder_iff hg).mpr hacyclic
  refine ⟨Graph.nodup_finishOrder hg, fun name => ?_, fun a b hjoined => ?_⟩
  · rw [Graph.mem_finishOrder hg]
    exact Workflow.mem_nodeNames
  · rw [← w.leads_graph] at hjoined
    exact Graph.idxOf_lt_of_leadsForward hcheck
      ((Graph.mem_finishOrder hg).mpr (hg.source_mem hjoined))
      ((Graph.mem_finishOrder hg).mpr (hg.target_mem hjoined)) hjoined

/-- There is a topological order exactly if nothing is reported. -/
theorem isSome_topologicalOrder_iff (w : Workflow) :
    w.graph.topologicalOrder.isSome = true ↔ w.graph.findCycles = [] := by
  rw [Graph.findCycles_eq_nil_iff w.wellFormed_graph, Option.isSome_iff_exists]
  simp only [Graph.topologicalOrder_eq_some_iff w.wellFormed_graph, exists_and_left, exists_eq,
    and_true]

/-- **The walk and the search for cycles agree.** The graph of a workflow has a topological order
exactly if the search for cycles reports nothing. The order has each node once, and every edge
between two different nodes leads to a later place; where none is given, there is none. -/
theorem execution_order_iff_acyclic (w : Workflow) :
    (w.graph.topologicalOrder.isSome = true ↔ w.graph.findCycles = []) ∧
    (∀ order, w.graph.topologicalOrder = some order → w.ExecutionOrder order) ∧
    (w.graph.topologicalOrder = none → ¬ ∃ order, w.ExecutionOrder order) := by
  refine ⟨w.isSome_topologicalOrder_iff, fun _ => executionOrder_of_topologicalOrder, ?_⟩
  rintro hnone ⟨order, horder⟩
  -- Places in an order rise along the edges, so there is no cycle and the walk finds an order.
  have hacyclic : ¬ HasCycle w.graph.Leads := by
    rw [w.leads_graph]
    exact Graph.not_hasCycle_of_rank order.idxOf horder.forward
  rw [(Graph.topologicalOrder_eq_some_iff w.wellFormed_graph).mpr ⟨hacyclic, rfl⟩] at hnone
  cases hnone

/-- Two edges from the first node to the second one, to which the third one leads as well. -/
def shortcut : Workflow where
  name := "shortcut"
  nodes := .ofList (["a", "b", "c", "d"].map fun name => (name, ⟨name ++ ".ts", .empty⟩))
  edges := [⟨"a", "b"⟩, ⟨"b", "d"⟩, ⟨"a", "b"⟩, ⟨"a", "c"⟩, ⟨"c", "b"⟩]

/-- The second node is put on the stack once for each of the two edges, and it is left once. -/
theorem shortcut_ordered :
    shortcut.graph.topologicalOrder = some ["a", "c", "b", "d"] ∧
      shortcut.ExecutionOrder ["a", "c", "b", "d"] ∧ shortcut.graph.findCycles = [] := by
  have horder : shortcut.graph.topologicalOrder = some ["a", "c", "b", "d"] := by decide +kernel
  obtain ⟨hiff, hvalid, -⟩ := execution_order_iff_acyclic shortcut
  refine ⟨horder, hvalid _ horder, hiff.mp ?_⟩
  rw [horder]
  rfl

end Workflow

end WorkflowPolicy
