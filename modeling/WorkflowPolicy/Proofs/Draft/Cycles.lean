import WorkflowPolicy.Proofs.Draft.Log
import WorkflowPolicy.Proofs.Graph.CycleDetection

/-!
# Cycles in drafts

A check of a draft reports a cycle exactly when the draft's edges between two different ones of its
nodes form one (`cycle_detection_decides`). Only the check of the edges finds
cycles, and the texts of all other findings begin with other words (`isCycleNotice_message`), so the
reports can be told by their texts.
-/

namespace WorkflowPolicy

/-! ### The names of nodes -/

/-- No key of a table occurs twice. -/
theorem Table.nodup_keys {α : Type} (t : Table α) : t.keys.Nodup := by
  refine List.Pairwise.imp (fun {a b} hlt heq => ?_) t.sorted
  rw [heq] at hlt
  exact String.lt_irrefl b hlt

/-- No node of a workflow is listed twice. -/
theorem Workflow.nodup_nodeNames (w : Workflow) : w.nodeNames.Nodup :=
  (sortBy_perm _ _).nodup_iff.mpr w.nodes.nodup

theorem Workflow.mem_nodeNames {w : Workflow} {name : String} :
    name ∈ w.nodeNames ↔ name ∈ w.nodes.names := mem_sortBy

namespace Draft

/-! ### Texts of findings about cycles -/

/-- How the text of a finding about a cycle begins. -/
def cycleNotice : String := "cycle detected: "

/-- Does a text begin like that of a finding about a cycle? -/
def IsCycleNotice (message : String) : Prop := cycleNotice.toList <+: message.toList

/-- With which words the text of a finding begins. -/
def Finding.opening : Finding → String
  | .nameMissing | .nameMalformed _ => "name "
  | .versionMissing | .versionMalformed _ => "version "
  | .noTriggers | .noNodes => "at least one "
  | .trigger .. => "trigger["
  | .node .. => "node "
  | .edge .. => "edge["
  | .cycle _ => cycleNotice
  | .contractVersionMissing | .contractVersionUnknown _ | .dependency .. | .egress .. => "contract."

/-- With which words the texts of the other findings begin. -/
def otherOpenings : List String :=
  ["name ", "version ", "at least one ", "trigger[", "node ", "edge[", "contract."]

theorem opening_mem_otherOpenings {f : Finding} (h : ∀ back, f ≠ .cycle back) :
    f.opening ∈ otherOpenings := by
  cases f with
  | cycle back => exact absurd rfl (h back)
  | _ => simp [Finding.opening, otherOpenings]

/-- The words of the other findings and those of a cycle differ before either ends. -/
theorem not_prefix_of_mem_otherOpenings : ∀ opening ∈ otherOpenings,
    ¬ (cycleNotice.toList <+: opening.toList ∨ opening.toList <+: cycleNotice.toList) := by
  decide +kernel

/-- What begins a text begins every longer text. -/
theorem prefix_append_text {a b : String} (h : a.toList <+: b.toList) (rest : String) :
    a.toList <+: (b ++ rest).toList := by
  rw [String.toList_append]
  exact h.trans (List.prefix_append _ _)

/-- **Every text begins as it should.** -/
theorem opening_prefix_message (f : Finding) : f.opening.toList <+: f.message.toList := by
  cases f with
  | nameMissing => decide +kernel
  | versionMissing => decide +kernel
  | noTriggers => decide +kernel
  | noNodes => decide +kernel
  | contractVersionMissing => decide +kernel
  -- In the other texts a first part that does not vary begins as it should.
  | nameMalformed name =>
    have hstart : "name ".toList <+: "name must be kebab-case, got: ".toList := by decide +kernel
    exact prefix_append_text hstart _
  | versionMalformed version =>
    have hstart : "version ".toList <+: "version must be semver (e.g., 1.0), got: ".toList := by
      decide +kernel
    exact prefix_append_text hstart _
  | cycle back => exact prefix_append_text List.prefix_rfl _
  | trigger index fault =>
    exact prefix_append_text (prefix_append_text (prefix_append_text List.prefix_rfl _) _) _
  | node name fault =>
    exact prefix_append_text (prefix_append_text (prefix_append_text List.prefix_rfl _) _) _
  | edge index fault =>
    exact prefix_append_text (prefix_append_text (prefix_append_text List.prefix_rfl _) _) _
  | contractVersionUnknown version =>
    have hstart : "contract.".toList <+: "contract.version must be \"".toList := by decide +kernel
    exact prefix_append_text (prefix_append_text (prefix_append_text hstart _) _) _
  | dependency name fault =>
    have hstart : "contract.".toList <+: "contract.dependencies[".toList := by decide +kernel
    exact prefix_append_text (prefix_append_text (prefix_append_text hstart _) _) _
  | egress index fault =>
    have hstart : "contract.".toList <+: "contract.networkPolicy.additionalEgress[".toList := by
      decide +kernel
    exact prefix_append_text (prefix_append_text (prefix_append_text hstart _) _) _

/-- **Only findings about cycles are worded as such.** -/
theorem isCycleNotice_message (f : Finding) :
    IsCycleNotice f.message ↔ ∃ back, f = .cycle back := by
  constructor
  · intro h
    by_contra hother
    have hmem := opening_mem_otherOpenings fun back heq => hother ⟨back, heq⟩
    -- Two beginnings of one text agree as far as the shorter one goes.
    exact not_prefix_of_mem_otherOpenings _ hmem
      (List.prefix_or_prefix_of_prefix h (opening_prefix_message f))
  · rintro ⟨back, rfl⟩
    exact opening_prefix_message (.cycle back)

/-! ### Who reports cycles -/

namespace Check

/-- A finding that is not about a cycle. -/
def NoCycle (f : Finding) : Prop := ∀ back, f ≠ .cycle back

section NoCycle

theorem noCycle_header (name version : String) : AllFound NoCycle (header name version) := by
  simp [header, NoCycle]

theorem noCycle_needed (index : Nat) (kind field value : String) (event : String → Event) :
    AllFound NoCycle (needed index kind field value event) := by
  simp [needed, NoCycle]

theorem noCycle_event (index : Nat) (t : Trigger) : AllFound NoCycle (event index t) := by
  simp [event, noCycle_needed, NoCycle]

theorem noCycle_triggerName (index : Nat) (name : String) (taken : List String) :
    AllFound NoCycle (triggerName index name taken) := by
  simp [triggerName, NoCycle]

theorem noCycle_triggersFrom (index : Nat) (taken : List String) (ts : List Trigger) :
    AllFound NoCycle (triggersFrom index taken ts) := by
  induction ts generalizing index taken with
  | nil => simp [triggersFrom]
  | cons t ts ih => simp [triggersFrom, noCycle_event, noCycle_triggerName, ih]

theorem noCycle_triggers (ts : List Trigger) : AllFound NoCycle (triggers ts) := by
  simp [triggers, noCycle_triggersFrom, NoCycle]

theorem noCycle_nodes (ns : Table Step) : AllFound NoCycle (nodes ns) := by
  simp [nodes, node, NoCycle]

theorem noCycle_edge (names : List String) (index : Nat) (e : Edge) :
    AllFound NoCycle (edge names index e) := by
  simp [edge, NoCycle]

theorem noCycle_dependency (name : String) (d : Dependency) :
    AllFound NoCycle (dependency name d) :=
  allFound_dependency (fun fault => by simp [NoCycle]) d

theorem noCycle_dependencies (entries : List (String × Dependency))
    (start : Roster WorkflowPolicy.Dependency) : AllFound NoCycle (dependencies entries start) := by
  induction entries generalizing start with
  | nil => simp [dependencies]
  | cons e entries ih =>
    rw [dependencies_cons, allFound_bind]
    -- Whatever has been built of the first one, the rest is checked in the same way.
    refine ⟨noCycle_dependency e.1 e.2, ?_⟩
    cases built (dependency e.1 e.2) <;> exact ih _

theorem noCycle_egressFrom (index : Nat) (es : List Egress) :
    AllFound NoCycle (egressFrom index es) := by
  induction es generalizing index with
  | nil => simp [egressFrom]
  | cons e es ih =>
    have hfault : ∀ fault, NoCycle (.egress index fault) := by simp [NoCycle]
    have hcidr := allFound_cidr (hfault .cidrMissing) (hfault (.cidrMalformed e.cidr)) e.cidr
    have hports := allFound_portsFrom (fun j spec => hfault (.portMalformed j spec)) 0 e.ports
    simp [egressFrom, egress, hcidr, hports, ih]

theorem noCycle_contract (c : Contract) : AllFound NoCycle (contract c) := by
  have hsection : AllFound NoCycle (policySection c.override) := by
    cases c.override <;> simp [policySection, noCycle_egressFrom]
  simp [contract, contractVersion, noCycle_dependencies, hsection, NoCycle]

end NoCycle

/-- **The check of the edges reports the edges that the search reports**, and nothing else about
cycles. -/
theorem cycle_mem_findings_edges {names : List String} {es : List Edge} {back : Edge} :
    .cycle back ∈ findings (edges names es) ↔ back ∈ (Graph.restrict names es).findCycles := by
  have hedge : ∀ e : Edge × Nat, .cycle back ∉ findings (edge names e.2 e.1) := fun e hmem =>
    noCycle_edge names e.2 e.1 _ hmem back rfl
  simp [edges, hedge]

/-- A check of a draft finds a cycle where the search for cycles reports one. -/
theorem cycle_mem_findings_workflow {w : Workflow} {back : Edge} :
    .cycle back ∈ findings (workflow w) ↔
      back ∈ (Graph.restrict w.nodes.keys w.edges).findCycles := by
  have hheader : .cycle back ∉ findings (header w.name w.version) := fun h =>
    noCycle_header w.name w.version _ h back rfl
  have htriggers : .cycle back ∉ findings (triggers w.triggers) := fun h =>
    noCycle_triggers w.triggers _ h back rfl
  have hnodes : .cycle back ∉ findings (nodes w.nodes) := fun h =>
    noCycle_nodes w.nodes _ h back rfl
  have hcontract : ∀ c, .cycle back ∉ findings (contract c) := fun c h =>
    noCycle_contract c _ h back rfl
  rw [findings_workflow]
  simp [hheader, htriggers, hnodes, hcontract, cycle_mem_findings_edges]

end Check

/-- A check of a draft writes down that a cycle has been detected exactly if there is one. -/
theorem exists_cycleNotice_iff (w : Workflow) :
    (∃ f ∈ Check.findings (Check.workflow w), IsCycleNotice f.message) ↔
      Graph.HasCycle (Graph.Joined w.nodes.keys w.edges) := by
  have hnotice : (∃ f ∈ Check.findings (Check.workflow w), IsCycleNotice f.message) ↔
      (Graph.restrict w.nodes.keys w.edges).findCycles ≠ [] := by
    constructor
    · rintro ⟨f, hf, hmessage⟩
      -- The text tells which finding it is.
      obtain ⟨back, rfl⟩ := (isCycleNotice_message f).mp hmessage
      exact List.ne_nil_of_mem (Check.cycle_mem_findings_workflow.mp hf)
    · intro hne
      obtain ⟨back, hback⟩ := List.exists_mem_of_ne_nil _ hne
      exact ⟨.cycle back, Check.cycle_mem_findings_workflow.mpr hback,
        (isCycleNotice_message _).mpr ⟨back, rfl⟩⟩
  rw [hnotice, ne_eq, Graph.findCycles_restrict_eq_nil_iff w.nodes.nodup_keys, not_not]

/-- **Cycle detection is a decision procedure.**

* The search reports nothing on the graph of a workflow exactly if the edges between two different
  ones of its nodes have no directed cycle.
* A check of a draft writes down that a cycle has been detected exactly if the edges between two
  different ones of its nodes have a directed cycle.
* That does not depend on the order in which the edges are written. -/
theorem cycle_detection_decides :
    (∀ w : WorkflowPolicy.Workflow, w.graph.findCycles = [] ↔
      ¬ Graph.HasCycle (Graph.Joined w.nodes.names w.edges)) ∧
    (∀ w : Workflow, (∃ f ∈ Check.findings (Check.workflow w), IsCycleNotice f.message) ↔
      Graph.HasCycle (Graph.Joined w.nodes.keys w.edges)) ∧
    (∀ (w : Workflow) (edges : List Edge), edges.Perm w.edges →
      ((∃ f ∈ Check.findings (Check.workflow { w with edges }), IsCycleNotice f.message) ↔
        ∃ f ∈ Check.findings (Check.workflow w), IsCycleNotice f.message)) := by
  refine ⟨fun w => ?_, exists_cycleNotice_iff, fun w edges hperm => ?_⟩
  · rw [Workflow.graph, Graph.findCycles_restrict_eq_nil_iff w.nodup_nodeNames]
    exact not_congr (Graph.hasCycle_congr
      (Graph.joined_congr (fun _ => Workflow.mem_nodeNames) fun _ => Iff.rfl))
  · rw [exists_cycleNotice_iff, exists_cycleNotice_iff]
    exact Graph.hasCycle_congr (Graph.joined_congr (fun _ => Iff.rfl) fun _ => hperm.mem_iff)

/-- A draft whose edges form a ring, with an edge to no node before them. -/
def ringDraft : Workflow where
  nodes := .ofList [("a", ⟨"a.ts", .empty⟩), ("b", ⟨"b.ts", .empty⟩), ("c", ⟨"c.ts", .empty⟩)]
  edges := [⟨"a", "ghost"⟩, ⟨"a", "b"⟩, ⟨"b", "c"⟩, ⟨"c", "a"⟩]

/-- The ring is detected whichever of its edges is written first. -/
theorem ring_detected_from_each_edge :
    [⟨"c", "a"⟩, ⟨"a", "b"⟩, ⟨"b", "c"⟩, ⟨"a", "ghost"⟩].Perm ringDraft.edges ∧
      ((∃ f ∈ Check.findings (Check.workflow { ringDraft with
          edges := [⟨"c", "a"⟩, ⟨"a", "b"⟩, ⟨"b", "c"⟩, ⟨"a", "ghost"⟩] }),
        IsCycleNotice f.message) ↔
      ∃ f ∈ Check.findings (Check.workflow ringDraft), IsCycleNotice f.message) ∧
      ∃ f ∈ Check.findings (Check.workflow ringDraft), IsCycleNotice f.message := by
  have hperm : [⟨"c", "a"⟩, ⟨"a", "b"⟩, ⟨"b", "c"⟩, ⟨"a", "ghost"⟩].Perm ringDraft.edges := by
    decide
  refine ⟨hperm, cycle_detection_decides.2.2 ringDraft _ hperm, ?_⟩
  -- The first edge joins no two nodes; the other three are the ring.
  refine (cycle_detection_decides.2.1 ringDraft).mpr ⟨"a", ?_⟩
  have hab : Graph.Joined ringDraft.nodes.keys ringDraft.edges "a" "b" := by
    unfold Graph.Joined
    decide
  have hbc : Graph.Joined ringDraft.nodes.keys ringDraft.edges "b" "c" := by
    unfold Graph.Joined
    decide
  have hca : Graph.Joined ringDraft.nodes.keys ringDraft.edges "c" "a" := by
    unfold Graph.Joined
    decide
  exact ((Relation.TransGen.single hab).tail hbc).tail hca

end Draft

end WorkflowPolicy
