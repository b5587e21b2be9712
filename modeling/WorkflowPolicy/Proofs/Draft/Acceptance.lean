import WorkflowPolicy.Proofs.Draft.Log
import WorkflowPolicy.Proofs.Draft.Cycles
import WorkflowPolicy.Proofs.Text.Pattern

/-!
# Which drafts are accepted

`Workflow.Acceptable` says without the check what a draft has to be: its names have the right forms,
its triggers and nodes are complete, its edges join different nodes and form no cycle, and its
contract is acceptable in turn. The check of a draft finds nothing exactly in the acceptable ones
(`validate_isOk_iff_acceptable`).

For every check there is one law of the form "nothing is found if and only if", and the law of a
check is put together from those of its parts by `findings_bind`.
-/

namespace WorkflowPolicy.Draft

open Net (Cidr PortSpec)

/-! ### What is asked of a draft -/

/-- A trigger of one of the four kinds, with the field that its kind needs. -/
def Trigger.Complete (t : Trigger) : Prop :=
  t.kind = "manual" ∨ (t.kind = "cron" ∧ t.schedule ≠ "") ∨
    (t.kind = "webhook" ∧ t.path ≠ "") ∨ (t.kind = "queue" ∧ t.subject ≠ "")

/-- The names of those triggers that have one. -/
def triggerNames (ts : List Trigger) : List String := (ts.map Trigger.name).filter (· ≠ "")

/-- What is asked of the triggers of a draft. -/
@[mk_iff] structure AcceptableTriggers (ts : List Trigger) : Prop where
  /-- There is a trigger. -/
  nonempty : ts ≠ []
  /-- Every trigger has its field. -/
  complete : ∀ t ∈ ts, t.Complete
  /-- The names are identifiers. -/
  named : ∀ name ∈ triggerNames ts, name.toList ∈ Text.identPattern
  /-- No two triggers have the same name. -/
  distinct : (triggerNames ts).Nodup

/-- What is asked of the nodes of a draft. -/
@[mk_iff] structure AcceptableNodes (ns : Table Step) : Prop where
  /-- There is a node. -/
  nonempty : ns.entries ≠ []
  /-- The names are identifiers. -/
  named : ∀ e ∈ ns.entries, e.1.toList ∈ Text.identPattern
  /-- Every node says which program it runs. -/
  located : ∀ e ∈ ns.entries, e.2.path ≠ ""

/-- What is asked of the edges of a draft between nodes of the given names. -/
@[mk_iff] structure AcceptableEdges (names : List String) (es : List Edge) : Prop where
  /-- Every edge joins two different nodes. -/
  joins : ∀ e ∈ es, e.source ∈ names ∧ e.target ∈ names ∧ e.source ≠ e.target
  /-- The edges have no directed cycle. -/
  acyclic : ¬ Graph.HasCycle fun a b => ⟨a, b⟩ ∈ es

/-- A text for a block of addresses. -/
def IsBlock (text : String) : Prop := ∃ block, Cidr.parse? text = some block

/-- A text for a port with its transport protocol. -/
def IsPort (text : String) : Prop := ∃ port, PortSpec.parse? text = some port

/-- The fields that a protocol needs. -/
def Dependency.needed (d : Dependency) : Protocol → List String
  | .https => [d.host]
  | .postgresql => [d.host, d.database, d.user]
  | .nats => [d.host, d.subject]
  | .blob => [d.host, d.container]
  | .jsr => [d.host]
  | .npm => [d.host]

/-- What is asked of a target whose host is known at run time only. -/
@[mk_iff] structure Dependency.AcceptableDynamic (d : Dependency) : Prop where
  /-- It names a block of addresses. -/
  block : IsBlock d.cidr
  /-- It names a port. -/
  nonempty : d.dynPorts ≠ []
  /-- The ports can be read. -/
  ports : ∀ spec ∈ d.dynPorts, IsPort spec

/-- What is asked of a target that is known beforehand. -/
@[mk_iff] structure Dependency.AcceptableFixed (d : Dependency) : Prop where
  /-- A declared port is zero or a port number. -/
  port : ∀ p, d.port = some p → p = 0 ∨ (1 ≤ p ∧ p ≤ 65535)
  /-- The fields that a known protocol needs are there. -/
  fields : ∀ protocol : Protocol, d.protocol = protocol.name →
    ∀ value ∈ d.needed protocol, value ≠ ""

/-- What is asked of credentials. -/
@[mk_iff] structure AcceptableAuth (a : Auth) : Prop where
  /-- Their kind is given. -/
  kind : a.kind ≠ ""
  /-- The secret is a reference. -/
  secret : a.secret.toList ∈ Text.secretRefPattern

/-- What is asked of a dependency of the given name. -/
@[mk_iff] structure Dependency.Acceptable (name : String) (d : Dependency) : Prop where
  /-- The name is an identifier. -/
  named : name.toList ∈ Text.identPattern
  /-- The protocol is given. -/
  protocol : d.protocol ≠ ""
  /-- The target is acceptable, if its host is known at run time only. -/
  dynamic : d.kind = "dynamic-target" → d.AcceptableDynamic
  /-- The target is acceptable, if it is known beforehand. -/
  fixed : d.kind ≠ "dynamic-target" → d.AcceptableFixed
  /-- So are the credentials, if there are any. -/
  auth : ∀ a, d.auth = some a → AcceptableAuth a

/-- What is asked of a block that is opened by hand. -/
@[mk_iff] structure Egress.Acceptable (e : Egress) : Prop where
  /-- It is a block of addresses. -/
  block : IsBlock e.cidr
  /-- The ports can be read. -/
  ports : ∀ spec ∈ e.ports, IsPort spec

/-- **What is asked of a contract.** -/
@[mk_iff] structure Contract.Acceptable (c : Contract) : Prop where
  /-- Its version is the one that is understood. -/
  version : c.version = "1"
  /-- Every dependency is acceptable. -/
  dependencies : ∀ e ∈ (c.dependencies.getD .empty).entries, e.2.Acceptable e.1
  /-- So is every block that is opened by hand. -/
  override : ∀ es, c.override = some es → ∀ e ∈ es, e.Acceptable

/-- **What is asked of a workflow.** -/
@[mk_iff] structure Workflow.Acceptable (w : Workflow) : Prop where
  /-- The name is in kebab-case. -/
  name : w.name.toList ∈ Text.kebabPattern
  /-- The version is two numbers with a point between them. -/
  version : w.version.toList ∈ Text.versionPattern
  triggers : AcceptableTriggers w.triggers
  nodes : AcceptableNodes w.nodes
  edges : AcceptableEdges w.nodes.keys w.edges
  /-- The contract is acceptable, if there is one. -/
  contract : ∀ c, w.contract = some c → c.Acceptable

namespace Check

/-! ### Header, triggers, nodes -/

@[simp] theorem findings_reportIf_eq_nil_iff {c : Bool} {f : Finding} :
    findings (reportIf c f) = [] ↔ c = false := by
  cases c <;> simp

theorem findings_header_eq_nil_iff {name version : String} :
    findings (header name version) = [] ↔
      name.toList ∈ Text.kebabPattern ∧ version.toList ∈ Text.versionPattern := by
  -- An empty text has neither form, so it makes no difference which of the two is reported.
  have hname : Text.isKebab "" = false := by decide
  have hversion : Text.isVersion "" = false := by decide
  rw [← Text.isKebab_iff, ← Text.isVersion_iff]
  by_cases h : name = "" <;> by_cases h' : version = "" <;>
    simp [header, h, h', hname, hversion]

theorem findings_needed_eq_nil_iff {index : Nat} {kind field value : String}
    {event : String → Event} :
    findings (needed index kind field value event) = [] ↔ value ≠ "" := by
  by_cases h : value = "" <;> simp [needed, h]

/-- Nothing is found in the kind of a complete trigger. The kinds are tried in turn. -/
theorem findings_event_eq_nil_iff {index : Nat} {t : Trigger} :
    findings (event index t) = [] ↔ t.Complete := by
  unfold event Trigger.Complete
  -- The four kinds are asked for one after the other, and each branch needs the field of its kind.
  split
  · next hkind => simp [hkind]
  · split
    · next hkind => simp [hkind, findings_needed_eq_nil_iff]
    · split
      · next hkind => simp [hkind, findings_needed_eq_nil_iff]
      · split
        · next hkind => simp [hkind, findings_needed_eq_nil_iff]
        · simp_all

@[simp] theorem built_triggerName {index : Nat} {name : String} {taken : List String} :
    built (triggerName index name taken) = if name = "" then none else some name := by
  by_cases h : name = "" <;> simp [triggerName, h]

theorem findings_triggerName_eq_nil_iff {index : Nat} {name : String} {taken : List String} :
    findings (triggerName index name taken) = [] ↔
      (name ≠ "" → name.toList ∈ Text.identPattern ∧ name ∉ taken) := by
  by_cases h : name = ""
  · simp [triggerName, h]
  · simp [triggerName, h, ← Text.isIdent_iff]

theorem triggerNames_cons (t : Trigger) (ts : List Trigger) :
    triggerNames (t :: ts) = (if t.name = "" then [] else [t.name]) ++ triggerNames ts := by
  by_cases h : t.name = "" <;> simp [triggerNames, h]

/-- The triggers after some names have been taken: none of these may be used again. -/
theorem findings_triggersFrom_eq_nil_iff {index : Nat} {taken : List String}
    {ts : List Trigger} :
    findings (triggersFrom index taken ts) = [] ↔
      (∀ t ∈ ts, t.Complete) ∧ (∀ name ∈ triggerNames ts, name.toList ∈ Text.identPattern) ∧
        (triggerNames ts).Nodup ∧ ∀ name ∈ triggerNames ts, name ∉ taken := by
  -- Both the index and the names taken change along the list, and the claim is for all of them.
  induction ts generalizing index taken with
  | nil => simp [triggersFrom, triggerNames]
  | cons t ts ih =>
    rw [triggerNames_cons]
    simp only [triggersFrom, findings_bind, findings_pure, List.append_nil,
      List.append_eq_nil_iff, findings_event_eq_nil_iff, findings_triggerName_eq_nil_iff,
      built_triggerName, ih]
    by_cases h : t.name = ""
    · -- A trigger without a name takes none.
      simp [h, and_assoc]
    · simp only [h, if_false, ne_eq, not_false_eq_true, forall_const, Option.toList_some,
        List.singleton_append, List.nodup_cons, List.mem_cons, not_or]
      -- A name that is used now is taken for the rest, so none of the rest may have it.
      grind

theorem findings_triggers_eq_nil_iff {ts : List Trigger} :
    findings (triggers ts) = [] ↔ AcceptableTriggers ts := by
  simp only [triggers, findings_bind, List.append_eq_nil_iff, findings_reportIf_eq_nil_iff,
    findings_triggersFrom_eq_nil_iff, List.isEmpty_eq_false_iff, acceptableTriggers_iff]
  -- No name has been taken before the first trigger.
  simp only [List.not_mem_nil, not_false_eq_true, implies_true, and_true]

theorem findings_nodes_eq_nil_iff {ns : Table Step} :
    findings (nodes ns) = [] ↔ AcceptableNodes ns := by
  -- What is asked of a node goes by its name and its program only.
  have hnode : ∀ e : String × Step, findings (node e.1 e.2) = [] ↔
      e.1.toList ∈ Text.identPattern ∧ e.2.path ≠ "" := fun e => by
    simp [node, ← Text.isIdent_iff]
  rw [nodes, List.forM_eq_forM, findings_bind, List.append_eq_nil_iff,
    findings_reportIf_eq_nil_iff, findings_forM, List.flatMap_eq_nil_iff, acceptableNodes_iff]
  simp only [hnode, Table.isEmpty, List.isEmpty_eq_false_iff, forall_and]

/-! ### Edges -/

theorem findings_edge_eq_nil_iff {names : List String} {index : Nat} {e : Edge} :
    findings (edge names index e) = [] ↔
      e.source ∈ names ∧ e.target ∈ names ∧ e.source ≠ e.target := by
  simp [edge]

/-- Where all edges join two different nodes, their relation is that of all edges. -/
theorem joined_iff_mem {names : List String} {es : List Edge}
    (h : ∀ e ∈ es, e.source ∈ names ∧ e.target ∈ names ∧ e.source ≠ e.target) (a b : String) :
    Graph.Joined names es a b ↔ ⟨a, b⟩ ∈ es :=
  ⟨fun hjoined => hjoined.1, fun hmem =>
    ⟨hmem, (h _ hmem).1, (h _ hmem).2.1, (h _ hmem).2.2⟩⟩

theorem findings_edges_eq_nil_iff {names : List String} (hnodup : names.Nodup)
    {es : List Edge} : findings (edges names es) = [] ↔ AcceptableEdges names es := by
  -- The indices are there for the texts of the findings, and any edge has one.
  have hjoins : (∀ x ∈ es.zipIdx, findings (edge names x.2 x.1) = []) ↔
      ∀ e ∈ es, e.source ∈ names ∧ e.target ∈ names ∧ e.source ≠ e.target := by
    simp only [findings_edge_eq_nil_iff]
    constructor
    · intro h e he
      obtain ⟨index, hindex⟩ := List.mem_iff_getElem?.mp he
      exact h (e, index) (List.mk_mem_zipIdx_iff_getElem?.mpr hindex)
    · rintro h ⟨e, index⟩ hmem
      exact h e (List.fst_mem_of_mem_zipIdx hmem)
  -- Every cycle is reported, so nothing is found exactly if there is none.
  have hcycles : (∀ back ∈ (Graph.restrict names es).findCycles,
      findings (report (.cycle back)) = []) ↔ (Graph.restrict names es).findCycles = [] := by
    simp [List.eq_nil_iff_forall_not_mem]
  simp only [edges, List.forM_eq_forM, findings_bind, List.append_eq_nil_iff, findings_forM,
    List.flatMap_eq_nil_iff, hjoins, hcycles, Graph.findCycles_restrict_eq_nil_iff hnodup,
    acceptableEdges_iff]
  -- The search sees the edges that join two different nodes, and these are all of them.
  refine and_congr_right fun hall => ?_
  rw [Graph.hasCycle_congr (joined_iff_mem hall)]

/-! ### Blocks and ports -/

/-- The empty text is no block, so a block that is missing is found too. -/
theorem findings_cidr_eq_nil_iff {text : String} {missing malformed : Finding} :
    findings (cidr text missing malformed) = [] ↔ IsBlock text := by
  have hempty : Cidr.parse? "" = none := by decide
  unfold cidr IsBlock
  by_cases h : text = ""
  · simp [h, hempty]
  · cases hparse : Cidr.parse? text <;> simp [h]

theorem findings_portsFrom_eq_nil_iff {malformed : Nat → String → Finding} {index : Nat}
    {specs : List String} :
    findings (portsFrom malformed index specs) = [] ↔ ∀ spec ∈ specs, IsPort spec := by
  induction specs generalizing index with
  | nil => simp [portsFrom]
  | cons spec specs ih =>
    rw [List.forall_mem_cons, ← @ih (index + 1), portsFrom, IsPort]
    cases hparse : PortSpec.parse? spec <;> simp

/-! ### Dependencies -/

theorem findings_dynamicTarget_eq_nil_iff {name : String} {d : Dependency} :
    findings (dynamicTarget name d) = [] ↔ d.AcceptableDynamic := by
  simp only [dynamicTarget, findings_bind, findings_pure, List.append_nil,
    List.append_eq_nil_iff, findings_cidr_eq_nil_iff, findings_reportIf_eq_nil_iff,
    findings_portsFrom_eq_nil_iff, List.isEmpty_eq_false_iff,
    Dependency.acceptableDynamic_iff]

theorem findings_port_eq_nil_iff {name : String} {declared : Option Int} :
    findings (port name declared) = [] ↔
      ∀ p, declared = some p → p = 0 ∨ (1 ≤ p ∧ p ≤ 65535) := by
  -- Port zero counts as none, so it is not found.
  cases declared with
  | none => simp [port]
  | some p =>
    have hport : findings (port name (some p)) = [] ↔ (¬p = 0 → 0 < p ∧ p < 65536) := by
      simp [port]
    rw [hport]
    simp only [Option.some.injEq, forall_eq']
    omega

theorem findings_require_eq_nil_iff {name field value : String} {protocol : Protocol} :
    findings (require name protocol field value) = [] ↔ value ≠ "" := by
  simp [require]

/-- What is found in a target of a known protocol are the fields that are missing. -/
theorem findings_knownTarget_eq_nil_iff {name : String} {protocol : Protocol}
    {port : Option Net.Port} {d : Dependency} :
    findings (knownTarget name protocol port d) = [] ↔
      ∀ value ∈ d.needed protocol, value ≠ "" := by
  cases protocol <;>
    simp [knownTarget, Dependency.needed, findings_require_eq_nil_iff]

theorem findings_fixedTarget_eq_nil_iff {name : String} {d : Dependency} :
    findings (fixedTarget name d) = [] ↔ d.AcceptableFixed := by
  have hfields : (∀ protocol, Protocol.ofName? d.protocol = some protocol →
      ∀ value ∈ d.needed protocol, value ≠ "") ↔
      ∀ protocol : Protocol, d.protocol = protocol.name →
        ∀ value ∈ d.needed protocol, value ≠ "" := by
    simp only [Protocol.ofName?_eq_some_iff]
  -- Without a known protocol only the port is looked at.
  have htarget : findings (fixedTarget name d) = [] ↔
      findings (port name d.port) = [] ∧
        ∀ protocol, Protocol.ofName? d.protocol = some protocol →
          ∀ value ∈ d.needed protocol, value ≠ "" := by
    unfold fixedTarget
    cases Protocol.ofName? d.protocol with
    | none => simp
    | some protocol => simp [findings_knownTarget_eq_nil_iff]
  rw [htarget, findings_port_eq_nil_iff, hfields, Dependency.acceptableFixed_iff]

theorem findings_auth_eq_nil_iff {name : String} {a : Auth} :
    findings (auth name a) = [] ↔ AcceptableAuth a := by
  have hempty : Text.isSecretRef "" = false := by decide
  -- The empty text is no reference, so a secret that is missing is not one either.
  have hsecret : findings (auth name a) = [] ↔
      a.kind ≠ "" ∧ Text.isSecretRef a.secret = true := by
    by_cases h : a.secret = "" <;> simp [auth, h, hempty]
  rw [hsecret, Text.isSecretRef_iff, acceptableAuth_iff]

theorem findings_dependencyWithProtocol_eq_nil_iff {name : String} {d : Dependency} :
    findings (dependencyWithProtocol name d) = [] ↔
      (d.kind = dynamicKind → d.AcceptableDynamic) ∧
        (d.kind ≠ dynamicKind → d.AcceptableFixed) ∧ ∀ a, d.auth = some a → AcceptableAuth a := by
  -- There is at most one set of credentials, and it has to be in order.
  have hauth : (∀ a ∈ d.auth.toList, findings (auth name a) = []) ↔
      ∀ a, d.auth = some a → AcceptableAuth a := by
    simp only [Option.mem_toList, findings_auth_eq_nil_iff]
  rw [← hauth]
  by_cases h : d.kind = dynamicKind <;>
    simp [dependencyWithProtocol, Option.forM_eq_forM, h, findings_dynamicTarget_eq_nil_iff,
      findings_fixedTarget_eq_nil_iff]

/-- **Nothing is found in an acceptable dependency.** -/
theorem findings_dependency_eq_nil_iff {name : String} {d : Dependency} :
    findings (dependency name d) = [] ↔ d.Acceptable name := by
  -- Without a protocol the rest is not looked at, and then there is a finding already.
  have hparts : findings (dependency name d) = [] ↔ Text.isIdent name = true ∧
      d.protocol ≠ "" ∧ findings (dependencyWithProtocol name d) = [] := by
    by_cases h : d.protocol = "" <;> simp [dependency, h]
  rw [hparts, Text.isIdent_iff, findings_dependencyWithProtocol_eq_nil_iff,
    Dependency.acceptable_iff, dynamicKind]

/-- What is built along the way makes no difference to what is found. -/
theorem findings_dependencies (entries : List (String × Dependency))
    (start : Roster WorkflowPolicy.Dependency) :
    findings (dependencies entries start) =
      entries.flatMap fun e => findings (dependency e.1 e.2) := by
  induction entries generalizing start with
  | nil => rfl
  | cons e entries ih => rw [dependencies_cons, findings_bind, ih, List.flatMap_cons]

/-! ### The contract and the workflow -/

theorem findings_egress_eq_nil_iff {index : Nat} {e : Egress} :
    findings (egress index e) = [] ↔ e.Acceptable := by
  simp only [egress, findings_bind, findings_pure, List.append_nil, List.append_eq_nil_iff,
    findings_cidr_eq_nil_iff, findings_portsFrom_eq_nil_iff, Egress.acceptable_iff]

theorem findings_egressFrom_eq_nil_iff {index : Nat} {es : List Egress} :
    findings (egressFrom index es) = [] ↔ ∀ e ∈ es, e.Acceptable := by
  induction es generalizing index with
  | nil => simp [egressFrom]
  | cons e es ih => simp [egressFrom, findings_egress_eq_nil_iff, ih]

theorem findings_policySection_eq_nil_iff {override : Option (List Egress)} :
    findings (policySection override) = [] ↔
      ∀ es, override = some es → ∀ e ∈ es, e.Acceptable := by
  cases override <;> simp [policySection, findings_egressFrom_eq_nil_iff]

theorem findings_contractVersion_eq_nil_iff {version : String} :
    findings (contractVersion version) = [] ↔ version = "1" := by
  by_cases h : version = "" <;> simp [contractVersion, WorkflowPolicy.contractVersion, h]

/-- **Nothing is found in an acceptable contract.** -/
theorem findings_contract_eq_nil_iff {c : Contract} :
    findings (contract c) = [] ↔ c.Acceptable := by
  simp only [contract, findings_clean, findings_bind, findings_pure, List.append_nil,
    List.append_eq_nil_iff, findings_contractVersion_eq_nil_iff, findings_dependencies,
    List.flatMap_eq_nil_iff, findings_dependency_eq_nil_iff, findings_policySection_eq_nil_iff,
    Contract.acceptable_iff]

/-- **Nothing is found in an acceptable workflow.** -/
theorem findings_workflow_eq_nil_iff {w : Workflow} :
    findings (workflow w) = [] ↔ w.Acceptable := by
  -- The names of the nodes are the keys of a table, so none is repeated.
  have hnodup : w.nodes.keys.Nodup := w.nodes.nodup_keys
  simp only [findings_workflow, List.append_eq_nil_iff, findings_header_eq_nil_iff,
    findings_triggers_eq_nil_iff, findings_nodes_eq_nil_iff, findings_edges_eq_nil_iff hnodup,
    List.flatMap_eq_nil_iff, Option.mem_toList, findings_contract_eq_nil_iff,
    Workflow.acceptable_iff, and_assoc]

/-- What has been built is accepted if nothing has been found. -/
theorem accept_eq {α : Type} (walk : Check α) :
    accept walk = if findings walk = [] then .ok (built walk) else .error (findings walk) := by
  have haccept : accept walk =
      if (findings walk).isEmpty then .ok (built walk) else .error (findings walk) := rfl
  rw [haccept]
  simp only [List.isEmpty_iff]

end Check

/-- **Exactly the acceptable drafts are accepted.** -/
theorem validate_isOk_iff_acceptable (w : Workflow) :
    (∃ accepted, w.validate = .ok accepted) ↔ w.Acceptable := by
  rw [← Check.findings_workflow_eq_nil_iff, Workflow.validate, Check.accept_eq]
  constructor
  · rintro ⟨accepted, haccepted⟩
    split at haccepted
    · next hfindings => exact hfindings
    · cases haccepted
  · intro hfindings
    exact ⟨_, if_pos hfindings⟩

end WorkflowPolicy.Draft
