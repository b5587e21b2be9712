import WorkflowPolicy.NetworkPolicy.Synthesis
import WorkflowPolicy.Proofs.Draft.Accepted

/-!
# Whom a policy admits

A policy is a document, and this module says what it means: which pods a rule lets talk with the
pods of the policy, by which protocol and at which port (`NetworkPolicy.Rule.Allows`). The meaning
of what is left out is opposite in two places. A rule for flows in without labels for pods means any
pod, and as a selector that is the empty one or none, by whether the pods are those of the own
namespace (`IngressRule.allows_toRule_iff`).

`Workflow.Expects` says who should be able to call a workflow, and `admits_iff_expects` that the
policy of the workflow admits these callers at its port and nobody else anywhere. The pods that
trigger runs are among them, whatever else starts the workflow.
-/

namespace WorkflowPolicy

open Net (Port Transport)

/-- **A pod**, as far as a policy knows it. -/
structure Pod where
  labels : Table String
  namespaceName : String
  namespaceLabels : Table String
  /-- The blocks in which its address lies. -/
  LiesIn : NetworkPolicy.IpBlock → Prop

/-! ### The meaning of a policy -/

namespace NetworkPolicy

/-- Labels among which are all those of the selector. -/
def Selector.Selects (s : Selector) (labels : Table String) : Prop :=
  ∀ e ∈ s.labels.entries, labels.get? e.1 = some e.2

/-- **A pod that is one of the peers** in a policy of the namespace `own`. All that is said of the
peer has to hold; if nothing is said of its namespace or address, it is one of the own namespace. -/
def Peer.Matches (own : String) (peer : Peer) (pod : Pod) : Prop :=
  (∀ s ∈ peer.pods, s.Selects pod.labels) ∧
  (∀ s ∈ peer.namespaces, s.Selects pod.namespaceLabels) ∧
  (∀ b ∈ peer.block, pod.LiesIn b) ∧
  (peer.namespaces = none → peer.block = none → pod.namespaceName = own)

/-- A port that an entry stands for; without a number it stands for all of its protocol. -/
def PortEntry.Matches (entry : PortEntry) (protocol : Transport) (port : Port) : Prop :=
  entry.protocol = protocol ∧ ∀ p ∈ entry.port, p = port

/-- **The traffic that a rule allows.** No peers are all peers, and no ports all ports. -/
def Rule.Allows (own : String) (rule : Rule) (pod : Pod) (protocol : Transport) (port : Port) :
    Prop :=
  (rule.peers = [] ∨ ∃ peer ∈ rule.peers, peer.Matches own pod) ∧
  (rule.ports = [] ∨ ∃ entry ∈ rule.ports, entry.Matches protocol port)

/-- A pod that the policy is for. -/
def Governs (p : NetworkPolicy) (pod : Pod) : Prop :=
  pod.namespaceName = p.metadata.namespaceName ∧ p.spec.pods.Selects pod.labels

/-- **The pod may call** the pods of the policy. Traffic that a policy does not restrict goes
through. -/
def Admits (p : NetworkPolicy) (pod : Pod) (protocol : Transport) (port : Port) : Prop :=
  p.restricts .ingress = true →
    ∃ rule ∈ p.spec.ingress, rule.Allows p.metadata.namespaceName pod protocol port

/-- **The pods of the policy may call** the pod. -/
def Permits (p : NetworkPolicy) (pod : Pod) (protocol : Transport) (port : Port) : Prop :=
  p.restricts .egress = true →
    ∃ rule ∈ p.spec.egress, rule.Allows p.metadata.namespaceName pod protocol port

theorem Selector.selects_empty (labels : Table String) : Selector.Selects {} labels := by
  intro e he
  cases he

@[simp] theorem Selector.selects_label {key value : String} {labels : Table String} :
    (Selector.label key value).Selects labels ↔ labels.get? key = some value := by
  simp [Selector.Selects, Selector.label, Table.single, insertEntry]

end NetworkPolicy

open NetworkPolicy (Selector Rule)

/-! ### Rules for flows in -/

namespace IngressRule

/-- The pods that a rule for flows in means, in a policy of the namespace `own`. -/
def Means (own : String) (r : IngressRule) (pod : Pod) : Prop :=
  (∀ labels ∈ r.pods, Selector.Selects ⟨labels⟩ pod.labels) ∧
  match r.namespaces with
  | some labels => Selector.Selects ⟨labels⟩ pod.namespaceLabels
  | none => pod.namespaceName = own

/-- **A rule of a policy allows what the flow means.** -/
theorem allows_toRule_iff {own : String} {r : IngressRule} {pod : Pod} {protocol : Transport}
    {port : Port} : r.toRule.Allows own pod protocol port ↔
      protocol = r.protocol ∧ port = r.port ∧ r.Means own pod := by
  -- The selector for any pod is met by every pod, and so is the one that is left out.
  have hpods : (∀ s ∈ r.podSelector, s.Selects pod.labels) ↔
      ∀ labels ∈ r.pods, Selector.Selects ⟨labels⟩ pod.labels := by
    simp only [podSelector]
    cases r.pods with
    | some labels => simp
    -- Without labels the selector is the empty one or left out, by whether a namespace is given.
    | none => cases r.namespaces <;> simp [Selector.selects_empty]
  have hpeer : NetworkPolicy.Peer.Matches own
      { pods := r.podSelector, namespaces := r.namespaces.map fun labels => ⟨labels⟩ } pod ↔
      r.Means own pod := by
    simp only [NetworkPolicy.Peer.Matches, Means, hpods]
    cases r.namespaces <;> simp
  -- The entry gives its port always, so it stands for that one only.
  have hport : NetworkPolicy.PortEntry.Matches ⟨r.protocol, some r.port⟩ protocol port ↔
      protocol = r.protocol ∧ port = r.port := by
    simp [NetworkPolicy.PortEntry.Matches, eq_comm]
  simp only [Rule.Allows, toRule, List.cons_ne_nil, List.mem_singleton, exists_eq_left, false_or,
    hpeer, hport]
  tauto

variable {own : String} {pod : Pod} {port : Port}

@[simp] theorem means_anyPod : (anyPod port).Means own pod ↔ pod.namespaceName = own := by
  simp [Means, anyPod]

@[simp] theorem means_triggerPods : (triggerPods port).Means own pod ↔
    pod.labels.get? Cluster.roleLabel = some Cluster.triggerRole ∧ pod.namespaceName = own := by
  simp only [Means, triggerPods, Option.mem_def, Option.some.injEq, forall_eq']
  rw [← Selector.selects_label]
  rfl

@[simp] theorem means_fromNamespace {name : String} : (fromNamespace port name).Means own pod ↔
    pod.namespaceLabels.get? Cluster.namespaceLabel = some name := by
  simp only [Means, fromNamespace]
  rw [← Selector.selects_label]
  simp [Selector.label]

/-- A label besides, for a rule that has had none. -/
theorem means_withPodLabel {r : IngressRule} (h : r.pods = none) {key value : String} :
    (r.withPodLabel key value).Means own pod ↔
      pod.labels.get? key = some value ∧ r.Means own pod := by
  simp only [Means, withPodLabel, h, Option.mem_def, Option.some.injEq, forall_eq', reduceCtorEq,
    false_implies, implies_true, true_and]
  rw [← Selector.selects_label]
  rfl

end IngressRule

/-! ### The callers of a workflow -/

/-- **Who should be able to call a workflow** in the namespace `own`. -/
inductive Workflow.Expects (settings : PolicySettings) (w : Workflow) (own : String) (pod : Pod) :
    Prop where
  /-- Where requests come from outside, any pod of the namespace. -/
  | neighbour (outside : w.hasWebhook = true) (near : pod.namespaceName = own)
  /-- Elsewhere, the pods of the namespace that trigger runs. -/
  | trigger (inside : w.hasWebhook = false) (near : pod.namespaceName = own)
    (role : pod.labels.get? Cluster.roleLabel = some Cluster.triggerRole)
  /-- The control plane. -/
  | controlPlane
    (place : pod.namespaceLabels.get? Cluster.namespaceLabel = some settings.controlPlaneNamespace)
    (app : pod.labels.get? Cluster.nameLabel = some settings.controlPlaneApp)
  /-- Where requests come from outside, any pod of the gateway's namespace. -/
  | gateway (outside : w.hasWebhook = true)
    (place : pod.namespaceLabels.get? Cluster.namespaceLabel = some settings.gatewayNamespace)

/-- All flows into a workflow are by one protocol and at one port. -/
theorem port_of_mem_admitted {settings : PolicySettings} {w : Workflow} {r : IngressRule}
    (h : r ∈ w.admitted settings) : r.protocol = .tcp ∧ r.port = Cluster.workflowPort := by
  -- There is one rule for neighbours or triggers, one for the control plane, and one for the
  -- gateway if there is a webhook.
  simp only [Workflow.admitted, ingressRules, List.mem_append, List.mem_singleton] at h
  rcases h with (rfl | rfl) | h
  · split <;> exact ⟨rfl, rfl⟩
  · exact ⟨rfl, rfl⟩
  · split at h
    · rw [List.mem_singleton.mp h]
      exact ⟨rfl, rfl⟩
    · cases h

/-- **The flows into a workflow mean the callers that it expects.** -/
theorem exists_means_iff_expects {settings : PolicySettings} {w : Workflow} {own : String}
    {pod : Pod} :
    (∃ r ∈ w.admitted settings, r.Means own pod) ↔ w.Expects settings own pod := by
  -- The rule for the control plane is made from that for its namespace by a label.
  have hcontrol {port : Port} {namespaceName app : String} :
      ((IngressRule.fromNamespace port namespaceName).withPodLabel Cluster.nameLabel app).Means own
        pod ↔ pod.labels.get? Cluster.nameLabel = some app ∧
          pod.namespaceLabels.get? Cluster.namespaceLabel = some namespaceName := by
    rw [IngressRule.means_withPodLabel rfl, IngressRule.means_fromNamespace]
  -- Whether there is a webhook decides both which rules there are and which callers are expected.
  cases hwebhook : w.hasWebhook with
  | true =>
    simp only [Workflow.admitted, ingressRules, hwebhook, if_true, List.cons_append,
      List.nil_append, List.mem_cons, List.not_mem_nil, or_false, exists_eq_or_imp, exists_eq_left,
      hcontrol, IngressRule.means_anyPod, IngressRule.means_fromNamespace]
    constructor
    · rintro (near | ⟨app, place⟩ | place)
      · exact .neighbour hwebhook near
      · exact .controlPlane place app
      · exact .gateway hwebhook place
    · rintro (⟨-, near⟩ | ⟨inside, -, -⟩ | ⟨place, app⟩ | ⟨-, place⟩)
      · exact .inl near
      · simp [hwebhook] at inside
      · exact .inr (.inl ⟨app, place⟩)
      · exact .inr (.inr place)
  | false =>
    simp only [Workflow.admitted, ingressRules, hwebhook, Bool.false_eq_true, if_false,
      List.append_nil, List.cons_append, List.nil_append, List.mem_cons, List.not_mem_nil, or_false,
      exists_eq_or_imp, exists_eq_left, hcontrol, IngressRule.means_triggerPods]
    constructor
    · rintro (⟨role, near⟩ | ⟨app, place⟩)
      · exact .trigger hwebhook near role
      · exact .controlPlane place app
    · rintro (⟨outside, -⟩ | ⟨-, near, role⟩ | ⟨place, app⟩ | ⟨outside, -⟩)
      · simp [hwebhook] at outside
      · exact .inl ⟨role, near⟩
      · exact .inr ⟨app, place⟩
      · simp [hwebhook] at outside

/-! ### The two policies of a workflow -/

section Policies

variable {settings : PolicySettings} {w : Workflow} {own : String} {p t : NetworkPolicy}

/-- What the policy for the pods of a workflow restricts. -/
theorem spec_of_networkPolicy? (h : w.networkPolicy? settings own = some p) :
    p.metadata.namespaceName = own ∧
      p.spec = { pods := .label Cluster.nameLabel w.name
                 directions := [.ingress, .egress]
                 ingress := (w.admitted settings).map IngressRule.toRule
                 egress := (egressRules w.contract).map EgressRule.toRule } := by
  obtain ⟨c, hcontract, rfl⟩ := Option.map_eq_some_iff.mp h
  -- The policy of a contract is made from the rules for the contract, so it is not looked at again.
  rw [hcontract]
  exact ⟨rfl, rfl⟩

/-- What the policy for the pods that trigger its runs restricts. -/
theorem spec_of_triggerPolicy? (h : w.triggerPolicy? own = some t) :
    t.metadata.namespaceName = own ∧
      t.spec = { pods := .label Cluster.roleLabel Cluster.triggerRole
                 directions := [.egress]
                 egress := dnsRules.map EgressRule.toRule ++ [w.callRule] } := by
  rw [Workflow.triggerPolicy?] at h
  split at h
  · -- A policy for triggers is made only where there is a schedule.
    obtain rfl := Option.some.inj h
    exact ⟨rfl, rfl⟩
  · cases h

/-- The policy of a workflow admits the callers that the workflow expects, at its port. -/
theorem admits_networkPolicy?_iff (h : w.networkPolicy? settings own = some p) {pod : Pod}
    {protocol : Transport} {port : Port} : p.Admits pod protocol port ↔
      protocol = .tcp ∧ port = Cluster.workflowPort ∧ w.Expects settings own pod := by
  obtain ⟨hown, hspec⟩ := spec_of_networkPolicy? h
  have hrestricts : p.restricts .ingress = true := by
    rw [NetworkPolicy.restricts, hspec]
    rfl
  rw [NetworkPolicy.Admits, forall_prop_of_true hrestricts, hown, hspec]
  simp only [List.mem_map, exists_exists_and_eq_and, IngressRule.allows_toRule_iff,
    ← exists_means_iff_expects]
  -- Every rule has the one protocol and the one port, and the pods are those that it means.
  constructor
  · rintro ⟨r, hr, rfl, rfl, hmeans⟩
    obtain ⟨hprotocol, hport⟩ := port_of_mem_admitted hr
    exact ⟨hprotocol, hport, r, hr, hmeans⟩
  · rintro ⟨rfl, rfl, r, hr, hmeans⟩
    obtain ⟨hprotocol, hport⟩ := port_of_mem_admitted hr
    exact ⟨r, hr, hprotocol.symm, hport.symm, hmeans⟩

/-- The policy for the pods that trigger runs is for those of the namespace with their role. -/
theorem governs_triggerPolicy?_iff (h : w.triggerPolicy? own = some t) {pod : Pod} :
    t.Governs pod ↔ pod.namespaceName = own ∧
      pod.labels.get? Cluster.roleLabel = some Cluster.triggerRole := by
  obtain ⟨hown, hspec⟩ := spec_of_triggerPolicy? h
  rw [NetworkPolicy.Governs, hown, hspec, Selector.selects_label]

/-- It lets them call the pods of the workflow. -/
theorem permits_triggerPolicy? (hpolicy : w.networkPolicy? settings own = some p)
    (h : w.triggerPolicy? own = some t) {service : Pod} (hservice : p.Governs service) :
    t.Permits service .tcp Cluster.workflowPort := by
  obtain ⟨hown, hspec⟩ := spec_of_triggerPolicy? h
  obtain ⟨hnear, hlabel⟩ := hservice
  -- The service is governed by the policy of the workflow, so it has its label and its namespace.
  rw [(spec_of_networkPolicy? hpolicy).1] at hnear
  rw [(spec_of_networkPolicy? hpolicy).2] at hlabel
  have hcall : w.callRule.Allows own service .tcp Cluster.workflowPort := by
    refine ⟨.inr ⟨_, List.mem_singleton_self _, ?_⟩, .inr ⟨_, List.mem_singleton_self _, rfl, ?_⟩⟩
    · exact ⟨fun s hs => Option.some.inj hs ▸ hlabel, by simp, by simp, fun _ _ => hnear⟩
    · simp
  intro _
  rw [hown, hspec]
  exact ⟨w.callRule, List.mem_append_right _ (List.mem_singleton_self _), hcall⟩

end Policies

/-- **A workflow is open to the callers that it expects**, and its own trigger pods are among them.
For a workflow with a contract there is a policy that restricts the flows in. What it admits goes to
the one port on which the workflow listens, and comes from the pods that the workflow expects. If
the workflow has a schedule, there is a policy for the pods that trigger its runs; it permits them
to call the pods of the workflow, and the policy of the workflow admits them. -/
theorem admits_iff_expects {w : Workflow} {c : Contract} (h : w.contract = some c)
    (settings : PolicySettings) (own : String) :
    ∃ p, w.networkPolicy? settings own = some p ∧ p.restricts .ingress = true ∧
      (∀ pod protocol port, p.Admits pod protocol port ↔
        protocol = .tcp ∧ port = 8080 ∧ w.Expects settings own pod) ∧
      (w.hasCron = true → ∃ t, w.triggerPolicy? own = some t ∧
        ∀ caller, t.Governs caller →
          (∀ service, p.Governs service → t.Permits service .tcp 8080) ∧
          p.Admits caller .tcp 8080) := by
  obtain ⟨p, hpolicy⟩ : ∃ p, w.networkPolicy? settings own = some p := by
    rw [Workflow.networkPolicy?, h]
    exact ⟨_, rfl⟩
  refine ⟨p, hpolicy, ?_, fun pod protocol port => admits_networkPolicy?_iff hpolicy, ?_⟩
  · rw [NetworkPolicy.restricts, (spec_of_networkPolicy? hpolicy).2]
    rfl
  · intro hcron
    obtain ⟨t, htrigger⟩ : ∃ t, w.triggerPolicy? own = some t := by
      rw [Workflow.triggerPolicy?, if_pos hcron]
      exact ⟨_, rfl⟩
    refine ⟨t, htrigger, fun caller hcaller => ⟨fun service hservice =>
      permits_triggerPolicy? hpolicy htrigger hservice, ?_⟩⟩
    obtain ⟨hnear, hrole⟩ := (governs_triggerPolicy?_iff htrigger).mp hcaller
    refine (admits_networkPolicy?_iff hpolicy).mpr ⟨rfl, rfl, ?_⟩
    -- Where requests come from outside they are let in as neighbours, else by their role.
    cases hwebhook : w.hasWebhook with
    | true => exact .neighbour hwebhook hnear
    | false => exact .trigger hwebhook hnear hrole

/-- A workflow that runs on a schedule. -/
def ferryWorkflow : Workflow where
  name := "ferry"
  triggers := [⟨none, .cron "0 * * * *"⟩]
  contract := some {}

/-- A pod of the namespace `ships` that triggers runs. -/
def ferryCaller : Pod where
  labels := .single Cluster.roleLabel Cluster.triggerRole
  namespaceName := "ships"
  namespaceLabels := .single Cluster.namespaceLabel "ships"
  LiesIn := fun _ => False

/-- A workflow of the same namespace to which requests come from outside. -/
def quayWorkflow : Workflow where
  name := "quay"
  triggers := [⟨none, .webhook "/landings"⟩]
  contract := some {}

/-- A pod without labels in the namespace of the gateway. -/
def gatewayPod : Pod where
  labels := .empty
  namespaceName := "edge"
  namespaceLabels := .single Cluster.namespaceLabel ({} : PolicySettings).gatewayNamespace
  LiesIn := fun _ => False

/-- The pod may call the workflow with the schedule at its port only and by its role only. The
workflow with the webhook admits any pod of the namespace and any of the gateway's, and nobody from
elsewhere, whatever its role. -/
theorem ferry_caller_admitted :
    (ferryWorkflow.contract = some {} ∧
      ∃ p t, ferryWorkflow.networkPolicy? {} "ships" = some p ∧
        ferryWorkflow.triggerPolicy? "ships" = some t ∧ t.Governs ferryCaller ∧
        p.Admits ferryCaller .tcp 8080 ∧ ¬ p.Admits ferryCaller .tcp 8081 ∧
        ¬ p.Admits { ferryCaller with labels := .empty } .tcp 8080) ∧
    quayWorkflow.contract = some {} ∧
      ∃ p, quayWorkflow.networkPolicy? {} "ships" = some p ∧
        p.Admits { ferryCaller with labels := .empty } .tcp 8080 ∧
        p.Admits gatewayPod .tcp 8080 ∧ ¬ p.Admits gatewayPod .tcp 443 ∧
        ¬ p.Admits { ferryCaller with
          namespaceName := "cargo"
          namespaceLabels := .single Cluster.namespaceLabel "cargo" } .tcp 8080 := by
  refine ⟨⟨rfl, ?_⟩, rfl, ?_⟩
  · obtain ⟨p, hpolicy, -, hadmits, hcron⟩ :=
      admits_iff_expects (w := ferryWorkflow) (c := {}) rfl {} "ships"
    obtain ⟨t, htrigger, hcaller⟩ := hcron (by decide)
    -- The caller is governed by the policy for triggers, so the other policy admits it.
    have hgoverns : t.Governs ferryCaller :=
      (governs_triggerPolicy?_iff htrigger).mpr ⟨rfl, by decide⟩
    refine ⟨p, t, hpolicy, htrigger, hgoverns, (hcaller _ hgoverns).2, ?_, ?_⟩
    · rw [hadmits]
      exact fun h => absurd h.2.1 (by decide)
    · rw [hadmits]
      -- Without its label it is no trigger, and nothing else makes it a caller.
      rintro ⟨-, -, ⟨outside, -⟩ | ⟨-, -, role⟩ | ⟨-, app⟩ | ⟨outside, -⟩⟩
      · exact absurd outside (by decide)
      · cases role
      · cases app
      · exact absurd outside (by decide)
  · obtain ⟨p, hpolicy, -, hadmits, -⟩ :=
      admits_iff_expects (w := quayWorkflow) (c := {}) rfl {} "ships"
    refine ⟨p, hpolicy, ?_, ?_, ?_, ?_⟩
    · exact (hadmits _ _ _).mpr ⟨rfl, rfl, .neighbour (by decide) rfl⟩
    · exact (hadmits _ _ _).mpr ⟨rfl, rfl, .gateway (by decide) (by decide)⟩
    · rw [hadmits]
      exact fun h => absurd h.2.1 (by decide)
    · -- Its namespace is neither that of the workflow nor one of those with a part of their own.
      rw [hadmits]
      rintro ⟨-, -, ⟨-, near⟩ | ⟨inside, -, -⟩ | ⟨place, -⟩ | ⟨-, place⟩⟩
      · exact absurd near (by decide)
      · exact absurd inside (by decide)
      · exact absurd place (by decide)
      · exact absurd place (by decide)

end WorkflowPolicy
