import WorkflowPolicy.Access.Egress
import WorkflowPolicy.Access.Ingress
import WorkflowPolicy.NetworkPolicy.Basic
import WorkflowPolicy.Settings.Basic

/-!
# The policies of a workflow

A workflow with a contract has a policy for its pods (`Workflow.networkPolicy?`). It allows the
egress that the contract asks for, and the ingress that the triggers ask for, that of the control
plane, and that of the gateway where requests come from outside. The external hosts of the contract
are recorded as an annotation.

A workflow with a schedule has another policy for the pods that trigger its runs
(`Workflow.triggerPolicy?`), which may look names up and call the workflow.

**Destinations.** Policies know no host names. A service in the cluster is reached through the
namespace in its name; any other host is reached through all addresses that are not private.
-/

namespace WorkflowPolicy

open NetworkPolicy (Selector Peer IpBlock PortEntry Rule)

/-- The selector for one label. -/
def NetworkPolicy.Selector.label (key value : String) : Selector := ⟨.single key value⟩

/-- **The namespace in the name of a service**: the part after the first point, up to the next one
or to the ending. -/
def serviceNamespace? (host : String) : Option String := do
  let service ← Text.dropEnding? Cluster.serviceSuffix.toList host.toList
  let (_, rest) ← Text.splitFirst '.' service
  let name := rest.takeWhile (· != '.')
  if name.isEmpty then none else some (String.ofList name)

/-- The addresses outside of the cluster. -/
def outsideBlock : IpBlock := ⟨Cluster.anyAddress, Cluster.privateBlocks⟩

/-- The peer for a host. -/
def hostPeer (host : String) : Peer :=
  match serviceNamespace? host with
  | some name => { namespaces := some (.label Cluster.namespaceLabel name) }
  | none => { block := some outsideBlock }

/-- The peer that looks names up. -/
def dnsPeer : Peer where
  pods := some (.label Cluster.dnsPodLabel Cluster.dnsPodLabelValue)
  namespaces := some (.label Cluster.namespaceLabel Cluster.dnsNamespace)

namespace EgressRule

/-- The peer of a rule. -/
def peer (r : EgressRule) : Peer :=
  if r.isDns then dnsPeer
  else
    match r.destination with
    | .block cidr => { block := some ⟨cidr.text, []⟩ }
    | .host name => hostPeer name

/-- **A flow out as a rule of a policy.** -/
def toRule (r : EgressRule) : Rule where
  peers := [r.peer]
  ports :=
    match r.port with
    | some port => [⟨r.protocol, some port⟩]
    | none => []

end EgressRule

namespace IngressRule

/-- The pods of a rule. Any pod of the own namespace is written as the selector without labels, any
pod of other namespaces by leaving the selector out. -/
def podSelector (r : IngressRule) : Option Selector :=
  match r.pods, r.namespaces with
  | some labels, _ => some ⟨labels⟩
  | none, none => some {}
  | none, some _ => none

/-- **A flow in as a rule of a policy.** -/
def toRule (r : IngressRule) : Rule where
  peers := [{ pods := r.podSelector, namespaces := r.namespaces.map fun labels => ⟨labels⟩ }]
  ports := [⟨r.protocol, some r.port⟩]

end IngressRule

namespace Workflow

/-- The name of the policy for the pods of a workflow. -/
def policyName (w : Workflow) : String := w.name ++ Cluster.policySuffix

/-- The name of the policy for the pods that trigger a workflow. -/
def triggerPolicyName (w : Workflow) : String := w.name ++ Cluster.triggerPolicySuffix

/-- The labels of what belongs to a workflow. -/
def identity (w : Workflow) : Table String :=
  .ofList [(Cluster.nameLabel, w.name), (Cluster.managedByLabel, Cluster.managedBy)]

/-- All flows into a workflow: its own, and those of the parties that the settings name. -/
def admitted (settings : PolicySettings) (w : Workflow) : List IngressRule :=
  let controlPlane :=
    (IngressRule.fromNamespace Cluster.workflowPort settings.controlPlaneNamespace).withPodLabel
      Cluster.nameLabel settings.controlPlaneApp
  let gateway := IngressRule.fromNamespace Cluster.workflowPort settings.gatewayNamespace
  ingressRules w ++ [controlPlane] ++ (if w.hasWebhook then [gateway] else [])

/-- The annotations of the policy: the external hosts, if there are any. -/
def annotations (rules : List EgressRule) : Table String :=
  match externalHosts rules with
  | [] => .empty
  | hosts => .single Cluster.intendedHosts (Text.joined "," hosts)

/-- **The policy for the pods of a workflow**, if it has a contract. -/
def networkPolicy? (settings : PolicySettings) (w : Workflow) (namespaceName : String) :
    Option NetworkPolicy :=
  w.contract.map fun contract =>
    let rules := egressRules (some contract)
    { metadata :=
        { name := w.policyName
          namespaceName
          labels := w.identity
          annotations := annotations rules }
      spec :=
        { pods := .label Cluster.nameLabel w.name
          directions := [.ingress, .egress]
          ingress := (w.admitted settings).map IngressRule.toRule
          egress := rules.map EgressRule.toRule } }

/-- **A policy opens what the rules of the contract say**, and nothing else. -/
theorem egress_networkPolicy {settings : PolicySettings} {w : Workflow} {namespaceName : String}
    {policy : NetworkPolicy} (h : w.networkPolicy? settings namespaceName = some policy) :
    policy.spec.egress = (egressRules w.contract).map EgressRule.toRule := by
  obtain ⟨c, hcontract, rfl⟩ := Option.map_eq_some_iff.mp h
  rw [hcontract]

/-- A call to the workflow as a rule for those who call. -/
def callRule (w : Workflow) : Rule :=
  ⟨[{ pods := some (.label Cluster.nameLabel w.name) }], [⟨.tcp, some Cluster.workflowPort⟩]⟩

/-- **The policy for the pods that trigger a workflow**, if it has a schedule. -/
def triggerPolicy? (w : Workflow) (namespaceName : String) : Option NetworkPolicy :=
  if w.hasCron then
    some {
      metadata := { name := w.triggerPolicyName, namespaceName, labels := w.identity }
      spec :=
        { pods := .label Cluster.roleLabel Cluster.triggerRole
          directions := [.egress]
          egress := dnsRules.map EgressRule.toRule ++ [w.callRule] } }
  else none

end Workflow

end WorkflowPolicy
