import WorkflowPolicy.NetworkPolicy.Basic
import WorkflowPolicy.Reading.Json

/-!
# Reading network policies

A network policy is read from YAML and from JSON by one reader over a `Source`. What the cluster
adds to the document is passed over. The version, the kind and the content of a policy have to be
there, and so do the name of the object and the addresses of a block; all else has a default.
-/

namespace WorkflowPolicy.NetworkPolicy

open Reading (Source Field)

variable {m : Type → Type} [Monad m] {ν : Type} (src : Source m ν)

/-- Metadata. -/
def Metadata.read : ν → m Metadata :=
  src.record "ObjectMeta"
    [ .needed "name" src.text fun v d => { d with name := v },
      .optional "namespace" src.text fun v d => { d with namespaceName := v },
      .optional "labels" (src.table src.text) fun v d => { d with labels := v },
      .optional "annotations" (src.table src.text) fun v d => { d with annotations := v } ]
    { name := "" }

/-- A kind of traffic. -/
def Direction.read (place : ν) : m Direction := do
  let name ← src.name ["Ingress", "Egress"] place
  return (Direction.ofName? name).getD .ingress

/-- A selector. -/
def Selector.read : ν → m Selector :=
  src.record "LabelSelector"
    [.optional "matchLabels" (src.table src.text) fun v _ => ⟨v⟩] {}

/-- A block of addresses. -/
def IpBlock.read : ν → m IpBlock :=
  src.record "IpBlock"
    [ .needed "cidr" src.text fun v b => { b with cidr := v },
      .optional "except" (src.items src.text) fun v b => { b with except := v } ]
    { cidr := "" }

/-- A peer. -/
def Peer.read : ν → m Peer :=
  src.record "PolicyPeer"
    [ .optional "podSelector" (src.option (Selector.read src)) fun v p => { p with pods := v },
      .optional "namespaceSelector" (src.option (Selector.read src)) fun v p =>
        { p with namespaces := v },
      .optional "ipBlock" (src.option (IpBlock.read src)) fun v p => { p with block := v } ]
    {}

/-- A transport protocol. -/
def readTransport (place : ν) : m Net.Transport := do
  let name ← src.name ["TCP", "UDP"] place
  return (Net.Transport.ofName? name).getD .tcp

/-- A port. -/
def PortEntry.read : ν → m PortEntry :=
  src.record "PolicyPort"
    [ .optional "protocol" (readTransport src) fun v p => { p with protocol := v },
      .optional "port" (src.option src.port) fun v p => { p with port := v } ]
    {}

/-- A rule; `side` names the list of its peers. -/
def Rule.read (title side : String) : ν → m Rule :=
  src.record title
    [ .optional side (src.items (Peer.read src)) fun v r => { r with peers := v },
      .optional "ports" (src.items (PortEntry.read src)) fun v r => { r with ports := v } ]
    {}

/-- The content of a policy. -/
def Spec.read : ν → m Spec :=
  src.record "NetworkPolicySpec"
    [ .optional "podSelector" (Selector.read src) fun v s => { s with pods := v },
      .optional "policyTypes" (src.items (Direction.read src)) fun v s =>
        { s with directions := v },
      .optional "ingress" (src.items (Rule.read src "IngressPolicyRule" "from")) fun v s =>
        { s with ingress := v },
      .optional "egress" (src.items (Rule.read src "EgressPolicyRule" "to")) fun v s =>
        { s with egress := v } ]
    {}

/-- **A policy.** -/
def read : ν → m NetworkPolicy :=
  src.record "PolicyDocument"
    [ .needed "apiVersion" src.text fun v p => { p with apiVersion := v },
      .needed "kind" src.text fun v p => { p with kind := v },
      .needed "metadata" (Metadata.read src) fun v p => { p with metadata := v },
      .needed "spec" (Spec.read src) fun v p => { p with spec := v } ]
    (named "" "")

/-- The policy of a YAML text. -/
def fromYaml (text : String) : Except Reading.Refusal NetworkPolicy :=
  Reading.fromYaml (read Reading.Place.source) text

/-- The policy of a JSON text. -/
def fromJson (text : String) : Except Reading.Refusal NetworkPolicy :=
  Reading.fromJson (read Reading.Member.source) text

end WorkflowPolicy.NetworkPolicy
