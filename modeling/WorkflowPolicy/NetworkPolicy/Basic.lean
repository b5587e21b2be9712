import WorkflowPolicy.Access.Cluster
import WorkflowPolicy.Json.Basic

/-!
# Network policies

The document by which a cluster restricts the traffic of pods. A policy selects pods by their
labels, says which kinds of traffic it restricts, and lists the rules of what is allowed. A rule
allows the traffic between the selected pods and any of its peers on any of its ports.

`NetworkPolicy.toJson` is the document as it is written. Parts that may be left out are left out
when they are empty.
-/

namespace WorkflowPolicy

namespace NetworkPolicy

/-- What is known of the object besides its content. -/
structure Metadata where
  name : String
  namespaceName : String := ""
  labels : Table String := .empty
  annotations : Table String := .empty
  deriving DecidableEq

/-- The kinds of traffic. -/
inductive Direction where
  | ingress
  | egress
  deriving DecidableEq, Repr

/-- The name of a kind of traffic. -/
def Direction.name : Direction → String
  | .ingress => "Ingress"
  | .egress => "Egress"

/-- The kind of traffic of a name. -/
def Direction.ofName? (s : String) : Option Direction :=
  if s == "Ingress" then some .ingress else if s == "Egress" then some .egress else none

/-- What carries all the labels; without labels, everything. -/
structure Selector where
  labels : Table String := .empty
  deriving DecidableEq

/-- A block of addresses without some blocks in it. -/
structure IpBlock where
  cidr : String
  except : List String := []
  deriving DecidableEq, Repr

/-- The other side of the traffic. If both selectors are there, pods have to match both; without
one for namespaces they have to be in the namespace of the policy. -/
structure Peer where
  pods : Option Selector := none
  namespaces : Option Selector := none
  block : Option IpBlock := none
  deriving DecidableEq

/-- A port of a protocol; no number means any port. -/
structure PortEntry where
  protocol : Net.Transport := .tcp
  port : Option Net.Port := none
  deriving DecidableEq, Repr

/-- The traffic with any of the peers on any of the ports; no ports means any port. -/
structure Rule where
  peers : List Peer := []
  ports : List PortEntry := []
  deriving DecidableEq

/-- What a policy restricts. -/
structure Spec where
  pods : Selector := {}
  directions : List Direction := []
  ingress : List Rule := []
  egress : List Rule := []
  deriving DecidableEq

end NetworkPolicy

open NetworkPolicy in
/-- **A network policy.** -/
structure NetworkPolicy where
  apiVersion : String := "networking.k8s.io/v1"
  kind : String := "NetworkPolicy"
  metadata : Metadata
  spec : Spec := {}
  deriving DecidableEq

namespace NetworkPolicy

/-- The policy of that name which says nothing. -/
def named (name namespaceName : String) : NetworkPolicy :=
  { metadata := { name, namespaceName } }

/-- The hosts for which the policy was made, as they are recorded. -/
def recordedHosts? (p : NetworkPolicy) : Option String :=
  p.metadata.annotations.get? Cluster.intendedHosts

/-- The policy with other hosts on record. -/
def recordHosts (p : NetworkPolicy) (hosts : String) : NetworkPolicy :=
  { p with metadata :=
      { p.metadata with
        annotations := p.metadata.annotations.insert Cluster.intendedHosts hosts } }

/-- Does the policy restrict this kind of traffic? -/
def restricts (p : NetworkPolicy) (d : Direction) : Bool := p.spec.directions.contains d

/-! ### Writing -/

/-- A member that is left out under a condition. -/
def memberUnless (isEmpty : Bool) (name : String) (value : Json) : List (String × Json) :=
  if isEmpty then [] else [(name, value)]

/-- A member that may be absent. -/
def optionalMember {α : Type} (name : String) (value : α → Json) :
    Option α → List (String × Json)
  | some a => [(name, value a)]
  | none => []

/-- Labels, if there are any. -/
def labelsMember (name : String) (labels : Table String) : List (String × Json) :=
  memberUnless labels.isEmpty name (Json.textTable labels)

/-- Metadata as JSON. -/
def Metadata.toJson (m : Metadata) : Json :=
  .object ([("name", .string m.name), ("namespace", .string m.namespaceName)] ++
    labelsMember "labels" m.labels ++ labelsMember "annotations" m.annotations)

/-- A selector as JSON. -/
def Selector.toJson (s : Selector) : Json := .object (labelsMember "matchLabels" s.labels)

/-- A block as JSON. -/
def IpBlock.toJson (b : IpBlock) : Json :=
  .object (("cidr", .string b.cidr) ::
    memberUnless b.except.isEmpty "except" (Json.strings b.except))

/-- A peer as JSON. -/
def Peer.toJson (p : Peer) : Json :=
  .object (optionalMember "podSelector" Selector.toJson p.pods ++
    optionalMember "namespaceSelector" Selector.toJson p.namespaces ++
    optionalMember "ipBlock" IpBlock.toJson p.block)

/-- A port as JSON. -/
def PortEntry.toJson (p : PortEntry) : Json :=
  .object (("protocol", .string p.protocol.name) ::
    optionalMember "port" (fun port => Json.int port.toNat) p.port)

/-- A rule as JSON; `side` names the list of its peers. -/
def Rule.toJson (side : String) (r : Rule) : Json :=
  .object ((side, .array (r.peers.map Peer.toJson)) ::
    memberUnless r.ports.isEmpty "ports" (.array (r.ports.map PortEntry.toJson)))

/-- The content of a policy as JSON. -/
def Spec.toJson (s : Spec) : Json :=
  .object ([("podSelector", s.pods.toJson),
      ("policyTypes", Json.strings (s.directions.map Direction.name))] ++
    memberUnless s.ingress.isEmpty "ingress" (.array (s.ingress.map (Rule.toJson "from"))) ++
    memberUnless s.egress.isEmpty "egress" (.array (s.egress.map (Rule.toJson "to"))))

/-- **A policy as JSON.** -/
def toJson (p : NetworkPolicy) : Json :=
  .object [("apiVersion", .string p.apiVersion), ("kind", .string p.kind),
    ("metadata", p.metadata.toJson), ("spec", p.spec.toJson)]

end NetworkPolicy

end WorkflowPolicy
