import WorkflowPolicy.Access.Cluster
import WorkflowPolicy.Workflow.Contract

/-!
# Egress

Which flows out of a workflow its contract asks for.

* `egressRules` — the rules of a contract: first the two for looking names up, then the rules of
  its dependencies and of the blocks that it opens by hand, sorted by destination, port and
  protocol and each once. Packages have no rule, since they come from the proxy.
* `EgressRule.isExternal` and its like — what kind of destination a rule has.
* `externalHosts` — the hosts outside of the cluster that rules name, with their ports. This is
  what is recorded for an audit; the port for looking names up is left out.
-/

namespace WorkflowPolicy

open Net (Cidr Port PortSpec Transport)

/-- Where a flow goes. -/
inductive Destination where
  | host (name : String)
  | block (cidr : Cidr)
  deriving DecidableEq, Repr

/-- A destination in words. -/
def Destination.text : Destination → String
  | .host name => name
  | .block cidr => cidr.text

/-- **A flow that is allowed**; no port means any port. -/
structure EgressRule where
  destination : Destination
  port : Option Port
  protocol : Transport
  deriving DecidableEq, Repr

namespace EgressRule

/-- The host of a rule. -/
def host? (r : EgressRule) : Option String :=
  match r.destination with
  | .host name => some name
  | .block _ => none

/-- Is the rule for looking names up? -/
def isDns (r : EgressRule) : Bool :=
  r.port == some Cluster.dnsPort && r.host? == some Cluster.dnsHost

/-- Is the destination a block of addresses? -/
def isBlock (r : EgressRule) : Bool := r.host?.isNone

/-- Does the name say that it is one of a service in the cluster? -/
def isServiceName (host : String) : Bool :=
  (Text.dropEnding? Cluster.serviceSuffix.toList host.toList).isSome

/-- Is the destination a service in the cluster? -/
def isInternal (r : EgressRule) : Bool := r.host?.any isServiceName

/-- **Is the destination a host outside of the cluster?** -/
def isExternal (r : EgressRule) : Bool := !r.isDns && !r.isBlock && !r.isInternal

/-- A host and a port as one text. -/
def hostPortText (host : String) (port : Port) : String := host ++ ":" ++ Net.portText port

/-- The host and the port of a rule that has both. -/
def hostPort? (r : EgressRule) : Option String :=
  match r.host?, r.port with
  | some host, some port => some (hostPortText host port)
  | _, _ => none

/-- No port comes before all ports, and these are ordered by their numbers. -/
def portPrecedes : Option Port → Option Port → Bool
  | none, _ => true
  | some _, none => false
  | some p, some q => p ≤ q

/-- The order of rules: by the text of the destination, then the port, then the protocol. -/
def precedes (a b : EgressRule) : Bool :=
  if a.destination.text ≠ b.destination.text then a.destination.text < b.destination.text
  else if a.port ≠ b.port then portPrecedes a.port b.port
  else a.protocol.precedes b.protocol

end EgressRule

/-- **The external hosts of rules** with their ports, each once. -/
def externalHosts (rules : List EgressRule) : List String :=
  distinct ((rules.filter fun r => r.isExternal && r.port != some Cluster.dnsPort).filterMap
    EgressRule.hostPort?)

/-- **The rules for looking names up**, which every workflow has. -/
def dnsRules : List EgressRule :=
  [Transport.udp, .tcp].map fun protocol =>
    ⟨.host Cluster.dnsHost, some Cluster.dnsPort, protocol⟩

/-- The rules of a target. -/
def Target.egress (t : Target) : List EgressRule :=
  match t with
  | .dynamic _ block ports => ports.map fun p => ⟨.block block, some p.port, p.protocol⟩
  | t =>
    match t.host?.filter (!·.isEmpty), t.resolvedPort? with
    | some host, some port => [⟨.host host, some port, .tcp⟩]
    | _, _ => []

/-- The rules of a block that is opened by hand: one for each of its ports, or one for any port.
What is no block or no port counts as not written. -/
def ExtraEgress.egress (e : ExtraEgress) : List EgressRule :=
  match Cidr.parse? e.cidr with
  | none => []
  | some block =>
    match e.ports.filterMap PortSpec.parse? with
    | [] => [⟨.block block, none, .tcp⟩]
    | ports => ports.map fun p => ⟨.block block, some p.port, p.protocol⟩

/-- What a contract asks for, in its own order and with repetitions. -/
def Contract.declaredEgress (c : Contract) : List EgressRule :=
  c.dependencies.values.flatMap (·.target.egress) ++ c.extraEgress.flatMap ExtraEgress.egress

/-- **The flows that a contract asks for.** Without a contract only names are looked up. -/
def egressRules : Option Contract → List EgressRule
  | none => dnsRules
  | some c => dnsRules ++ dropRepeats (sortBy EgressRule.precedes c.declaredEgress)

end WorkflowPolicy
