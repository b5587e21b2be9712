import WorkflowPolicy.Graph.Cycle

/-!
# Findings

What the check of a draft may find. A `Finding` is a violation, and a draft with a finding is no
workflow; an `Unknown` is a remark about a protocol without rules, which does no harm.

A finding says which part of the draft it is about, and the texts of all findings are in this
module (`Finding.message`).
-/

namespace WorkflowPolicy.Draft

/-- What may be wrong with a trigger. -/
inductive TriggerFault where
  /-- The kind of trigger needs a field that is empty. -/
  | fieldMissing (kind field : String)
  | kindUnknown (kind : String)
  | nameMalformed (name : String)
  | nameRepeated (name : String)
  deriving DecidableEq, Repr

/-- What may be wrong with a node. -/
inductive NodeFault where
  | nameMalformed
  | pathMissing
  deriving DecidableEq, Repr

/-- What may be wrong with an edge. -/
inductive EdgeFault where
  | sourceUndefined (name : String)
  | targetUndefined (name : String)
  | selfLoop (name : String)
  deriving DecidableEq, Repr

/-- What may be wrong with a dependency. -/
inductive DependencyFault where
  | nameMalformed
  | protocolMissing
  | cidrMissing
  | cidrMalformed (cidr : String)
  | dynPortsMissing
  | dynPortMalformed (index : Nat) (spec : String)
  | portOutOfRange (port : Int)
  /-- The protocol needs a field that is empty. -/
  | fieldMissing (protocol : Protocol) (field : String)
  | authKindMissing
  | secretMissing
  | secretMalformed (secret : String)
  deriving DecidableEq, Repr

/-- What may be wrong with a block of addresses. -/
inductive EgressFault where
  | cidrMissing
  | cidrMalformed (cidr : String)
  | portMalformed (index : Nat) (spec : String)
  deriving DecidableEq, Repr

/-- **What may be wrong with a draft.** -/
inductive Finding where
  | nameMissing
  | nameMalformed (name : String)
  | versionMissing
  | versionMalformed (version : String)
  | noTriggers
  | trigger (index : Nat) (fault : TriggerFault)
  | noNodes
  | node (name : String) (fault : NodeFault)
  | edge (index : Nat) (fault : EdgeFault)
  | cycle (back : Edge)
  | contractVersionMissing
  | contractVersionUnknown (version : String)
  | dependency (name : String) (fault : DependencyFault)
  | egress (index : Nat) (fault : EgressFault)
  deriving DecidableEq, Repr

/-- A dependency whose protocol has no rules. -/
structure Unknown where
  name : String
  protocol : String
  deriving DecidableEq, Repr

open Text (quoted)

/-- The form of the names of nodes, triggers and dependencies. -/
def identForm : String := "[a-z][a-z0-9_-]*"

/-- A fault of a trigger in words. -/
def TriggerFault.message : TriggerFault → String
  | .fieldMissing kind field => kind ++ " trigger requires " ++ field
  | .kindUnknown kind =>
    "invalid type " ++ quoted kind ++ " (must be manual, cron, webhook, or queue)"
  | .nameMalformed name => "name must match " ++ identForm ++ ", got: " ++ quoted name
  | .nameRepeated name => "duplicate trigger name " ++ quoted name

/-- A fault of a node in words. -/
def NodeFault.message : NodeFault → String
  | .nameMalformed => "name must match " ++ identForm
  | .pathMissing => "path is required"

/-- A fault of an edge in words. -/
def EdgeFault.message : EdgeFault → String
  | .sourceUndefined name => "from node " ++ quoted name ++ " not defined"
  | .targetUndefined name => "to node " ++ quoted name ++ " not defined"
  | .selfLoop name => "self-loop on " ++ quoted name

/-- A text that is no block of addresses. -/
def cidrMalformedText (cidr : String) : String := "invalid CIDR format " ++ quoted cidr

/-- What follows the dependency in a message about it. -/
def DependencyFault.message : DependencyFault → String
  | .nameMalformed => ": name must match " ++ identForm
  | .protocolMissing => ": protocol is required"
  | .cidrMissing => ": dynamic-target requires cidr"
  | .cidrMalformed cidr => ": " ++ cidrMalformedText cidr
  | .dynPortsMissing => ": dynamic-target requires dynPorts"
  | .dynPortMalformed index spec =>
    ".dynPorts[" ++ toString index ++ "]: " ++ Net.PortSpec.refusal spec
  | .portOutOfRange port => ": port must be in range 1-65535, got: " ++ toString port
  | .fieldMissing protocol field => ": " ++ protocol.name ++ " requires " ++ field
  | .authKindMissing => ": auth.type is required when auth is present"
  | .secretMissing => ": auth.secret is required when auth is present"
  | .secretMalformed secret =>
    ": auth.secret must be in \"service.key\" format, got: " ++ quoted secret

/-- What follows the block in a message about it. -/
def EgressFault.message : EgressFault → String
  | .cidrMissing => ": toCIDR is required"
  | .cidrMalformed cidr => ": " ++ cidrMalformedText cidr
  | .portMalformed index spec =>
    ".ports[" ++ toString index ++ "]: " ++ Net.PortSpec.refusal spec

/-- A dependency as messages name it. -/
def dependencyText (name : String) : String := "contract.dependencies[" ++ quoted name ++ "]"

/-- A block of addresses as messages name it. -/
def egressText (index : Nat) : String :=
  "contract.networkPolicy.additionalEgress[" ++ toString index ++ "]"

/-- **A finding in words.** -/
def Finding.message : Finding → String
  | .nameMissing => "name is required"
  | .nameMalformed name => "name must be kebab-case, got: " ++ quoted name
  | .versionMissing => "version is required"
  | .versionMalformed version => "version must be semver (e.g., 1.0), got: " ++ quoted version
  | .noTriggers => "at least one trigger is required"
  | .trigger index fault => "trigger[" ++ toString index ++ "]: " ++ fault.message
  | .noNodes => "at least one node is required"
  | .node name fault => "node " ++ quoted name ++ ": " ++ fault.message
  | .edge index fault => "edge[" ++ toString index ++ "]: " ++ fault.message
  | .cycle back => "cycle detected: " ++ Graph.cycleText back
  | .contractVersionMissing => "contract.version is required"
  | .contractVersionUnknown version =>
    "contract.version must be \"" ++ contractVersion ++ "\", got: " ++ quoted version
  | .dependency name fault => dependencyText name ++ fault.message
  | .egress index fault => egressText index ++ fault.message

/-- A remark in words. -/
def Unknown.message (u : Unknown) : String :=
  dependencyText u.name ++ ": unknown protocol " ++ quoted u.protocol

end WorkflowPolicy.Draft
