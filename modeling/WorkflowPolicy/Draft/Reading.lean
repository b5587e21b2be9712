import WorkflowPolicy.Draft.Basic
import WorkflowPolicy.Reading.Yaml

/-!
# Reading drafts

How a draft is written in YAML. Fields that stand for one text take any scalar
(`Place.scalar`); lists of ports and the names of capabilities take the text of the scalar as it
is written (`Place.text`).

Entries that are no fields are passed over, except in the settings, the contract and its
dependencies, which keep them as extensions.
-/

namespace WorkflowPolicy.Draft

open Reading (Read Place Field)

/-- A field for one text. -/
def scalarField {σ : Type} (name : String) (set : String → σ → σ) : Field Read Place σ :=
  .optional name Place.scalar set

namespace Trigger

/-- The fields of a trigger. -/
def fields : List (Field Read Place Trigger) :=
  [ scalarField "type" fun v t => { t with kind := v },
    scalarField "name" fun v t => { t with name := v },
    scalarField "schedule" fun v t => { t with schedule := v },
    scalarField "path" fun v t => { t with path := v },
    scalarField "subject" fun v t => { t with subject := v } ]

/-- A trigger. -/
def read : Place → Read Trigger := Place.record "TriggerDocument" fields {}

end Trigger

/-- A node. -/
def readStep : Place → Read Step :=
  Place.record "NodeDocument"
    [ scalarField "path" fun v s => { s with path := v },
      .optional "capabilities" (Place.table Place.text) fun v s => { s with capabilities := v } ]
    ⟨"", .empty⟩

/-- An edge. -/
def readEdge : Place → Read Edge :=
  Place.record "EdgeDocument"
    [ scalarField "from" fun v e => { e with source := v },
      scalarField "to" fun v e => { e with target := v } ]
    ⟨"", ""⟩

/-- Credentials. -/
def readAuth : Place → Read Auth :=
  Place.record "AuthDocument"
    [ scalarField "type" fun v a => { a with kind := v },
      scalarField "secret" fun v a => { a with secret := v } ]
    ⟨"", ""⟩

/-- The namespace of a deployment. -/
def readDeployment : Place → Read String :=
  Place.record "DeploymentDocument" [scalarField "namespace" fun v _ => v] ""

namespace Execution

/-- The fields of the settings. -/
def fields : List (Field Read Place Execution) :=
  [ scalarField "timeout" fun v e => { e with timeout := v },
    .optional "retries" (Place.option (Place.unsigned (Nat.pow 2 32) "u32")) fun v e =>
      { e with retries := v } ]

/-- The settings; what else is set is kept. -/
def read (p : Place) : Read Execution := do
  let (e, extras) ← p.openRecord "ConfigDocument" fields {}
  return { e with extras }

end Execution

namespace Egress

/-- The fields of a block of addresses. -/
def fields : List (Field Read Place Egress) :=
  [ scalarField "toCIDR" fun v e => { e with cidr := v },
    .optional "ports" (Place.items Place.text) fun v e => { e with ports := v },
    scalarField "reason" fun v e => { e with reason := v } ]

/-- A block of addresses. -/
def read : Place → Read Egress := Place.record "EgressDocument" fields {}

end Egress

/-- The policy section of a contract. -/
def readOverride : Place → Read (List Egress) :=
  Place.record "NetworkPolicyDocument"
    [.optional "additionalEgress" (Place.items Egress.read) fun v _ => v] []

namespace Dependency

/-- The fields of a dependency. -/
def fields : List (Field Read Place Dependency) :=
  [ scalarField "protocol" fun v d => { d with protocol := v },
    scalarField "type" fun v d => { d with kind := v },
    .optional "auth" (Place.option readAuth) fun v d => { d with auth := v },
    scalarField "cidr" fun v d => { d with cidr := v },
    .optional "dynPorts" (Place.items Place.text) fun v d => { d with dynPorts := v },
    scalarField "host" fun v d => { d with host := v },
    .optional "port" (Place.option Place.signed) fun v d => { d with port := v },
    scalarField "database" fun v d => { d with database := v },
    scalarField "user" fun v d => { d with user := v },
    scalarField "subject" fun v d => { d with subject := v },
    scalarField "container" fun v d => { d with container := v },
    scalarField "version" fun v d => { d with version := v } ]

/-- A dependency; what else is said of it is kept. -/
def read (p : Place) : Read Dependency := do
  let (d, extensions) ← p.openRecord "DependencyDocument" fields {}
  return { d with extensions }

end Dependency

namespace Contract

/-- The fields of a contract. The policy section goes by two names. -/
def fields : List (Field Read Place Contract) :=
  [ scalarField "version" fun v c => { c with version := v },
    .optional "dependencies" (Place.option (Place.table Dependency.read)) fun v c =>
      { c with dependencies := v },
    { Field.optional "networkPolicy" (Place.option readOverride)
        (fun v (c : Contract) => { c with override := v }) with
      aliases := ["networkPolicyOverride"] } ]

/-- A contract; what else is said in it is kept. -/
def read (p : Place) : Read Contract := do
  let (c, extensions) ← p.openRecord "ContractDocument" fields {}
  return { c with extensions }

end Contract

namespace Workflow

/-- The fields of a workflow. -/
def fields : List (Field Read Place Workflow) :=
  [ scalarField "name" fun v w => { w with name := v },
    scalarField "version" fun v w => { w with version := v },
    scalarField "description" fun v w => { w with description := v },
    .optional "triggers" (Place.items Trigger.read) fun v w => { w with triggers := v },
    .optional "nodes" (Place.table readStep) fun v w => { w with nodes := v },
    .optional "edges" (Place.items readEdge) fun v w => { w with edges := v },
    .optional "config" Execution.read fun v w => { w with execution := v },
    .optional "deployment" readDeployment fun v w => { w with declaredNamespace := v },
    .optional "contract" (Place.option Contract.read) fun v w => { w with contract := v },
    .optional "metadata" (Place.table Place.json) fun v w => { w with metadata := v } ]

/-- **A workflow.** -/
def read : Place → Read Workflow := Place.record "WorkflowDocument" fields {}

end Workflow

end WorkflowPolicy.Draft
