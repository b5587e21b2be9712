import WorkflowPolicy.Workflow.Basic

/-!
# Drafts

A workflow as it is written, before it is checked. Every part of a draft has a default, so a draft
with holes is a value too, and the check can report all that is missing at once. Texts that are
not there are empty.
-/

namespace WorkflowPolicy.Draft

/-- A trigger as it is written: the name of its kind, and the field that the kind needs. -/
structure Trigger where
  kind : String := ""
  name : String := ""
  schedule : String := ""
  path : String := ""
  subject : String := ""
  deriving DecidableEq, Repr, Inhabited

/-- A dependency as it is written, with the fields of all protocols. -/
structure Dependency where
  protocol : String := ""
  /-- The kind of target; empty for a service on a known host. -/
  kind : String := ""
  auth : Option Auth := none
  cidr : String := ""
  dynPorts : List String := []
  host : String := ""
  port : Option Int := none
  database : String := ""
  user : String := ""
  subject : String := ""
  container : String := ""
  version : String := ""
  extensions : Table Json := .empty

/-- A block of addresses as it is written. -/
structure Egress where
  cidr : String := ""
  ports : List String := []
  reason : String := ""
  deriving DecidableEq, Repr, Inhabited

/-- A contract as it is written. -/
structure Contract where
  version : String := ""
  dependencies : Option (Table Dependency) := none
  /-- The blocks of the policy section, if there is one. -/
  override : Option (List Egress) := none
  extensions : Table Json := .empty

/-- The settings of a workflow as they are written. -/
structure Execution where
  timeout : String := ""
  retries : Option Nat := none
  extras : Table Json := .empty

/-- **A workflow as it is written.** -/
structure Workflow where
  name : String := ""
  version : String := ""
  description : String := ""
  triggers : List Trigger := []
  nodes : Table Step := .empty
  edges : List Edge := []
  execution : Execution := {}
  declaredNamespace : String := ""
  contract : Option Contract := none
  metadata : Table Json := .empty

end WorkflowPolicy.Draft
