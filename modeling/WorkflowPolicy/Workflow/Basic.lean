import WorkflowPolicy.Workflow.Contract
import WorkflowPolicy.Workflow.Trigger

/-!
# Workflows

A workflow is started by triggers and runs its nodes, each a program, in an order that its edges
restrict. This module holds the type and the questions that are asked of a workflow as a whole;
`WorkflowPolicy.Graph` is about its edges, and the modules below `WorkflowPolicy.Access` are about
what its contract lets it do.
-/

namespace WorkflowPolicy

/-- A step of a workflow. -/
structure Step where
  /-- The program that the step runs. -/
  path : String
  capabilities : Table String := .empty
  deriving Inhabited

/-- The output of one step is the input of another. -/
structure Edge where
  source : String
  target : String
  deriving DecidableEq, Repr, Inhabited

/-- How a workflow is run. -/
structure Execution where
  timeout : Option String := none
  retries : Option Nat := none
  /-- What else is set. -/
  extras : Table Json := .empty

/-- All settings in one table; a timeout and retries that are set take the place of extras of
their names. -/
def Execution.table (e : Execution) : Table Json :=
  let withTimeout :=
    match e.timeout with
    | some timeout => e.extras.insert "timeout" (.string timeout)
    | none => e.extras
  match e.retries with
  | some retries => withTimeout.insert "retries" (.int retries)
  | none => withTimeout

/-- **A workflow.** -/
structure Workflow where
  name : String
  version : String := "1.0"
  description : String := ""
  triggers : List Trigger := []
  nodes : Roster Step := .empty
  edges : List Edge := []
  execution : Execution := {}
  /-- The namespace in which it is deployed, if it says so. -/
  declaredNamespace : Option String := none
  contract : Option Contract := none
  metadata : Table Json := .empty

namespace Workflow

/-- Is there a trigger that is a request from outside? -/
def hasWebhook (w : Workflow) : Bool := w.triggers.any (·.event.isWebhook)

/-- Is there a trigger that follows a schedule? -/
def hasCron (w : Workflow) : Bool := w.triggers.any (·.event.isCron)

/-- The names of the nodes, ascending. -/
def nodeNames (w : Workflow) : List String := sortTexts w.nodes.names

/-- The dependencies of the contract, if there is one. -/
def dependencies (w : Workflow) : Roster Dependency :=
  match w.contract with
  | some contract => contract.dependencies
  | none => .empty

end Workflow

end WorkflowPolicy
