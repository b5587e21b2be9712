import WorkflowPolicy.Roster
import WorkflowPolicy.Order
import WorkflowPolicy.Workflow.Dependency

/-!
# Contracts

A contract is what a workflow declares of its traffic: its dependencies by name and, where that is
not enough, blocks of addresses that it may reach besides. The dependencies are a `Roster`: their
order has no meaning.
-/

namespace WorkflowPolicy

/-- The version of contracts that is understood. -/
def contractVersion : String := "1"

/-- A block of addresses that is opened by hand. Block and ports are as they are written; no ports
means any port. -/
structure ExtraEgress where
  cidr : String
  ports : List String := []
  reason : Option String := none
  deriving DecidableEq, Repr, Inhabited

/-- **What a workflow declares of its traffic.** -/
structure Contract where
  version : String := contractVersion
  dependencies : Roster Dependency := .empty
  /-- The blocks of the policy section, if there is one. -/
  override : Option (List ExtraEgress) := none
  /-- What else is said in it. -/
  extensions : Table Json := .empty

namespace Contract

/-- The names of the dependencies, ascending. -/
def dependencyNames (c : Contract) : List String := sortTexts c.dependencies.names

/-- The blocks that are opened by hand. -/
def extraEgress (c : Contract) : List ExtraEgress := c.override.getD []

/-- The contract with the default ports filled in. -/
def withDefaultPorts (c : Contract) : Contract :=
  { c with dependencies := c.dependencies.map Dependency.withDefaultPort }

end Contract

end WorkflowPolicy
