import WorkflowPolicy.Workflow.Contract

/-!
# Secrets

The secrets that the dependencies of a contract need. A secret is named by a service and a key with
a point between them. A target whose host is known at run time only names no service that could
hold one, so its secret is left out.
-/

namespace WorkflowPolicy

/-- The secret of a dependency, if it is to be provided. -/
def Dependency.secret? (d : Dependency) : Option String :=
  if d.target.isDynamic then none else (d.auth.map (·.secret)).filter (!·.isEmpty)

/-- **The secrets of a contract**, each once, in ascending order. -/
def secrets : Option Contract → List String
  | none => []
  | some c => ascending (c.dependencies.values.filterMap Dependency.secret?)

/-- The service of a reference; empty if there is no point. -/
def secretService (reference : String) : String :=
  match Text.splitFirst '.' reference.toList with
  | some (service, _) => String.ofList service
  | none => ""

/-- The key of a reference; empty if there is no point. -/
def secretKey (reference : String) : String :=
  match Text.splitFirst '.' reference.toList with
  | some (_, key) => String.ofList key
  | none => ""

end WorkflowPolicy
