import WorkflowPolicy.Access.Cluster

/-!
# Settings

What an installation may set: the namespace of workflows that name none, and the parties that every
policy admits. Everything has a default.
-/

namespace WorkflowPolicy

/-- The parties that every policy knows. -/
structure PolicySettings where
  /-- The namespace of the control plane, which may call every workflow. -/
  controlPlaneNamespace : String := "flowpact-system"
  /-- The name of the control plane's pods. -/
  controlPlaneApp : String := "flowpact-mcp"
  /-- The namespace of the gateway, which may call workflows that take requests from outside. -/
  gatewayNamespace : String := "istio-system"
  /-- The proxy from which packages are loaded. -/
  packageProxy : String := Cluster.defaultPackageProxy
  deriving DecidableEq, Repr, Inhabited

/-- **The settings of an installation.** -/
structure Settings where
  /-- The namespace of workflows for which none is given. -/
  defaultNamespace : String := "default"
  policy : PolicySettings := {}
  deriving DecidableEq, Repr, Inhabited

/-- **The namespace that counts**: the one asked for, else the one that the workflow declares, else
the default. An empty name is none. -/
def Settings.namespaceOf (s : Settings) (asked declared : Option String) : String :=
  let name := asked.filter (!·.isEmpty) <|> declared.filter (!·.isEmpty)
  name.getD s.defaultNamespace

end WorkflowPolicy
