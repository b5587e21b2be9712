import WorkflowPolicy.Workflow.Basic

/-!
# Packages

Packages are loaded through a proxy, which keeps what it has loaded. `prewarmUrls` are the addresses
at the proxy under which the packages of a contract are found, so that they can be loaded before
the first run.
-/

namespace WorkflowPolicy

/-- The text without the slashes at its end. -/
def withoutFinalSlashes (url : String) : String :=
  String.ofList (url.toList.reverse.dropWhile (· == '/')).reverse

/-- Where a registry is found at a proxy. -/
def Registry.folder : Registry → String
  | .jsr => "/jsr/"
  | .npm => "/"

/-- The address of a target at a proxy, if it is a package. -/
def Target.packageUrl? (base : String) : Target → Option String
  | .package registry specifier version =>
    let url := base ++ registry.folder ++ specifier
    some (match version with
      | some version => url ++ "@" ++ version
      | none => url)
  | _ => none

/-- **The addresses of the packages** at a proxy, each once, in ascending order. There are none if
nothing but slashes is given for the proxy. -/
def prewarmUrls (contract : Option Contract) (proxy : String) : List String :=
  let base := withoutFinalSlashes proxy
  match contract with
  | none => []
  | some c =>
    if base.isEmpty then []
    else ascending (c.dependencies.values.filterMap (·.target.packageUrl? base))

/-- Does the workflow load packages? -/
def Workflow.loadsPackages (w : Workflow) : Bool :=
  w.dependencies.values.any (·.target.isPackage)

end WorkflowPolicy
