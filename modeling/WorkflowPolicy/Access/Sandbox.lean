import WorkflowPolicy.Access.Egress

/-!
# The sandbox of a run

The command that runs a workflow, with the rights that its contract gives it. The network is open
to the address on which the workflow listens, to the hosts of its dependencies and to the package
proxy. If the host of a dependency is known at run time only, the network is open without a list.

A contract without dependencies gives no command; the caller has one for that case.
-/

namespace WorkflowPolicy

/-- Order by host, then by port. -/
def hostPrecedes (a b : String × Net.Port) : Bool :=
  if a.1 ≠ b.1 then a.1 < b.1 else a.2 ≤ b.2

/-- The host and the port that a target needs, if it has both. -/
def Target.hostAndPort? (t : Target) : Option (String × Net.Port) :=
  match t.host?.filter (!·.isEmpty), t.resolvedPort? with
  | some host, some port => some (host, port)
  | _, _ => none

/-- The hosts of a contract with their ports, each once, in order. -/
def Contract.fixedHosts (c : Contract) : List (String × Net.Port) :=
  dropRepeats (sortBy hostPrecedes (c.dependencies.values.filterMap (·.target.hostAndPort?)))

/-- Is there a target whose host is known at run time only? -/
def Contract.hasDynamic (c : Contract) : Bool := c.dependencies.values.any (·.target.isDynamic)

/-- The right to use the network. -/
def networkFlag (c : Contract) (proxy : String) : String :=
  if c.hasDynamic then "--allow-net"
  else
    let hosts := c.fixedHosts.map fun (host, port) => EgressRule.hostPortText host port
    "--allow-net=" ++ Text.joined "," (Cluster.listenAddress :: hosts ++ [proxy])

/-- **The command that runs a workflow**, word by word. -/
def runCommand (contract : Option Contract) (packageProxy : String) : Option (List String) :=
  match contract with
  | none => none
  | some c =>
    if c.dependencies.entries.isEmpty then none
    else
      let proxy := if packageProxy.isEmpty then Cluster.defaultPackageProxy else packageProxy
      some [
        "deno",
        "run",
        "--no-lock",
        "--unstable-net",
        networkFlag c proxy,
        "--allow-read=/app,/var/run/secrets",
        "--allow-write=/tmp",
        "--allow-env=DENO_DIR,HOME",
        "--allow-import=" ++ proxy,
        "engine/main.ts",
        "--workflow",
        "/app/workflow/workflow.yaml",
        "--port",
        Net.portText Cluster.workflowPort ]

end WorkflowPolicy
