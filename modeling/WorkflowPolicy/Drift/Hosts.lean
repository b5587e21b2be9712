import WorkflowPolicy.Access.Egress
import WorkflowPolicy.NetworkPolicy.Basic
import WorkflowPolicy.Text.Blank
import WorkflowPolicy.Workflow.Basic

/-!
# Hosts on both sides

What a workflow asks for and what a live policy has on record, both as hosts with their ports, so
that the two can be compared.

**Bootstrap hosts** are the registries from which packages are loaded. Packages come from the proxy
now, so a policy that still opens a registry is stale, and a contract does not need it:
`Workflow.withoutBootstrap` is the workflow whose contract no longer names one.
-/

namespace WorkflowPolicy

/-- The registries of packages. -/
def bootstrapHosts : List String := ["jsr.io", "deno.land", "cdn.deno.land", "registry.npmjs.org"]

/-- The name without the port that may follow its last colon. -/
def withoutPort (host : List Char) : List Char :=
  match Text.splitLast ':' host with
  | some (name, port) => if (Net.readPort? port).isSome then name else host
  | none => host

/-- **Is the host a registry?** Blanks around it, the case of its letters and a port after it do
not matter. -/
def isBootstrapHost (host : String) : Bool :=
  let name := withoutPort (Text.smallLetters (Text.trim host.toList))
  bootstrapHosts.contains (String.ofList name)

/-- Is the target a service on a registry? -/
def Target.isBootstrap (t : Target) : Bool := t.host?.any isBootstrapHost

/-- The contract without its dependencies on registries. -/
def Contract.withoutBootstrap (c : Contract) : Contract :=
  { c with dependencies := c.dependencies.filter fun d => !d.target.isBootstrap }

/-- **The workflow without its dependencies on registries.** -/
def Workflow.withoutBootstrap (w : Workflow) : Workflow :=
  { w with contract := w.contract.map Contract.withoutBootstrap }

/-- **The external hosts that the contract of a workflow asks for**, with their ports. -/
def Workflow.contractHosts (w : Workflow) : List String :=
  match w.contract with
  | some c => externalHosts (egressRules (some c))
  | none => []

/-- The hosts of a record: its parts between commas, without blanks around them and without those
that are empty. -/
def hostsOfRecord (record : String) : List String :=
  let parts := (Text.splitAll ',' record.toList).map Text.trim
  (parts.filter (!·.isEmpty)).map String.ofList

/-- **The hosts that a policy has on record.** -/
def NetworkPolicy.liveHosts (p : NetworkPolicy) : List String :=
  match p.recordedHosts? with
  | some record => hostsOfRecord record
  | none => []

/-- The registries among them. -/
def NetworkPolicy.bootstrapHosts (p : NetworkPolicy) : List String :=
  p.liveHosts.filter isBootstrapHost

end WorkflowPolicy
