import WorkflowPolicy.Drift.Hosts
import WorkflowPolicy.Json.Write

/-!
# Drift reports

A report sets the hosts that a contract asks for against those that the live policy has on record.
A live host is a bootstrap host, or it is declared, or it is undeclared; a declared host that is not
live is missing. The policy is clean if it has no bootstrap host.
-/

namespace WorkflowPolicy

/-- A host of a live policy. -/
structure LiveHost where
  host : String
  isBootstrap : Bool
  deriving DecidableEq, Repr, Inhabited

/-- **Declared hosts next to live ones.** -/
structure DriftReport where
  workflow : String
  namespaceName : String
  policyName : String
  declared : List String
  live : List LiveHost
  /-- What is declared and not live. -/
  missing : List String
  /-- What is live, no bootstrap host, and not declared. -/
  undeclared : List String
  deriving DecidableEq, Repr, Inhabited

namespace DriftReport

/-- The report on these hosts. -/
def compare (workflow namespaceName policyName : String) (declared live : List String) :
    DriftReport :=
  { workflow
    namespaceName
    policyName
    declared
    live := live.map fun host => ⟨host, isBootstrapHost host⟩
    missing := declared.filter fun host => !live.contains host
    undeclared := live.filter fun host => !isBootstrapHost host && !declared.contains host }

/-- The live hosts that are to be removed. -/
def bootstrapHosts (r : DriftReport) : List String :=
  (r.live.filter (·.isBootstrap)).map (·.host)

/-- The number of live hosts that are to be removed. -/
def bootstrapCount (r : DriftReport) : Nat := (r.live.filter (·.isBootstrap)).length

/-- **Is there no live host to be removed?** -/
def isClean (r : DriftReport) : Bool := r.bootstrapCount == 0

/-- The hosts that a report takes for registries. -/
@[simp] theorem bootstrapHosts_compare (workflow namespaceName policyName : String)
    (declared live : List String) :
    (compare workflow namespaceName policyName declared live).bootstrapHosts =
      live.filter isBootstrapHost := by
  simp [compare, bootstrapHosts, List.filter_map, Function.comp_def]

theorem bootstrapCount_eq (r : DriftReport) : r.bootstrapCount = r.bootstrapHosts.length := by
  rw [bootstrapHosts, List.length_map, bootstrapCount]

/-- A report is clean if it names no host that is to be removed. -/
theorem isClean_iff {r : DriftReport} : r.isClean = true ↔ r.bootstrapHosts = [] := by
  rw [isClean, beq_iff_eq, bootstrapCount_eq, List.length_eq_zero_iff]

/-- A live host as JSON. -/
def liveJson (h : LiveHost) : Json :=
  .object (("host", .string h.host) :: if h.isBootstrap then [("bootstrap", .bool true)] else [])

/-- **A report as JSON.** -/
def toJson (r : DriftReport) : Json :=
  .object [
    ("workflow", .string r.workflow),
    ("namespace", .string r.namespaceName),
    ("contract", .array (r.declared.map fun host => .object [("host", .string host)])),
    ("live", .array (r.live.map liveJson)),
    ("bootstrapCount", .int r.bootstrapCount),
    ("clean", .bool r.isClean),
    ("missing", Json.strings r.missing),
    ("undeclared", Json.strings r.undeclared)]

/-- A line for a host that is as it should be. -/
def plainLine (host : String) : String := "  ✓ " ++ host ++ "\n"

/-- A line for a live host. -/
def liveLine (h : LiveHost) : String :=
  if h.isBootstrap then "  ⚠ " ++ h.host ++ "  [bootstrap, removable with lock]\n"
  else plainLine h.host

/-- The last line of a report. -/
def verdict (r : DriftReport) : String :=
  if r.isClean then "STATUS: Clean, no bootstrap egress rules present."
  else
    "STATUS: " ++ toString r.bootstrapCount ++
      " bootstrap egress rule(s) present. Run lock to remove."

/-- **A report in words.** -/
def text (r : DriftReport) : String :=
  let declared :=
    if r.declared.isEmpty then ""
    else
      "CONTRACT EGRESS (from workflow.yaml):\n" ++ String.join (r.declared.map plainLine) ++ "\n"
  let live := if r.live.isEmpty then "  (none)\n" else String.join (r.live.map liveLine)
  "Workflow:  " ++ r.workflow ++ "\nNamespace: " ++ r.namespaceName ++ "\n\n" ++ declared ++
    "LIVE NETWORK POLICY EGRESS (" ++ r.namespaceName ++ "/" ++ r.policyName ++ "):\n" ++ live ++
    "\n" ++ r.verdict

end DriftReport

end WorkflowPolicy
