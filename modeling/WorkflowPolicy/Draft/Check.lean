import WorkflowPolicy.Draft.Basic
import WorkflowPolicy.Draft.Finding

/-!
# Checking drafts

A check walks through a draft, writes down what it finds, and builds what it can. Every rule that
is violated is written down and the walk goes on, so one pass reports all violations; only a
dependency without a protocol is left at once.

`Check.workflow` builds a workflow from any draft: triggers of no kind are left out, and a contract
with a violation is left out as a whole. What has been built counts only if there is no finding
(`Check.accept`).
-/

namespace WorkflowPolicy.Draft

/-- What has been written down. -/
structure Log where
  findings : List Finding := []
  remarks : List Unknown := []
  deriving DecidableEq, Repr, Inhabited

/-- A walk through a draft. -/
abbrev Check := StateM Log

namespace Check

/-- Writes a finding down. -/
def report (f : Finding) : Check Unit :=
  modify fun log => { log with findings := log.findings ++ [f] }

/-- Writes a finding down if the condition holds. -/
def reportIf (condition : Bool) (f : Finding) : Check Unit :=
  if condition then report f else pure ()

/-- Writes a remark down. -/
def remark (u : Unknown) : Check Unit :=
  modify fun log => { log with remarks := log.remarks ++ [u] }

/-- How much has been found. -/
def count : Check Nat := do return (← get).findings.length

/-- What the walk builds, unless it finds something. -/
def clean {α : Type} (walk : Check (Option α)) : Check (Option α) := do
  let before ← count
  let built ← walk
  return if before < (← count) then none else built

/-- A text, unless it is empty. -/
def nonEmpty (s : String) : Option String := if s.isEmpty then none else some s

/-! ### Triggers -/

/-- What starts a run, from the field that its kind needs. -/
def needed (index : Nat) (kind field value : String) (event : String → Event) :
    Check (Option Event) := do
  if value.isEmpty then
    report (.trigger index (.fieldMissing kind field))
    return none
  else return some (event value)

/-- The event of a trigger. -/
def event (index : Nat) (t : Trigger) : Check (Option Event) :=
  if t.kind = "manual" then return some .manual
  else if t.kind = "cron" then needed index "cron" "schedule" t.schedule .cron
  else if t.kind = "webhook" then needed index "webhook" "path" t.path .webhook
  else if t.kind = "queue" then needed index "queue" "subject" t.subject .queue
  else do
    report (.trigger index (.kindUnknown t.kind))
    return none

/-- The name of a trigger, if it has one, given those of the triggers before it. -/
def triggerName (index : Nat) (name : String) (taken : List String) : Check (Option String) := do
  if name.isEmpty then return none
  else
    reportIf (!Text.isIdent name) (.trigger index (.nameMalformed name))
    reportIf (taken.contains name) (.trigger index (.nameRepeated name))
    return some name

/-- The triggers from the given one on. -/
def triggersFrom (index : Nat) (taken : List String) :
    List Trigger → Check (List WorkflowPolicy.Trigger)
  | [] => return []
  | t :: rest => do
    let event ← event index t
    -- the name is looked at, and taken, even if the kind is unknown
    let name ← triggerName index t.name taken
    let later ← triggersFrom (index + 1) (name.toList ++ taken) rest
    return match event with
      | some event => ⟨name, event⟩ :: later
      | none => later

/-- The triggers of a workflow, at least one of them. -/
def triggers (ts : List Trigger) : Check (List WorkflowPolicy.Trigger) := do
  reportIf ts.isEmpty .noTriggers
  triggersFrom 0 [] ts

/-! ### Nodes and edges -/

/-- One node. -/
def node (name : String) (s : Step) : Check Unit := do
  reportIf (!Text.isIdent name) (.node name .nameMalformed)
  reportIf s.path.isEmpty (.node name .pathMissing)

/-- The nodes in the order of their names, at least one of them. -/
def nodes (ns : Table Step) : Check Unit := do
  reportIf ns.isEmpty .noNodes
  ns.entries.forM fun e => node e.1 e.2

/-- One edge between nodes of the given names. -/
def edge (names : List String) (index : Nat) (e : Edge) : Check Unit := do
  reportIf (!names.contains e.source) (.edge index (.sourceUndefined e.source))
  reportIf (!names.contains e.target) (.edge index (.targetUndefined e.target))
  reportIf (e.source == e.target) (.edge index (.selfLoop e.source))

/-- The edges, and the cycles that they form. -/
def edges (names : List String) (es : List Edge) : Check Unit := do
  es.zipIdx.forM fun e => edge names e.2 e.1
  (Graph.restrict names es).findCycles.forM fun back => report (.cycle back)

/-! ### Dependencies -/

/-- A block of addresses. -/
def cidr (text : String) (missing malformed : Finding) : Check (Option Net.Cidr) := do
  if text.isEmpty then
    report missing
    return none
  else
    match Net.Cidr.parse? text with
    | some block => return some block
    | none =>
      report malformed
      return none

/-- The port specifications from the given one on. -/
def portsFrom (malformed : Nat → String → Finding) (index : Nat) :
    List String → Check (List Net.PortSpec)
  | [] => return []
  | spec :: rest => do
    match Net.PortSpec.parse? spec with
    | some port => return port :: (← portsFrom malformed (index + 1) rest)
    | none =>
      report (malformed index spec)
      portsFrom malformed (index + 1) rest

/-- A target whose host is known at run time only. -/
def dynamicTarget (name : String) (d : Dependency) : Check (Option Target) := do
  let block ← cidr d.cidr (.dependency name .cidrMissing)
    (.dependency name (.cidrMalformed d.cidr))
  reportIf d.dynPorts.isEmpty (.dependency name .dynPortsMissing)
  let ports ← portsFrom (fun j spec => .dependency name (.dynPortMalformed j spec)) 0 d.dynPorts
  return block.map fun block => .dynamic d.protocol block ports

/-- A declared port; zero stands for none. -/
def port (name : String) (declared : Option Int) : Check (Option Net.Port) := do
  match declared with
  | none => return none
  | some p =>
    if p = 0 then return none
    else if 0 < p ∧ p < Nat.pow 2 16 then return some (.ofNat p.toNat)
    else
      report (.dependency name (.portOutOfRange p))
      return none

/-- A field that the protocol needs. -/
def require (name : String) (protocol : Protocol) (field value : String) : Check Unit :=
  reportIf value.isEmpty (.dependency name (.fieldMissing protocol field))

/-- A target of a protocol that has rules. -/
def knownTarget (name : String) (protocol : Protocol) (port : Option Net.Port) (d : Dependency) :
    Check Target := do
  require name protocol "host" d.host
  match protocol with
  | .https => return .fixed .https d.host port
  | .postgresql =>
    require name protocol "database" d.database
    require name protocol "user" d.user
    return .fixed (.postgresql d.database d.user) d.host port
  | .nats =>
    require name protocol "subject" d.subject
    return .fixed (.nats d.subject) d.host port
  | .blob =>
    require name protocol "container" d.container
    return .fixed (.blob d.container) d.host port
  | .jsr => return .package .jsr d.host (nonEmpty d.version)
  | .npm => return .package .npm d.host (nonEmpty d.version)

/-- A target that is known beforehand. -/
def fixedTarget (name : String) (d : Dependency) : Check (Option Target) := do
  let port ← port name d.port
  match Protocol.ofName? d.protocol with
  | none => return some (.fixed (.other d.protocol) d.host port)
  | some protocol => return some (← knownTarget name protocol port d)

/-- Credentials. -/
def auth (name : String) (a : Auth) : Check Unit := do
  reportIf a.kind.isEmpty (.dependency name .authKindMissing)
  if a.secret.isEmpty then report (.dependency name .secretMissing)
  else reportIf (!Text.isSecretRef a.secret) (.dependency name (.secretMalformed a.secret))

/-- The kind of targets whose host is known at run time only. -/
def dynamicKind : String := "dynamic-target"

/-- A dependency that says which protocol it uses. -/
def dependencyWithProtocol (name : String) (d : Dependency) :
    Check (Option WorkflowPolicy.Dependency) := do
  if (Protocol.ofName? d.protocol).isNone then remark ⟨name, d.protocol⟩
  let target ← if d.kind = dynamicKind then dynamicTarget name d else fixedTarget name d
  d.auth.forM (auth name)
  return target.map fun target => ⟨target, d.auth, d.extensions⟩

/-- **One dependency.** -/
def dependency (name : String) (d : Dependency) : Check (Option WorkflowPolicy.Dependency) :=
  clean do
    reportIf (!Text.isIdent name) (.dependency name .nameMalformed)
    if d.protocol.isEmpty then
      report (.dependency name .protocolMissing)
      return none
    else dependencyWithProtocol name d

/-- Dependencies in their order; those with a violation are left out. -/
def dependencies :
    List (String × Dependency) → Roster WorkflowPolicy.Dependency →
      Check (Roster WorkflowPolicy.Dependency)
  | [], built => return built
  | (name, d) :: rest, built => do
    match ← dependency name d with
    | some d => dependencies rest (built.put name d)
    | none => dependencies rest built

/-! ### The contract and the workflow -/

/-- One block of the policy section. -/
def egress (index : Nat) (e : Egress) : Check ExtraEgress := do
  let _ ← cidr e.cidr (.egress index .cidrMissing) (.egress index (.cidrMalformed e.cidr))
  let _ ← portsFrom (fun j spec => .egress index (.portMalformed j spec)) 0 e.ports
  return ⟨e.cidr, e.ports, nonEmpty e.reason⟩

/-- The blocks of the policy section from the given one on. -/
def egressFrom (index : Nat) : List Egress → Check (List ExtraEgress)
  | [] => return []
  | e :: rest => return (← egress index e) :: (← egressFrom (index + 1) rest)

/-- The blocks of the policy section, if there is one. -/
def policySection : Option (List Egress) → Check (Option (List ExtraEgress))
  | none => return none
  | some es => some <$> egressFrom 0 es

/-- The version of a contract. -/
def contractVersion (version : String) : Check Unit :=
  if version.isEmpty then report .contractVersionMissing
  else reportIf (version != WorkflowPolicy.contractVersion) (.contractVersionUnknown version)

/-- **A contract**, unless something is found in it. -/
def contract (c : Contract) : Check (Option WorkflowPolicy.Contract) :=
  clean do
    contractVersion c.version
    let built ← dependencies (c.dependencies.getD .empty).entries .empty
    let override ← policySection c.override
    return some ⟨c.version, built, override, c.extensions⟩

/-- The name and the version of a workflow. -/
def header (name version : String) : Check Unit := do
  if name.isEmpty then report .nameMissing
  else reportIf (!Text.isKebab name) (.nameMalformed name)
  if version.isEmpty then report .versionMissing
  else reportIf (!Text.isVersion version) (.versionMalformed version)

/-- The settings of a workflow. -/
def execution (e : Execution) : WorkflowPolicy.Execution :=
  ⟨nonEmpty e.timeout, e.retries.filter (0 < ·), e.extras⟩

/-- **A workflow**, as far as it can be built. -/
def workflow (w : Workflow) : Check WorkflowPolicy.Workflow := do
  header w.name w.version
  let triggers ← triggers w.triggers
  nodes w.nodes
  edges w.nodes.keys w.edges
  let contract ←
    match w.contract with
    | some c => contract c
    | none => pure none
  return {
    name := w.name
    version := w.version
    description := w.description
    triggers
    nodes := .ofList w.nodes.entries
    edges := w.edges
    execution := execution w.execution
    declaredNamespace := nonEmpty w.declaredNamespace
    contract
    metadata := w.metadata }

/-- **What has been built**, if nothing has been found. -/
def accept {α : Type} (walk : Check α) : Except (List Finding) α :=
  let (built, log) := walk.run {}
  if log.findings.isEmpty then .ok built else .error log.findings

end Check

/-- The contract of a draft, or what is wrong with it. -/
def Contract.validate (c : Contract) : Except (List Finding) WorkflowPolicy.Contract :=
  match (Check.contract c).run {} with
  | (some built, log) => if log.findings.isEmpty then .ok built else .error log.findings
  | (none, log) => .error log.findings

/-- The workflow of a draft, or what is wrong with it. -/
def Workflow.validate (w : Workflow) : Except (List Finding) WorkflowPolicy.Workflow :=
  Check.accept (Check.workflow w)

end WorkflowPolicy.Draft
