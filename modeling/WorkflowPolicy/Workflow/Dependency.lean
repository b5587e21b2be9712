import WorkflowPolicy.Json.Basic
import WorkflowPolicy.Net.Cidr
import WorkflowPolicy.Net.Port

/-!
# Dependencies

A dependency of a workflow is something outside of it that a run talks to. There are three kinds
of `Target`:

* a service on a host that is known beforehand, `Target.fixed`;
* a package of a registry, `Target.package`, which is loaded through a proxy and never from its
  registry;
* a block of addresses, `Target.dynamic`, where the host is known at run time only.

Only targets of the first kind have a host and may have a port. A port that is not declared is the
default of the protocol (`Target.resolvedPort`), and a protocol goes by its name, so a service that
has no rules of its own takes the default of a known protocol if it has that protocol's name.
-/

namespace WorkflowPolicy

/-- The protocols with rules of their own. -/
inductive Protocol where
  | https
  | postgresql
  | nats
  | blob
  | jsr
  | npm
  deriving DecidableEq, Repr

namespace Protocol

/-- The name of a protocol. -/
def name : Protocol → String
  | .https => "https"
  | .postgresql => "postgresql"
  | .nats => "nats"
  | .blob => "blob"
  | .jsr => "jsr"
  | .npm => "npm"

/-- The protocol of a name. -/
def ofName? (s : String) : Option Protocol :=
  if s == "https" then some .https
  else if s == "postgresql" then some .postgresql
  else if s == "nats" then some .nats
  else if s == "blob" then some .blob
  else if s == "jsr" then some .jsr
  else if s == "npm" then some .npm
  else none

/-- **The port of a protocol** where none is declared. -/
def defaultPort : Protocol → Option Net.Port
  | .https => some 443
  | .postgresql => some 5432
  | .nats => some 4222
  | .blob | .jsr | .npm => none

@[simp] theorem ofName?_name (p : Protocol) : ofName? p.name = some p := by cases p <;> rfl

theorem ofName?_eq_some_iff {s : String} {p : Protocol} : ofName? s = some p ↔ s = p.name := by
  constructor
  · intro h
    unfold ofName? at h
    repeat' split at h
    all_goals simp_all only [beq_iff_eq, Option.some.injEq, reduceCtorEq]
    all_goals subst h; rfl
  · rintro rfl
    exact ofName?_name p

end Protocol

/-- What a service on a known host is. -/
inductive Service where
  | https
  | postgresql (database user : String)
  | nats (subject : String)
  | blob (container : String)
  /-- A service whose protocol has no rules. -/
  | other (protocol : String)
  deriving DecidableEq, Repr, Inhabited

/-- The name of the protocol that a service speaks. -/
def Service.protocolName : Service → String
  | .https => Protocol.https.name
  | .postgresql .. => Protocol.postgresql.name
  | .nats _ => Protocol.nats.name
  | .blob _ => Protocol.blob.name
  | .other protocol => protocol

/-- The port of a service where none is declared: that of the known protocol of its name. -/
def Service.defaultPort? (s : Service) : Option Net.Port :=
  (Protocol.ofName? s.protocolName).bind Protocol.defaultPort

/-- The registries of packages. -/
inductive Registry where
  | jsr
  | npm
  deriving DecidableEq, Repr, Inhabited

/-- The protocol that stands for a registry. -/
def Registry.protocol : Registry → Protocol
  | .jsr => .jsr
  | .npm => .npm

/-- **Where the traffic of a dependency goes.** -/
inductive Target where
  | fixed (service : Service) (host : String) (port : Option Net.Port)
  | package (registry : Registry) (specifier : String) (version : Option String)
  | dynamic (protocol : String) (block : Net.Cidr) (ports : List Net.PortSpec)
  deriving DecidableEq, Repr

namespace Target

/-- The name of the protocol. -/
def protocolName : Target → String
  | .fixed service _ _ => service.protocolName
  | .package registry _ _ => registry.protocol.name
  | .dynamic protocol _ _ => protocol

/-- The protocol, if it has rules. -/
def protocol? (t : Target) : Option Protocol := Protocol.ofName? t.protocolName

/-- The host of a service. -/
def host? : Target → Option String
  | .fixed _ host _ => some host
  | _ => none

/-- The port that is declared. -/
def port? : Target → Option Net.Port
  | .fixed _ _ port => port
  | _ => none

/-- **The port that counts**: the declared one, else the default of the protocol. -/
def resolvedPort? : Target → Option Net.Port
  | .fixed service _ port => port <|> service.defaultPort?
  | _ => none

/-- Is the host known at run time only? -/
def isDynamic : Target → Bool
  | .dynamic .. => true
  | _ => false

/-- Is the target loaded through the package proxy? -/
def isPackage : Target → Bool
  | .package .. => true
  | _ => false

/-- The target with the default of its protocol where no port is declared. -/
def withDefaultPort : Target → Target
  | .fixed service host port => .fixed service host (port <|> service.defaultPort?)
  | t => t

@[simp] theorem protocolName_withDefaultPort (t : Target) :
    t.withDefaultPort.protocolName = t.protocolName := by
  unfold withDefaultPort; split <;> rfl

@[simp] theorem host?_withDefaultPort (t : Target) : t.withDefaultPort.host? = t.host? := by
  unfold withDefaultPort; split <;> rfl

/-- Filling in the default does not change the port that counts. -/
@[simp] theorem resolvedPort?_withDefaultPort (t : Target) :
    t.withDefaultPort.resolvedPort? = t.resolvedPort? := by
  cases t with
  | fixed service host port =>
    simp only [withDefaultPort, resolvedPort?]
    cases port <;> cases service.defaultPort? <;> rfl
  | _ => rfl

end Target

/-- The credentials that a dependency needs. -/
structure Auth where
  kind : String
  /-- A reference to a secret, as a service and a key. -/
  secret : String
  deriving DecidableEq, Repr, Inhabited

/-- **A dependency of a workflow.** -/
structure Dependency where
  target : Target
  auth : Option Auth := none
  /-- What else is said of it. -/
  extensions : Table Json := .empty

/-- The dependency with the default of its protocol where no port is declared. -/
def Dependency.withDefaultPort (d : Dependency) : Dependency :=
  { d with target := d.target.withDefaultPort }

end WorkflowPolicy
