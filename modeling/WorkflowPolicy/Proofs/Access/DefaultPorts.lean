import Mathlib.Data.List.Forall2
import WorkflowPolicy.Access.Package
import WorkflowPolicy.Access.Sandbox
import WorkflowPolicy.Access.Secret
import WorkflowPolicy.Drift.Hosts
import WorkflowPolicy.NetworkPolicy.Synthesis

/-!
# Default ports that are written out

Where no port is declared, the default of the protocol counts. The rules of a contract, the command
of its runs and `Contract.withDefaultPorts` each look it up, so that a contract should give the same
access whether its default ports are written out or not.

`Target.PortWritten` is what may happen to a target: nothing, or its default port is written out.
What is derived from a target does not tell the two apart, so contracts that are related in all of
their targets (`Contract.PortsWritten`) give the same access, whichever of the ports are written out
(`Contract.PortsWritten.sameAccess`), and have the same contract with all of them written out.
`default_ports_written_out` is what follows for that one.
-/

namespace WorkflowPolicy

/-- The default of a service is that of the protocol of its name. -/
theorem Service.defaultPort?_eq_some_iff {service : Service} {port : Net.Port} :
    service.defaultPort? = some port ↔ ∃ protocol : Protocol,
      service.protocolName = protocol.name ∧ protocol.defaultPort = some port := by
  simp only [defaultPort?, Option.bind_eq_some_iff, Protocol.ofName?_eq_some_iff]

/-! ### Targets -/

/-- **The port of a target is written out, or nothing has changed.** Only a service on a host gets a
port, only where it declares none, and it gets the default of the protocol of its name. -/
inductive Target.PortWritten : Target → Target → Prop
  | unchanged (t : Target) : PortWritten t t
  | written {service : Service} {protocol : Protocol} {port : Net.Port} (host : String)
      (hname : service.protocolName = protocol.name)
      (hport : protocol.defaultPort = some port) :
      PortWritten (.fixed service host none) (.fixed service host (some port))

namespace Target

theorem portWritten_withDefaultPort (t : Target) : t.PortWritten t.withDefaultPort := by
  cases t with
  | fixed service host port =>
    cases port with
    | some port => exact .unchanged _
    | none =>
      -- Whether there is a port to write out depends on the name of the protocol alone.
      cases hdefault : service.defaultPort? with
      | none =>
        rw [withDefaultPort, hdefault]
        exact .unchanged _
      | some port =>
        obtain ⟨protocol, hname, hport⟩ := Service.defaultPort?_eq_some_iff.mp hdefault
        rw [withDefaultPort, hdefault]
        exact .written host hname hport
  | package => exact .unchanged _
  | dynamic => exact .unchanged _

/-- The port that counts is the one that is written out. -/
theorem port?_withDefaultPort (t : Target) : t.withDefaultPort.port? = t.resolvedPort? := by
  cases t <;> rfl

namespace PortWritten

variable {t t' : Target}

theorem host?_eq (h : t.PortWritten t') : t'.host? = t.host? := by cases h <;> rfl

theorem isDynamic_eq (h : t.PortWritten t') : t'.isDynamic = t.isDynamic := by cases h <;> rfl

theorem packageUrl?_eq (h : t.PortWritten t') (base : String) :
    t'.packageUrl? base = t.packageUrl? base := by
  cases h <;> rfl

theorem isBootstrap_eq (h : t.PortWritten t') : t'.isBootstrap = t.isBootstrap := by
  rw [isBootstrap, isBootstrap, h.host?_eq]

/-- No port is written out but the one that counts anyway. -/
theorem resolvedPort?_eq (h : t.PortWritten t') : t'.resolvedPort? = t.resolvedPort? := by
  cases h with
  | unchanged => rfl
  | written host hname hport =>
    -- What counts where no port is declared is the default that has been written out.
    exact (Service.defaultPort?_eq_some_iff.mpr ⟨_, hname, hport⟩).symm

theorem hostAndPort?_eq (h : t.PortWritten t') : t'.hostAndPort? = t.hostAndPort? := by
  rw [hostAndPort?, hostAndPort?, h.host?_eq, h.resolvedPort?_eq]

theorem egress_eq (h : t.PortWritten t') : t'.egress = t.egress := by
  have hhost := h.host?_eq
  have hport := h.resolvedPort?_eq
  cases h with
  | unchanged => rfl
  -- The target is a service on a host before and after, and its rule is made of the two.
  | written => simp only [egress, hhost, hport]

theorem withDefaultPort_eq (h : t.PortWritten t') : t'.withDefaultPort = t.withDefaultPort := by
  cases h with
  | unchanged => rfl
  | written host hname hport =>
    simp only [withDefaultPort, Service.defaultPort?_eq_some_iff.mpr ⟨_, hname, hport⟩]
    rfl

end PortWritten

end Target

/-! ### Dependencies -/

/-- **The port of a dependency is written out, or nothing has changed.** -/
structure Dependency.PortWritten (d d' : Dependency) : Prop where
  target : d.target.PortWritten d'.target
  rest : d' = { d with target := d'.target }

namespace Dependency

theorem portWritten_withDefaultPort (d : Dependency) : d.PortWritten d.withDefaultPort :=
  ⟨d.target.portWritten_withDefaultPort, rfl⟩

variable {d d' : Dependency}

theorem PortWritten.secret?_eq (h : d.PortWritten d') : d'.secret? = d.secret? := by
  have hauth : d'.auth = d.auth := by rw [h.rest]
  rw [secret?, secret?, h.target.isDynamic_eq, hauth]

theorem PortWritten.withDefaultPort_eq (h : d.PortWritten d') :
    d'.withDefaultPort = d.withDefaultPort := by
  rw [withDefaultPort, withDefaultPort, h.target.withDefaultPort_eq, h.rest]

end Dependency

/-! ### Contracts -/

/-- **Ports of a contract are written out, and nothing else has changed.** -/
structure Contract.PortsWritten (c c' : Contract) : Prop where
  entries : List.Forall₂ (fun e e' => e'.1 = e.1 ∧ e.2.PortWritten e'.2)
    c.dependencies.entries c'.dependencies.entries
  rest : c' = { c with dependencies := c'.dependencies }

/-- The workflow with the given contract. -/
def Workflow.withContract (c : Contract) (w : Workflow) : Workflow := { w with contract := some c }

/-- **Two workflows have the same access**: rules, command, secrets, packages, external hosts and
policy are the same. -/
structure Workflow.SameAccess (w w' : Workflow) : Prop where
  rules : egressRules w'.contract = egressRules w.contract
  command (packageProxy : String) :
    runCommand w'.contract packageProxy = runCommand w.contract packageProxy
  secrets : secrets w'.contract = secrets w.contract
  packages (proxy : String) : prewarmUrls w'.contract proxy = prewarmUrls w.contract proxy
  hosts : w'.contractHosts = w.contractHosts
  policy (settings : PolicySettings) (namespaceName : String) :
    w'.networkPolicy? settings namespaceName = w.networkPolicy? settings namespaceName

namespace Contract

theorem portsWritten_withDefaultPorts (c : Contract) : c.PortsWritten c.withDefaultPorts where
  entries := by
    rw [withDefaultPorts, Roster.map, List.forall₂_map_right_iff, List.forall₂_same]
    exact fun e _ => ⟨rfl, e.2.portWritten_withDefaultPort⟩
  rest := rfl

namespace PortsWritten

variable {c c' : Contract}

/-- What does not change for one entry does not change for the list of them. -/
theorem map_entries {β : Type} {f : String × Dependency → β} (h : c.PortsWritten c')
    (hf : ∀ e e', e'.1 = e.1 → e.2.PortWritten e'.2 → f e' = f e) :
    c'.dependencies.entries.map f = c.dependencies.entries.map f := by
  -- The two lists are mapped entry by entry to equal ones.
  have hmap : List.Forall₂ (· = ·) (c.dependencies.entries.map f)
      (c'.dependencies.entries.map f) :=
    List.rel_map (fun e e' he => (hf e e' he.1 he.2).symm) h.entries
  rw [List.forall₂_eq_eq_eq] at hmap
  exact hmap.symm

theorem map_values {β : Type} {f : Dependency → β} (h : c.PortsWritten c')
    (hf : ∀ d d', d.PortWritten d' → f d' = f d) :
    c'.dependencies.values.map f = c.dependencies.values.map f := by
  rw [Roster.values, Roster.values, List.map_map, List.map_map]
  exact h.map_entries fun e e' _ he => hf e.2 e'.2 he

theorem filterMap_values {β : Type} {f : Dependency → Option β} (h : c.PortsWritten c')
    (hf : ∀ d d', d.PortWritten d' → f d' = f d) :
    c'.dependencies.values.filterMap f = c.dependencies.values.filterMap f := by
  simpa [List.filterMap_map] using congrArg (List.filterMap id) (h.map_values hf)

theorem declaredEgress_eq (h : c.PortsWritten c') : c'.declaredEgress = c.declaredEgress := by
  have hextra : c'.extraEgress = c.extraEgress := by rw [h.rest]; rfl
  have hrules := h.map_values fun d d' hd => hd.target.egress_eq
  rw [declaredEgress, declaredEgress, hextra, List.flatMap_def, hrules, ← List.flatMap_def]

theorem networkFlag_eq (h : c.PortsWritten c') (proxy : String) :
    networkFlag c' proxy = networkFlag c proxy := by
  have hdynamic : c'.hasDynamic = c.hasDynamic := by
    simpa [hasDynamic, List.any_map] using
      congrArg (List.any · id) (h.map_values fun d d' hd => hd.target.isDynamic_eq)
  have hhosts : c'.fixedHosts = c.fixedHosts := by
    rw [fixedHosts, fixedHosts, h.filterMap_values fun d d' hd => hd.target.hostAndPort?_eq]
  rw [networkFlag, networkFlag, hdynamic, hhosts]

/-- **The access is the same**, whichever ports are written out. -/
theorem sameAccess (h : c.PortsWritten c') (w : Workflow) :
    (w.withContract c).SameAccess (w.withContract c') := by
  -- The external hosts and the policy are made of the rules.
  have hrules : egressRules (some c') = egressRules (some c) := by
    rw [egressRules, egressRules, h.declaredEgress_eq]
  constructor
  case rules => exact hrules
  case command =>
    intro packageProxy
    -- There is a command only where there are dependencies, and none is lost.
    have hempty : c'.dependencies.entries.isEmpty = c.dependencies.entries.isEmpty := by
      rw [Bool.eq_iff_iff, List.isEmpty_iff_length_eq_zero, List.isEmpty_iff_length_eq_zero,
        h.entries.length_eq]
    simp only [Workflow.withContract, runCommand, hempty, h.networkFlag_eq]
  case secrets =>
    simp only [Workflow.withContract, secrets, h.filterMap_values fun d d' hd => hd.secret?_eq]
  case packages =>
    intro proxy
    simp only [Workflow.withContract, prewarmUrls,
      h.filterMap_values fun d d' hd => hd.target.packageUrl?_eq (withoutFinalSlashes proxy)]
  case hosts => exact congrArg externalHosts hrules
  case policy =>
    intro settings namespaceName
    simp only [Workflow.networkPolicy?, Workflow.withContract, Option.map_some, hrules]
    rfl

/-- The contracts without registries are related in the same way. -/
theorem withoutBootstrap (h : c.PortsWritten c') :
    c.withoutBootstrap.PortsWritten c'.withoutBootstrap where
  entries := by
    refine List.rel_filter (fun e e' he => ?_) h.entries
    simp only [he.2.target.isBootstrap_eq]
  rest := by
    rw [Contract.withoutBootstrap, h.rest]
    rfl

/-- With all ports written out the contracts are equal. -/
theorem withDefaultPorts_eq (h : c.PortsWritten c') : c'.withDefaultPorts = c.withDefaultPorts := by
  have hdependencies : c'.dependencies.map Dependency.withDefaultPort =
      c.dependencies.map Dependency.withDefaultPort :=
    Roster.ext (h.map_entries fun _ _ hname hd => Prod.ext hname hd.withDefaultPort_eq)
  rw [withDefaultPorts, hdependencies, h.rest]
  rfl

end PortsWritten

/-- Registries are dropped before the ports are written out or after it. -/
theorem withoutBootstrap_withDefaultPorts (c : Contract) :
    c.withDefaultPorts.withoutBootstrap = c.withoutBootstrap.withDefaultPorts := by
  simp only [withoutBootstrap, withDefaultPorts, Roster.filter_map, Dependency.withDefaultPort,
    Target.isBootstrap, Target.host?_withDefaultPort]

end Contract

/-- **Writing out the default ports changes nothing that is derived.** It changes nothing but ports,
writes out every port that counts, and does nothing the second time. The access stays the same, also
without the dependencies on registries, and these may be dropped before or after it. -/
theorem default_ports_written_out (c : Contract) (w : Workflow) :
    c.PortsWritten c.withDefaultPorts ∧
      (∀ d ∈ c.withDefaultPorts.dependencies.values,
        d.target.port? = d.target.resolvedPort?) ∧
      c.withDefaultPorts.withDefaultPorts = c.withDefaultPorts ∧
      (w.withContract c).SameAccess (w.withContract c.withDefaultPorts) ∧
      (w.withContract c).withoutBootstrap.SameAccess
        (w.withContract c.withDefaultPorts).withoutBootstrap ∧
      (w.withContract c.withDefaultPorts).withoutBootstrap =
        w.withContract c.withoutBootstrap.withDefaultPorts := by
  have hwritten := c.portsWritten_withDefaultPorts
  refine ⟨hwritten, fun d hd => ?_, hwritten.withDefaultPorts_eq, hwritten.sameAccess w,
    hwritten.withoutBootstrap.sameAccess w, ?_⟩
  · rw [Contract.withDefaultPorts, Roster.values_map] at hd
    obtain ⟨old, -, rfl⟩ := List.mem_map.mp hd
    rw [Dependency.withDefaultPort, Target.port?_withDefaultPort,
      Target.resolvedPort?_withDefaultPort]
  · rw [← Contract.withoutBootstrap_withDefaultPorts]
    rfl

end WorkflowPolicy
