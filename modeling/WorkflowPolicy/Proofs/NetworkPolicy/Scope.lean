import WorkflowPolicy.NetworkPolicy.Synthesis
import WorkflowPolicy.Proofs.Access.External

/-!
# How far an entry for egress reaches

A policy knows no host names. A host outside of the cluster is reached through all addresses that
are not private, so the entry for it is wide, and what it was meant for is kept on record for an
audit. A service in the cluster is reached through the namespace in its name, and is not recorded.

Whether a host is recorded goes by the ending of its name, and whether its entry is wide goes by the
namespace in it. The two tests agree but for names with the ending of services and no namespace
before it (`IsUnscopedName`): the entry for such a name is wide and nothing is on record.
`wide_iff_recorded_or_unscoped` says that there is no other exception.
-/

namespace WorkflowPolicy

open NetworkPolicy (Rule)

/-! ### Namespaces in names -/

/-- **A name with the ending of services that names no namespace**: among the labels before the
ending there is no second one, or it is empty. -/
def IsUnscopedName (host : String) : Prop :=
  ∃ service : List Char, host.toList = service ++ Cluster.serviceSuffix.toList ∧
    (Text.splitAll '.' service).getD 1 [] = []

/-- **The namespace in the name of a service is its second label.** -/
theorem serviceNamespace?_eq {host : String} {service : List Char}
    (h : host.toList = service ++ Cluster.serviceSuffix.toList) :
    serviceNamespace? host =
      if (Text.splitAll '.' service).getD 1 [] = [] then none
      else some (String.ofList ((Text.splitAll '.' service).getD 1 [])) := by
  have hservice := Text.dropEnding?_eq_some_iff.mpr h
  rw [serviceNamespace?, hservice]
  simp only [Option.bind_eq_bind, Option.bind_some]
  cases hcut : Text.splitFirst '.' service with
  | none =>
    -- Without a point there is one label only.
    rw [Text.splitAll_of_not_mem (Text.splitFirst_eq_none_iff.mp hcut)]
    simp
  | some parts =>
    obtain ⟨first, rest⟩ := parts
    obtain ⟨rfl, hfirst⟩ := Text.append_of_splitFirst hcut
    have hsecond : (Text.splitAll '.' (first ++ '.' :: rest)).getD 1 [] =
        rest.takeWhile (· != '.') := by
      -- The second label is the first one behind the first point.
      have hhead := @Text.head?_splitAll '.' rest
      rw [Text.splitAll_append hfirst]
      cases hlabels : Text.splitAll '.' rest with
      | nil => exact absurd hlabels (Text.splitAll_ne_nil '.' rest)
      | cons label labels =>
        rw [hlabels] at hhead
        exact Option.some.inj hhead
    rw [hsecond]
    simp

theorem isServiceName_iff {host : String} : EgressRule.isServiceName host = true ↔
    ∃ service, host.toList = service ++ Cluster.serviceSuffix.toList := by
  simp only [EgressRule.isServiceName, Option.isSome_iff_exists, Text.dropEnding?_eq_some_iff]

/-- A name without a namespace is that of no service, or names none. -/
theorem serviceNamespace?_eq_none_iff {host : String} : serviceNamespace? host = none ↔
    EgressRule.isServiceName host = false ∨ IsUnscopedName host := by
  by_cases hservice : ∃ service, host.toList = service ++ Cluster.serviceSuffix.toList
  · obtain ⟨service, h⟩ := hservice
    have hname : EgressRule.isServiceName host = true := isServiceName_iff.mpr ⟨service, h⟩
    have hunscoped : IsUnscopedName host ↔ (Text.splitAll '.' service).getD 1 [] = [] := by
      constructor
      · rintro ⟨service', h', hlabel⟩
        -- Only one text stands before the ending.
        obtain rfl : service = service' := List.append_cancel_right (h.symm.trans h')
        exact hlabel
      · exact fun hlabel => ⟨service, h, hlabel⟩
    rw [serviceNamespace?_eq h, hunscoped, hname]
    simp
  · have hname : EgressRule.isServiceName host = false := by
      rw [Bool.eq_false_iff]
      exact fun h => hservice (isServiceName_iff.mp h)
    have hending : Text.dropEnding? Cluster.serviceSuffix.toList host.toList = none := by
      rw [Option.eq_none_iff_forall_ne_some]
      exact fun service h => hservice ⟨service, Text.dropEnding?_eq_some_iff.mp h⟩
    rw [serviceNamespace?, hending, hname]
    simp

/-- An unscoped name has the ending of services. -/
theorem isServiceName_of_isUnscopedName {host : String} (h : IsUnscopedName host) :
    EgressRule.isServiceName host = true := by
  obtain ⟨service, hservice, -⟩ := h
  exact isServiceName_iff.mpr ⟨service, hservice⟩

/-! ### Wide entries -/

/-- **A wide entry** allows all addresses outside of the cluster. -/
def NetworkPolicy.Rule.IsWide (rule : Rule) : Prop := rule.peers = [{ block := some outsideBlock }]

/-- The rule is for a host whose name is unscoped. -/
def EgressRule.IsUnscoped (r : EgressRule) : Prop :=
  ∃ host, r.host? = some host ∧ IsUnscopedName host

/-- The rule is on record: its host and port are among the external hosts of the rules. -/
def EgressRule.IsRecorded (rules : List EgressRule) (r : EgressRule) : Prop :=
  ∃ text ∈ externalHosts rules, r.hostPort? = some text

/-- Entries are wide for hosts in whose names no namespace is found. -/
theorem isWide_toRule_iff {r : EgressRule} (h : r.port ≠ some Cluster.dnsPort) :
    r.toRule.IsWide ↔ ∃ host, r.host? = some host ∧ serviceNamespace? host = none := by
  have hdns : r.isDns = false := by simp [EgressRule.isDns, h]
  rw [Rule.IsWide, EgressRule.toRule, List.singleton_inj, EgressRule.peer, hdns]
  obtain ⟨destination, port, protocol⟩ := r
  cases destination with
  | host name =>
    simp only [EgressRule.host?, hostPeer, Bool.false_eq_true, if_false, Option.some.injEq,
      exists_eq_left']
    cases serviceNamespace? name <;> simp
  | block cidr =>
    -- A block that is opened as such leaves nothing out.
    simp [EgressRule.host?, outsideBlock, Cluster.privateBlocks]

/-- The record of a policy: its external hosts with commas between them, if there are any. -/
theorem recordedHosts?_networkPolicy {settings : PolicySettings} {w : Workflow}
    {namespaceName : String} {policy : NetworkPolicy}
    (h : w.networkPolicy? settings namespaceName = some policy) :
    policy.recordedHosts? =
      if externalHosts (egressRules w.contract) = [] then none
      else some (Text.joined "," (externalHosts (egressRules w.contract))) := by
  obtain ⟨c, hcontract, rfl⟩ := Option.map_eq_some_iff.mp h
  rw [hcontract]
  simp only [NetworkPolicy.recordedHosts?, Workflow.annotations]
  cases externalHosts (egressRules (some c)) with
  | nil => rfl
  | cons host hosts => simp [Table.single, Table.get?, insertEntry]

/-- **An entry that is not for looking names up is wide exactly if its host is on record or
unscoped**, and never both. -/
theorem wide_iff_recorded_or_unscoped {settings : PolicySettings} {w : Workflow}
    {namespaceName : String} {policy : NetworkPolicy}
    (h : w.networkPolicy? settings namespaceName = some policy) {r : EgressRule}
    (hr : r ∈ egressRules w.contract) (hport : r.port ≠ some Cluster.dnsPort) :
    r.toRule ∈ policy.spec.egress ∧
    policy.recordedHosts? = (if externalHosts (egressRules w.contract) = [] then none
      else some (Text.joined "," (externalHosts (egressRules w.contract)))) ∧
    (r.toRule.IsWide ↔ r.IsRecorded (egressRules w.contract) ∨ r.IsUnscoped) ∧
    ¬ (r.IsRecorded (egressRules w.contract) ∧ r.IsUnscoped) := by
  have hentry : r.toRule ∈ policy.spec.egress := by
    obtain ⟨c, hcontract, rfl⟩ := Option.map_eq_some_iff.mp h
    rw [hcontract] at hr
    exact List.mem_map_of_mem hr
  have hrecorded : r.IsRecorded (egressRules w.contract) ↔
      ∃ host, r.host? = some host ∧ EgressRule.isServiceName host = false :=
    (listed_iff hr hport).trans (EgressRule.isExternal_iff hport)
  refine ⟨hentry, recordedHosts?_networkPolicy h, ?_, ?_⟩
  · rw [isWide_toRule_iff hport, hrecorded, EgressRule.IsUnscoped, ← exists_or]
    simp only [serviceNamespace?_eq_none_iff, and_or_left]
  · rw [hrecorded]
    rintro ⟨⟨host, hhost, houtside⟩, host', hhost', hunscoped⟩
    -- What is recorded has not the ending of services.
    obtain rfl := Option.some.inj (hhost.symm.trans hhost')
    rw [isServiceName_of_isUnscopedName hunscoped] at houtside
    cases houtside

/-- A draft with a dependency on the host `cache.svc.cluster.local`. -/
def cacheText : String :=
"name: reports
version: '1.0'
triggers:
- type: manual
nodes:
  fetch:
    path: fetch.ts
contract:
  version: '1'
  dependencies:
    cache:
      protocol: https
      host: cache.svc.cluster.local
"

/-- A name with one label before the ending opens all addresses outside, and is not on record. -/
theorem cache_wide_and_unrecorded : ∃ w policy r, Workflow.parse cacheText = .ok w ∧
    w.networkPolicy? {} "default" = some policy ∧ r ∈ egressRules w.contract ∧
    r.host? = some "cache.svc.cluster.local" ∧ r.port ≠ some Cluster.dnsPort ∧
    r.toRule ∈ policy.spec.egress ∧ r.toRule.IsWide ∧
    ¬ r.IsRecorded (egressRules w.contract) ∧ policy.recordedHosts? = none := by
  obtain ⟨w, hparse, hsome, hr, hnone⟩ : ∃ w, Workflow.parse cacheText = .ok w ∧
      (w.networkPolicy? {} "default").isSome ∧
      ⟨.host "cache.svc.cluster.local", some 443, .tcp⟩ ∈ egressRules w.contract ∧
      externalHosts (egressRules w.contract) = [] := Workflow.exists_parse (by decide +kernel)
  obtain ⟨policy, hpolicy⟩ := Option.isSome_iff_exists.mp hsome
  have hunscoped : EgressRule.IsUnscoped ⟨.host "cache.svc.cluster.local", some 443, .tcp⟩ :=
    ⟨_, rfl, "cache".toList, by decide, by decide⟩
  obtain ⟨hentry, hrecord, hwide, hboth⟩ := wide_iff_recorded_or_unscoped hpolicy hr (by decide)
  rw [if_pos hnone] at hrecord
  exact ⟨w, policy, _, hparse, hpolicy, hr, rfl, by decide, hentry, hwide.mpr (.inr hunscoped),
    fun hrecorded => hboth ⟨hrecorded, hunscoped⟩, hrecord⟩

end WorkflowPolicy
