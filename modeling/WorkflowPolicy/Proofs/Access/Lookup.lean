import WorkflowPolicy.NetworkPolicy.Synthesis
import WorkflowPolicy.Proofs.Access.DeclarationOrder

/-!
# The rules for looking names up

Every list of rules begins with the two for looking names up, at the service of the cluster and its
port, with either protocol. They stand outside of the part that is sorted and in which repeats are
dropped. A contract may name that service as the host of a dependency, at the same port
(`Contract.DeclaresLookup`); the rule of such a dependency is the second of the two once more.

In the sorted part no other rule stands on the level of that one, since no block is written like the
name of the service. So it is there once, however many dependencies ask for it, and a contract has
two rules for looking names up or three (`lookup_rules_of_contract`). A policy has as many entries
for the pods of that service.
-/

namespace WorkflowPolicy

open Net (Cidr Transport)

namespace EgressRule

/-- **A rule for looking names up.** -/
def lookup (protocol : Transport) : EgressRule :=
  ⟨.host Cluster.dnsHost, some Cluster.dnsPort, protocol⟩

theorem isDns_iff {r : EgressRule} : r.isDns = true ↔ r = lookup r.protocol := by
  obtain ⟨destination, port, protocol⟩ := r
  cases destination with
  | host name => simp [isDns, host?, lookup, and_comm]
  | block cidr => simp [isDns, host?, lookup]

/-- No block is written like the name of the service. -/
theorem text_ne_dnsHost (block : Cidr) : block.text ≠ Cluster.dnsHost := by
  intro heq
  have hslash := block.slash_mem_text
  rw [heq] at hslash
  exact absurd hslash (by decide)

theorem isDns_of_destination_eq {r : EgressRule} {block : Cidr}
    (h : r.destination = .host block.text) : r.isDns = false := by
  rw [← Bool.not_eq_true, isDns_iff]
  intro heq
  rw [heq] at h
  exact text_ne_dnsHost block (Destination.host.inj h).symm

/-- **Rules on one level** are both for looking names up or neither is. -/
theorem isDns_congr {a b : EgressRule} (h : SameLevel precedes a b) : a.isDns = b.isDns := by
  have hblock : ∀ (r : EgressRule) (block : Cidr),
      isDns { r with destination := .block block } = false := fun r block => by simp [isDns, host?]
  -- Different rules on one level are a host that is written like a block and that block.
  rcases eq_or_of_sameLevel h with rfl | ⟨block, ⟨hhost, rfl⟩ | ⟨hhost, rfl⟩⟩
  · rfl
  · rw [isDns_of_destination_eq hhost, hblock]
  · rw [isDns_of_destination_eq hhost, hblock]

/-- **The peer of a rule** is that service exactly if the rule is for looking names up. -/
theorem peer_eq_dnsPeer_iff {r : EgressRule} : r.peer = dnsPeer ↔ r.isDns = true := by
  constructor
  · intro h
    by_contra hother
    -- Only that service is told by the labels of its pods.
    have hpods : r.peer.pods = none := by
      rw [peer, if_neg hother]
      split
      · rfl
      · rw [hostPeer]
        split <;> rfl
    rw [h] at hpods
    cases hpods
  · exact fun h => if_pos h

end EgressRule

open EgressRule (lookup precedes)

namespace Contract

variable {c : Contract}

/-- **A dependency is on the service that looks names up**, at its port. -/
def DeclaresLookup (c : Contract) : Prop := ∃ d ∈ c.dependencies.values,
  d.target.host? = some Cluster.dnsHost ∧ d.target.resolvedPort? = some Cluster.dnsPort

instance (c : Contract) : Decidable c.DeclaresLookup := inferInstanceAs (Decidable (∃ d ∈ _, _ ∧ _))

/-- What a target asks for at that service. -/
theorem mem_egress_isDns_iff {t : Target} {r : EgressRule} : r ∈ t.egress ∧ r.isDns = true ↔
    (t.host? = some Cluster.dnsHost ∧ t.resolvedPort? = some Cluster.dnsPort) ∧
      r = lookup .tcp := by
  rw [mem_egress_target_iff, EgressRule.isDns_iff]
  constructor
  · rintro ⟨⟨_, _, _, -, p, -, rfl⟩ | ⟨service, host, declared, rfl, -, port, hport, rfl⟩, hdns⟩
    · -- The rule of a block has no host.
      cases hdns
    · obtain ⟨rfl, rfl⟩ : host = Cluster.dnsHost ∧ port = Cluster.dnsPort := by
        simpa [lookup] using hdns
      exact ⟨⟨rfl, hport⟩, rfl⟩
  · rintro ⟨⟨hhost, hport⟩, rfl⟩
    refine ⟨.inr ?_, rfl⟩
    -- Only services have a host.
    cases t with
    | fixed service host declared =>
      obtain rfl : host = Cluster.dnsHost := Option.some.inj hhost
      exact ⟨service, _, declared, rfl, by decide, _, hport, rfl⟩
    | package registry specifier version => cases hhost
    | dynamic protocol block ports => cases hhost

/-- **What a contract asks for at that service** is the rule with TCP, if a dependency is on it. -/
theorem mem_filter_isDns_iff {r : EgressRule} :
    r ∈ c.declaredEgress.filter EgressRule.isDns ↔ c.DeclaresLookup ∧ r = lookup .tcp := by
  rw [List.mem_filter, declaredEgress, List.mem_append, List.mem_flatMap, List.mem_flatMap]
  constructor
  · rintro ⟨⟨d, hd, hmem⟩ | ⟨e, -, hmem⟩, hdns⟩
    · obtain ⟨hlookup, rfl⟩ := mem_egress_isDns_iff.mp ⟨hmem, hdns⟩
      exact ⟨⟨d, hd, hlookup⟩, rfl⟩
    · -- A block that is opened by hand has no host.
      have hnone := host?_of_mem_egress_extra hmem
      rw [EgressRule.isDns_iff.mp hdns] at hnone
      cases hnone
  · rintro ⟨⟨d, hd, hlookup⟩, rfl⟩
    obtain ⟨hmem, hdns⟩ := mem_egress_isDns_iff.mpr ⟨hlookup, rfl⟩
    exact ⟨.inl ⟨d, hd, hmem⟩, hdns⟩

/-- In the sorted part there is one rule for looking names up, if a dependency is on the service. -/
theorem filter_isDns_sorted (c : Contract) :
    (dropRepeats (sortBy precedes c.declaredEgress)).filter EgressRule.isDns =
      if c.DeclaresLookup then [lookup .tcp] else [] := by
  rw [EgressRule.filter_sorted fun a b hab hba => EgressRule.isDns_congr ⟨hab, hba⟩]
  have hmem : ∀ r, r ∈ sortBy precedes (c.declaredEgress.filter EgressRule.isDns) ↔
      c.DeclaresLookup ∧ r = lookup .tcp := fun r => by rw [mem_sortBy, mem_filter_isDns_iff]
  -- From here on only the elements of the list count, not their order.
  generalize sortBy precedes (c.declaredEgress.filter EgressRule.isDns) = rules at hmem
  split
  · next hdeclares =>
    -- The list is not empty, and all of it is this rule.
    have hall : rules = List.replicate rules.length (lookup .tcp) :=
      List.eq_replicate_of_mem fun r hr => ((hmem r).mp hr).2
    have hpos : 0 < rules.length := List.length_pos_of_mem ((hmem _).mpr ⟨hdeclares, rfl⟩)
    rw [hall, ← Nat.sub_add_cancel hpos, dropRepeats_replicate]
  · next hother =>
    have hnil : rules = [] :=
      List.eq_nil_iff_forall_not_mem.mpr fun r hr => hother ((hmem r).mp hr).1
    rw [hnil, dropRepeats]

end Contract

/-- The entries of a policy for that service are those of the rules for looking names up. -/
theorem filter_egress_networkPolicy {settings : PolicySettings} {w : Workflow}
    {namespaceName : String} {policy : NetworkPolicy}
    (h : w.networkPolicy? settings namespaceName = some policy) :
    (policy.spec.egress.filter fun entry => entry.peers = [dnsPeer]) =
      ((egressRules w.contract).filter EgressRule.isDns).map EgressRule.toRule := by
  rw [Workflow.egress_networkPolicy h, List.filter_map]
  refine congrArg (List.map _) (List.filter_congr fun r _ => ?_)
  rw [Function.comp_apply, Bool.eq_iff_iff, decide_eq_true_eq, EgressRule.toRule,
    List.singleton_inj, EgressRule.peer_eq_dnsPeer_iff]

/-- **Two rules for looking names up, or three.** The rules of any contract, and those without one,
begin with the rules for looking names up with UDP and with TCP. The one with TCP comes once more
exactly if a dependency is on the service, at its port; there are no others. The entries of the
policy for that service are those of these rules. -/
theorem lookup_rules_of_contract (contract : Option Contract) :
    (∃ rules, egressRules contract = lookup .udp :: lookup .tcp :: rules) ∧
    (egressRules contract).filter EgressRule.isDns = lookup .udp :: lookup .tcp ::
      (if ∃ c ∈ contract, c.DeclaresLookup then [lookup .tcp] else []) ∧
    ∀ (settings : PolicySettings) (w : Workflow) namespaceName policy, w.contract = contract →
      w.networkPolicy? settings namespaceName = some policy →
      (policy.spec.egress.filter fun entry => entry.peers = [dnsPeer]) =
        ((egressRules contract).filter EgressRule.isDns).map EgressRule.toRule := by
  have hfirst : dnsRules.filter EgressRule.isDns = [lookup .udp, lookup .tcp] := by decide
  refine ⟨?_, ?_, ?_⟩
  · cases contract with
    | none => exact ⟨[], rfl⟩
    | some c => exact ⟨_, rfl⟩
  · cases contract with
    | none => simpa [egressRules] using hfirst
    | some c =>
      rw [egressRules, List.filter_append, hfirst, c.filter_isDns_sorted]
      simp
  · rintro settings w namespaceName policy rfl hpolicy
    exact filter_egress_networkPolicy hpolicy

/-- A draft with a dependency on the service that looks names up. -/
def resolverText : String :=
"name: lookups
version: '1.0'
triggers:
- type: manual
nodes:
  fetch:
    path: fetch.ts
contract:
  version: '1'
  dependencies:
    resolver:
      protocol: https
      host: kube-dns.kube-system.svc.cluster.local
      port: 53
"

/-- **A rule that comes twice.** The draft is accepted, and its policy has three entries for the
service. The contract of `officeDraft`, which has a port 53 as well, has two rules. -/
theorem resolver_rule_repeated :
    (∃ w policy, Workflow.parse resolverText = .ok w ∧
      w.networkPolicy? {} "default" = some policy ∧
      (egressRules w.contract).filter EgressRule.isDns = [lookup .udp, lookup .tcp, lookup .tcp] ∧
      (policy.spec.egress.filter fun entry => entry.peers = [dnsPeer]).length = 3) ∧
    (egressRules (some officeContract)).filter EgressRule.isDns = [lookup .udp, lookup .tcp] := by
  constructor
  · obtain ⟨w, hparse, hsome, hdeclares⟩ : ∃ w, Workflow.parse resolverText = .ok w ∧
        (w.networkPolicy? {} "default").isSome ∧ ∃ c ∈ w.contract, c.DeclaresLookup :=
      Workflow.exists_parse (by decide +kernel)
    obtain ⟨policy, hpolicy⟩ := Option.isSome_iff_exists.mp hsome
    obtain ⟨-, hrules, hentries⟩ := lookup_rules_of_contract w.contract
    rw [if_pos hdeclares] at hrules
    refine ⟨w, policy, hparse, hpolicy, hrules, ?_⟩
    rw [hentries {} w "default" policy rfl hpolicy, hrules]
    rfl
  · obtain ⟨-, hrules, -⟩ := lookup_rules_of_contract (some officeContract)
    have hother : ¬ ∃ c ∈ some officeContract, c.DeclaresLookup := by decide +kernel
    rw [hrules, if_neg hother]

end WorkflowPolicy
