import WorkflowPolicy.Proofs.Access.Egress
import WorkflowPolicy.Proofs.NetworkPolicy.Admission
import WorkflowPolicy.Proofs.Table

/-!
# No accidental wildcards

What is empty in a policy stands for everything: no peers are all peers, no ports are all ports, and
a selector without labels selects all pods. A part that is forgotten in a rule opens it. This module
says where the policies of a workflow have empty parts, and that they have them on purpose
(`NetworkPolicy.Tight`): the rule that lets in any pod of the namespace, where requests come from
outside, and the rules of blocks that were opened by hand at any port.

The rules come from four places, and each has its lemma: `tight_toRule_egress`,
`tight_toRule_ingress`, `tight_callRule`, and `exists_extra_of_port_none` for what has no ports.
-/

namespace WorkflowPolicy

namespace NetworkPolicy

/-- The selectors of a peer. -/
def Peer.selectors (peer : Peer) : List Selector := peer.pods.toList ++ peer.namespaces.toList

/-- **A peer of one kind**: a block of addresses, or pods that are selected. -/
def Peer.OfOneKind (peer : Peer) : Prop :=
  (peer.block.isSome = true ∧ peer.selectors = []) ∨
    (peer.block = none ∧ peer.selectors ≠ [])

/-- Does a selector of the rule select everything? -/
def Rule.selectsAll (r : Rule) : Bool :=
  r.peers.any fun peer => peer.selectors.any fun s => s.labels.isEmpty

/-- All rules of a policy. -/
def rules (p : NetworkPolicy) : List Rule := p.spec.ingress ++ p.spec.egress

/-- **A policy without accidental wildcards.** The rules in which a selector selects everything are
those of the list `openings`, and the rules without ports are for flows out and `AtAnyPort`. -/
structure Tight (p : NetworkPolicy) (openings : List Rule) (AtAnyPort : Rule → Prop) : Prop where
  /-- The policy is for the pods with certain labels. -/
  pods : p.spec.pods.labels ≠ .empty
  /-- Each rule has one peer, and this is a block or selected pods. -/
  onePeer : ∀ r ∈ p.rules, ∃ peer, r.peers = [peer] ∧ peer.OfOneKind
  /-- Other selectors than those of the openings have labels. -/
  selectors : p.rules.filter Rule.selectsAll = openings
  /-- Each rule has one port with a number, or none on purpose. -/
  ports : ∀ r ∈ p.rules, (∃ protocol port, r.ports = [⟨protocol, some port⟩]) ∨
    (r.ports = [] ∧ r ∈ p.spec.egress ∧ AtAnyPort r)

end NetworkPolicy

open NetworkPolicy (Rule Peer PortEntry)

/-- The rule that lets in any pod of the namespace. -/
def openRule : Rule := ⟨[{ pods := some {} }], [⟨.tcp, some Cluster.workflowPort⟩]⟩

/-- The rule comes from a block that was opened by hand without ports. -/
def Workflow.OpensAnyPort (w : Workflow) (r : Rule) : Prop :=
  ∃ c, w.contract = some c ∧ ∃ e ∈ c.extraEgress, e.ports = [] ∧
    ∃ flow ∈ e.egress, r = flow.toRule

/-! ### Rules for flows out -/

theorem ofOneKind_peer (r : EgressRule) : r.peer.OfOneKind := by
  rw [EgressRule.peer]
  -- The cases are those of the peer: a selector for names to be looked up, a block, or a host,
  -- which is a namespace or any address.
  split
  · exact .inr ⟨rfl, by decide⟩
  · split
    · exact .inl ⟨rfl, rfl⟩
    · rw [hostPeer]
      split
      · exact .inr ⟨rfl, List.cons_ne_nil _ _⟩
      · exact .inl ⟨rfl, rfl⟩

theorem selectsAll_toRule_egress (r : EgressRule) : r.toRule.selectsAll = false := by
  rw [Rule.selectsAll, EgressRule.toRule, List.any_cons, List.any_nil, Bool.or_false,
    EgressRule.peer]
  split
  · rfl
  · split
    · rfl
    · rw [hostPeer]
      split <;> rfl

/-- Only a flow at any port has no ports. -/
theorem ports_toRule_egress (r : EgressRule) :
    (∃ protocol port, r.toRule.ports = [⟨protocol, some port⟩]) ∨
      (r.toRule.ports = [] ∧ r.port = none) := by
  rw [EgressRule.toRule]
  cases r.port with
  | some port => exact .inl ⟨_, port, rfl⟩
  | none => exact .inr ⟨rfl, rfl⟩

/-- **Flows at any port come from blocks that were opened without ports.** -/
theorem exists_extra_of_port_none {c : Contract} (h : c.Sound) {r : EgressRule}
    (hr : r ∈ egressRules (some c)) (hport : r.port = none) :
    ∃ e ∈ c.extraEgress, e.ports = [] ∧ r ∈ e.egress := by
  have hdns : ∀ r ∈ dnsRules, r.port ≠ none := by decide
  -- The rules for looking names up have a port, and what a contract asks for has one unless it was
  -- opened by hand without ports.
  rw [egressRules, List.mem_append, mem_dropRepeats, mem_sortBy, mem_declaredEgress_iff h] at hr
  rcases hr with hlookup | hasks
  · exact absurd hport (hdns r hlookup)
  · cases hasks with
    | @opened e block he hblock hports =>
      exact ⟨e, he, hports, (mem_egress_extra_iff (h.readable e he)).mpr
        ⟨block, hblock, .inl ⟨hports, rfl⟩⟩⟩
    | dynamic => cases hport
    | fixed => cases hport
    | openedAt => cases hport

/-! ### Rules for flows in -/

/-- Selectors that a rule for flows in names have labels. -/
def IngressRule.Labelled (r : IngressRule) : Prop :=
  (∀ labels ∈ r.pods, labels ≠ .empty) ∧ ∀ labels ∈ r.namespaces, labels ≠ .empty

theorem ofOneKind_toRule_ingress (r : IngressRule) :
    ∃ peer, r.toRule.peers = [peer] ∧ peer.OfOneKind := by
  refine ⟨_, rfl, .inr ⟨rfl, ?_⟩⟩
  -- A rule that names neither pods nor namespaces has the selector for any pod.
  rw [Peer.selectors, IngressRule.podSelector]
  cases r.pods <;> cases r.namespaces <;> simp

/-- **Only the open rule selects everything.** -/
theorem selectsAll_toRule_ingress {r : IngressRule} (h : r.Labelled) :
    r.toRule.selectsAll = r.isOpen := by
  obtain ⟨port, protocol, pods, namespaces⟩ := r
  have hlabels {labels : Table String} (hne : labels ≠ .empty) : labels.isEmpty = false := by
    rw [Table.isEmpty, List.isEmpty_eq_false_iff]
    exact fun hnil => hne (Table.ext hnil)
  obtain ⟨hpods, hnamespaces⟩ := h
  -- What is empty is only the selector that stands for any pod, where neither of the two is named.
  cases pods with
  | some labels =>
    have hpod := hlabels (hpods labels rfl)
    cases namespaces with
    | some names =>
      simp [Rule.selectsAll, IngressRule.toRule, IngressRule.podSelector, Peer.selectors,
        IngressRule.isOpen, hpod, hlabels (hnamespaces names rfl)]
    | none =>
      simp [Rule.selectsAll, IngressRule.toRule, IngressRule.podSelector, Peer.selectors,
        IngressRule.isOpen, hpod]
  | none =>
    cases namespaces with
    | some names =>
      simp [Rule.selectsAll, IngressRule.toRule, IngressRule.podSelector, Peer.selectors,
        IngressRule.isOpen, hlabels (hnamespaces names rfl)]
    | none => rfl

/-- No flow into a workflow names labels and gives none. -/
theorem labelled_of_mem_admitted {settings : PolicySettings} {w : Workflow} {r : IngressRule}
    (h : r ∈ w.admitted settings) : r.Labelled := by
  have hinsert : ∀ {t : Table String} {k v : String}, t.insert k v ≠ .empty :=
    Table.insert_ne_empty _ _ _
  simp only [Workflow.admitted, ingressRules, List.mem_append, List.mem_singleton] at h
  -- Each of the three kinds of flows has a label of its own.
  rcases h with (rfl | rfl) | h
  · split <;> simp [IngressRule.Labelled, IngressRule.anyPod, IngressRule.triggerPods, Table.single,
      hinsert]
  · simp [IngressRule.Labelled, IngressRule.withPodLabel, IngressRule.fromNamespace, Table.single,
      hinsert]
  · split at h
    · rw [List.mem_singleton.mp h]
      simp [IngressRule.Labelled, IngressRule.fromNamespace, Table.single, hinsert]
    · cases h

/-- **One flow into a workflow is open**, if requests come from outside, and else none. -/
theorem filter_isOpen_admitted (settings : PolicySettings) (w : Workflow) :
    (w.admitted settings).filter IngressRule.isOpen =
      if w.hasWebhook then [IngressRule.anyPod Cluster.workflowPort] else [] := by
  rw [Workflow.admitted, ingressRules]
  -- The other flows name pods or a namespace.
  cases w.hasWebhook <;> rfl

/-- The rules for flows into a workflow that select everything. -/
theorem filter_selectsAll_admitted (settings : PolicySettings) (w : Workflow) :
    ((w.admitted settings).map IngressRule.toRule).filter Rule.selectsAll =
      if w.hasWebhook then [openRule] else [] := by
  have hopen : (w.admitted settings).filter (fun r => r.toRule.selectsAll) =
      (w.admitted settings).filter IngressRule.isOpen :=
    List.filter_congr fun r hr => selectsAll_toRule_ingress (labelled_of_mem_admitted hr)
  have hmap : ((w.admitted settings).map IngressRule.toRule).filter Rule.selectsAll =
      ((w.admitted settings).filter IngressRule.isOpen).map IngressRule.toRule := by
    -- Both filters pick the same flows, so they can be made into rules before or after.
    rw [List.filter_map, ← hopen]
    rfl
  rw [hmap, filter_isOpen_admitted]
  split <;> rfl

/-! ### The two policies of a workflow -/

section Policies

variable {settings : PolicySettings} {w : Workflow} {own : String} {p t : NetworkPolicy}

/-- The policy for the pods of a workflow, whose contract is sound. -/
theorem tight_networkPolicy? (hsound : ∀ c, w.contract = some c → c.Sound)
    (h : w.networkPolicy? settings own = some p) :
    p.Tight (if w.hasWebhook then [openRule] else []) w.OpensAnyPort := by
  obtain ⟨-, hspec⟩ := spec_of_networkPolicy? h
  obtain ⟨c, hcontract, -⟩ := Option.map_eq_some_iff.mp h
  have hrules : p.rules = (w.admitted settings).map IngressRule.toRule ++
      (egressRules w.contract).map EgressRule.toRule := by
    rw [NetworkPolicy.rules, hspec]
  -- The parts of the property go by the two kinds of rules of which the policy is made.
  constructor
  · rw [hspec]
    exact Table.insert_ne_empty _ _ _
  · intro r hr
    rw [hrules, List.mem_append, List.mem_map, List.mem_map] at hr
    obtain ⟨flow, -, rfl⟩ | ⟨flow, -, rfl⟩ := hr
    · exact ofOneKind_toRule_ingress flow
    · exact ⟨_, rfl, ofOneKind_peer flow⟩
  · have hegress :
        ((egressRules w.contract).map EgressRule.toRule).filter Rule.selectsAll = [] := by
      simp [List.filter_eq_nil_iff, selectsAll_toRule_egress]
    rw [hrules, List.filter_append, filter_selectsAll_admitted, hegress, List.append_nil]
  · intro r hr
    rw [hrules, List.mem_append, List.mem_map, List.mem_map] at hr
    obtain ⟨flow, -, rfl⟩ | ⟨flow, hflow, rfl⟩ := hr
    · exact .inl ⟨_, _, rfl⟩
    · refine (ports_toRule_egress flow).imp_right fun ⟨hports, hnone⟩ => ⟨hports, ?_, ?_⟩
      · rw [hspec]
        exact List.mem_map_of_mem hflow
      · -- Without a number the flow was opened by hand.
        rw [hcontract] at hflow
        obtain ⟨e, he, hempty, hmem⟩ :=
          exists_extra_of_port_none (hsound c hcontract) hflow hnone
        exact ⟨c, hcontract, e, he, hempty, flow, hmem, rfl⟩

/-- The policy for the pods that trigger its runs. -/
theorem tight_triggerPolicy? (h : w.triggerPolicy? own = some t) : t.Tight [] fun _ => False := by
  obtain ⟨-, hspec⟩ := spec_of_triggerPolicy? h
  have hrules : t.rules = dnsRules.map EgressRule.toRule ++ [w.callRule] := by
    rw [NetworkPolicy.rules, hspec, List.nil_append]
  have hcall : w.callRule.selectsAll = false := rfl
  -- Here the rules are those for looking names up and the one for the call.
  constructor
  · rw [hspec]
    exact Table.insert_ne_empty _ _ _
  · intro r hr
    rw [hrules, List.mem_append, List.mem_map, List.mem_singleton] at hr
    obtain ⟨flow, -, rfl⟩ | rfl := hr
    · exact ⟨_, rfl, ofOneKind_peer flow⟩
    · exact ⟨_, rfl, .inr ⟨rfl, List.cons_ne_nil _ _⟩⟩
  · rw [hrules]
    simp [List.filter_eq_nil_iff, selectsAll_toRule_egress, hcall]
  · intro r hr
    rw [hrules, List.mem_append, List.mem_map, List.mem_singleton] at hr
    obtain ⟨flow, hflow, rfl⟩ | rfl := hr
    · -- All of these have a port.
      have hdns : ∀ r ∈ dnsRules, r.port ≠ none := by decide
      exact .inl ((ports_toRule_egress flow).resolve_right fun h => hdns flow hflow h.2)
    · exact .inl ⟨_, _, rfl⟩

end Policies

/-- **The policies of an accepted workflow have no accidental wildcards.** There is a policy for the
pods of the workflow if it has a contract, and one for the pods that trigger its runs if it has a
schedule. Both are tight; the first has an open rule only where requests come from outside, and
rules at any port only for blocks that were opened so. Its rules for flows out are those of the
contract, one by one, and the second has no rules for flows in. -/
theorem policies_tight_of_parse {text : String} {w : Workflow} (h : Workflow.parse text = .ok w)
    (settings : PolicySettings) (own : String) :
    (w.networkPolicy? settings own).isSome = w.contract.isSome ∧
    (w.triggerPolicy? own).isSome = w.hasCron ∧
    (∀ p, w.networkPolicy? settings own = some p →
      p.Tight (if w.hasWebhook then [openRule] else []) w.OpensAnyPort ∧
      p.spec.egress = (egressRules w.contract).map EgressRule.toRule) ∧
    ∀ t, w.triggerPolicy? own = some t → t.Tight [] (fun _ => False) ∧ t.spec.ingress = [] := by
  -- The contract of a parsed workflow has passed the check, so what it says can be read.
  have hsound : ∀ c, w.contract = some c → c.Sound := fun c hcontract =>
    sound_of_accepted (.inr ⟨text, w, h, hcontract⟩)
  refine ⟨Option.isSome_map, ?_, fun p hp => ⟨tight_networkPolicy? hsound hp, ?_⟩,
    fun t ht => ⟨tight_triggerPolicy? ht, ?_⟩⟩
  · rw [Workflow.triggerPolicy?]
    split <;> simp_all
  · rw [(spec_of_networkPolicy? hp).2]
  · rw [(spec_of_triggerPolicy? ht).2]

/-- A draft that runs on a schedule and by requests, and opens two blocks, only one of which has
ports. -/
def harvestText : String :=
"name: harvest
version: '1.0'
triggers:
- {type: cron, schedule: 0 * * * *}
- {type: webhook, path: /}
nodes: {pick: {path: pick.ts}}
contract:
  version: '1'
  networkPolicy:
    additionalEgress:
    - toCIDR: 10.0.0.0/8
    - {toCIDR: 172.16.0.0/12, ports: [443]}
"

/-- Both policies of the draft are tight; the first has the open rule, and one rule at any port. -/
theorem harvest_policies_tight : ∃ w p t, Workflow.parse harvestText = .ok w ∧
    w.networkPolicy? {} "farm" = some p ∧ w.triggerPolicy? "farm" = some t ∧
    p.Tight [openRule] w.OpensAnyPort ∧ openRule ∈ p.spec.ingress ∧
    (p.spec.egress.map fun r => r.ports.map PortEntry.port) =
      [[some 53], [some 53], [], [some 443]] ∧
    t.Tight [] fun _ => False := by
  obtain ⟨w, hparse, hcontract, hcron, hwebhook, hports⟩ :
      ∃ w, Workflow.parse harvestText = .ok w ∧ w.contract.isSome ∧ w.hasCron ∧ w.hasWebhook ∧
        (egressRules w.contract).map (fun r => r.toRule.ports.map PortEntry.port) =
          [[some 53], [some 53], [], [some 443]] :=
    Workflow.exists_parse (by decide +kernel)
  obtain ⟨hmain, htrigger, hmainTight, htriggerTight⟩ := policies_tight_of_parse hparse {} "farm"
  obtain ⟨p, hp⟩ := Option.isSome_iff_exists.mp (hmain.trans hcontract)
  obtain ⟨t, ht⟩ := Option.isSome_iff_exists.mp (htrigger.trans hcron)
  obtain ⟨htight, hegress⟩ := hmainTight p hp
  rw [if_pos hwebhook] at htight
  have hopen : openRule ∈ p.rules.filter Rule.selectsAll := by
    rw [htight.selectors]
    exact List.mem_singleton_self _
  refine ⟨w, p, t, hparse, hp, ht, htight, ?_, ?_, (htriggerTight t ht).1⟩
  · -- A rule for flows out does not select everything.
    obtain ⟨hrule, hselects⟩ := List.mem_filter.mp hopen
    refine (List.mem_append.mp hrule).resolve_right fun hout => ?_
    rw [hegress, List.mem_map] at hout
    obtain ⟨flow, -, heq⟩ := hout
    rw [← heq, selectsAll_toRule_egress] at hselects
    cases hselects
  · rw [hegress, List.map_map]
    exact hports

end WorkflowPolicy
