import WorkflowPolicy.Proofs.NetworkPolicy.Scope
import WorkflowPolicy.Proofs.Net.Cidr

/-!
# The namespace that an entry for a service opens

The name of a service in the cluster is a label for the service and one for its namespace, with the
ending of services behind them. The pods of a service have names of their own, which are the name of
the service with more labels before it (`serviceHost`).

A policy reaches a service through the namespace in its name, and takes the second label for it.
That is the namespace of a service; of a pod of a service it is a label of the service or of the
pod. So the entry for a name opens the namespace in it exactly if the name is that of a service or
has the same label in the second place (`scoped_to_own_namespace_iff`). Any other name opens the
pods of another namespace and not those it is the name of (`replica_scoped_to_another`).
-/

namespace WorkflowPolicy

open NetworkPolicy (Rule Selector)

/-! ### Names by their labels -/

/-- A label of a name: some text without points. -/
def IsLabel (label : String) : Prop := label ≠ "" ∧ '.' ∉ label.toList

/-- **The name of a service, or of a pod of one**: one label or more, then the namespace, then the
ending of services. -/
def serviceHost (labels : List String) (name : String) : String :=
  Text.joined "." (labels ++ [name]) ++ Cluster.serviceSuffix

/-- A name of this form has a second label. -/
theorem exists_second_label {labels : List String} (name : String) (hne : labels ≠ []) :
    ∃ second, (labels ++ [name])[1]? = some second := by
  cases labels with
  | nil => exact absurd rfl hne
  | cons first rest => cases rest <;> exact ⟨_, rfl⟩

/-- **The second label is taken for the namespace**, whichever label the namespace is. -/
theorem serviceNamespace?_serviceHost {labels : List String} {name second : String}
    (hlabels : ∀ label ∈ labels ++ [name], IsLabel label)
    (hsecond : (labels ++ [name])[1]? = some second) :
    serviceNamespace? (serviceHost labels name) = some second := by
  -- The ending is cut off, and what is left is cut into its labels.
  have hform : (serviceHost labels name).toList =
      (Text.joined "." (labels ++ [name])).toList ++ Cluster.serviceSuffix.toList :=
    String.toList_append
  have hcut : Text.splitAll '.' (Text.joined "." (labels ++ [name])).toList =
      (labels ++ [name]).map String.toList :=
    Text.splitAll_joined_of_not_mem (by decide) (by simp) fun label hmem => (hlabels label hmem).2
  have hget : ((labels ++ [name]).map String.toList).getD 1 [] = second.toList := by
    rw [List.getD_eq_getElem?_getD, List.getElem?_map, hsecond]
    rfl
  -- No label is empty, so a namespace is found.
  have hlabel : second ≠ "" := (hlabels second (List.mem_of_getElem? hsecond)).1
  rw [serviceNamespace?_eq hform, hcut, hget, if_neg (by simpa using hlabel), String.ofList_toList]

/-! ### Entries for one namespace -/

/-- **The entry opens one namespace**: all pods in it, and nothing else. -/
def NetworkPolicy.Rule.IsScopedTo (rule : Rule) (name : String) : Prop :=
  rule.peers = [{ namespaces := some (.label Cluster.namespaceLabel name) }]

/-- No two namespaces are opened by the same entry. -/
theorem NetworkPolicy.Rule.IsScopedTo.unique {rule : Rule} {name name' : String}
    (h : rule.IsScopedTo name) (h' : rule.IsScopedTo name') : name = name' := by
  -- Equal entries have equal labels, and there is one label each.
  have hpeers := h.symm.trans h'
  simp only [List.cons.injEq, NetworkPolicy.Peer.mk.injEq, Option.some.injEq, and_true, true_and,
    Selector.label, Selector.mk.injEq] at hpeers
  have hentries : [(Cluster.namespaceLabel, name)] = [(Cluster.namespaceLabel, name')] :=
    congrArg Table.entries hpeers
  simpa using hentries

/-- The entry for a host in whose name a namespace is found. -/
theorem isScopedTo_toRule {r : EgressRule} {host name : String}
    (hport : r.port ≠ some Cluster.dnsPort) (hhost : r.host? = some host)
    (hname : serviceNamespace? host = some name) : r.toRule.IsScopedTo name := by
  -- Another port than that of the lookups, so the rule is rendered by its host.
  have hdns : r.isDns = false := by simp [EgressRule.isDns, hport]
  obtain ⟨destination, port, protocol⟩ := r
  cases destination with
  | block cidr => cases hhost
  | host host' =>
    obtain rfl : host' = host := Option.some.inj hhost
    rw [Rule.IsScopedTo, EgressRule.toRule, EgressRule.peer, hdns]
    simp only [Bool.false_eq_true, if_false, hostPeer, hname]

/-- The second label is the namespace in the name if no label comes between the two, or if they are
the same. -/
theorem second_label_eq_iff {labels : List String} {name second : String} (hne : labels ≠ [])
    (hsecond : (labels ++ [name])[1]? = some second) :
    second = name ↔ labels.length = 1 ∨ labels[1]? = some name := by
  cases labels with
  | nil => exact absurd rfl hne
  | cons first rest =>
    -- With one label the namespace comes next, and with more the second one of them does.
    cases rest with
    | nil =>
      obtain rfl : name = second := Option.some.inj hsecond
      simp
    | cons next rest =>
      obtain rfl : next = second := Option.some.inj hsecond
      simp

/-- **The entry for a service or a pod opens the namespace that is the second label of the name.**
That is the namespace in the name exactly if the name is that of a service, or if the label in the
second place happens to be the same. -/
theorem scoped_to_own_namespace_iff {r : EgressRule} {labels : List String} {name : String}
    (hne : labels ≠ []) (hlabels : ∀ label ∈ labels ++ [name], IsLabel label)
    (hhost : r.host? = some (serviceHost labels name)) (hport : r.port ≠ some Cluster.dnsPort) :
    (∃ second, (labels ++ [name])[1]? = some second ∧ r.toRule.IsScopedTo second) ∧
    (r.toRule.IsScopedTo name ↔ labels.length = 1 ∨ labels[1]? = some name) := by
  obtain ⟨second, hsecond⟩ := exists_second_label name hne
  -- The second label is found in any case, and it is one namespace only.
  have hscoped : r.toRule.IsScopedTo second :=
    isScopedTo_toRule hport hhost (serviceNamespace?_serviceHost hlabels hsecond)
  refine ⟨⟨second, hsecond, hscoped⟩, ?_⟩
  rw [← second_label_eq_iff hne hsecond]
  constructor
  · exact fun hname => hscoped.unique hname
  · rintro rfl
    exact hscoped

/-- A draft with a dependency on a pod of the service `postgres` in the namespace `data`. -/
def replicaText : String :=
"name: reports
version: '1.0'
triggers:
- type: manual
nodes:
  fetch:
    path: fetch.ts
contract:
  version: '1'
  dependencies:
    replica:
      protocol: postgresql
      host: db-0.postgres.data.svc.cluster.local
      database: app
      user: svc
"

/-- The policy opens a namespace that has the name of the service, and not that of the service. -/
theorem replica_scoped_to_another : ∃ w policy r, Workflow.parse replicaText = .ok w ∧
    w.networkPolicy? {} "default" = some policy ∧ r ∈ egressRules w.contract ∧
    r.host? = some "db-0.postgres.data.svc.cluster.local" ∧ r.port ≠ some Cluster.dnsPort ∧
    r.toRule ∈ policy.spec.egress ∧ r.toRule.IsScopedTo "postgres" ∧
    ¬ r.toRule.IsScopedTo "data" := by
  obtain ⟨w, hparse, hsome, hr⟩ : ∃ w, Workflow.parse replicaText = .ok w ∧
      (w.networkPolicy? {} "default").isSome ∧
      ⟨.host "db-0.postgres.data.svc.cluster.local", some 5432, .tcp⟩ ∈ egressRules w.contract :=
    Workflow.exists_parse (by decide +kernel)
  obtain ⟨policy, hpolicy⟩ := Option.isSome_iff_exists.mp hsome
  have hlabels : ∀ label ∈ ["db-0", "postgres"] ++ ["data"], IsLabel label := by
    unfold IsLabel
    decide
  obtain ⟨⟨second, hsecond, hscoped⟩, hown⟩ :=
    scoped_to_own_namespace_iff
      (r := ⟨.host "db-0.postgres.data.svc.cluster.local", some 5432, .tcp⟩)
      (List.cons_ne_nil _ _) hlabels (by decide) (by decide)
  obtain rfl : "postgres" = second := Option.some.inj hsecond
  refine ⟨w, policy, _, hparse, hpolicy, hr, rfl, by decide, ?_, hscoped, ?_⟩
  · rw [Workflow.egress_networkPolicy hpolicy]
    exact List.mem_map_of_mem hr
  · rw [hown]
    decide

end WorkflowPolicy
