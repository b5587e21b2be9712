import WorkflowPolicy.Proofs.Drift.Detection

/-!
# What a lock opens

A lock reads one policy and writes another, which is made anew from the contract. It takes the
registries off the record. If the live policy has drifted from the contract, then it brings the
contract back as well, and a host that is declared and was not live becomes live
(`release_lock_opens`). So a lock narrows a policy to its contract and not below it.

`lock_narrows_to_contract` says for every store what may become live. It is declared and no
registry, and it was live before unless a report on the same state counts it as missing.
-/

namespace WorkflowPolicy

namespace Workflow

variable {σ : Type} {keeper : Keeper σ} {settings : Settings} {asked : Option String}
  {w : Workflow} {s s' : σ}

/-- The hosts that are declared without the registries are all declared. -/
theorem mem_contractHosts_of_withoutBootstrap {text : String}
    (h : text ∈ w.withoutBootstrap.contractHosts) : text ∈ w.contractHosts := by
  -- A kept host is an external host of the contract with its port, as any other.
  obtain ⟨host, port, rfl⟩ := exists_hostPort_of_mem_contractHosts h
  exact (mem_contractHosts_withoutBootstrap.mp h).1

/-- Whatever is live has been read from a record. -/
theorem comesBack_of_mem_liveHosts {live : NetworkPolicy} {host : String}
    (h : host ∈ live.liveHosts) : ComesBack host := by
  unfold NetworkPolicy.liveHosts at h
  split at h
  · exact comesBack_of_mem_hostsOfRecord h
  · cases h

/-- The parts of a host that is live are no more than the host. -/
theorem mem_liveHosts_of_mem_hostsOfRecord {live : NetworkPolicy} {text part : String}
    (htext : text ∈ w.contractHosts) (hlive : text ∈ live.liveHosts)
    (hpart : part ∈ hostsOfRecord text) : part ∈ live.liveHosts := by
  -- A live host comes back, so it is its own only part.
  rw [hostsOfRecord_of_comesBack (comesBack_of_mem_liveHosts hlive)
    (ne_empty_of_mem_contractHosts htext), List.mem_singleton] at hpart
  rwa [hpart]

/-- **A policy that has been narrowed to the contract** of a workflow, and what a report has said of
the policy before. -/
structure NarrowedTo (w : Workflow) (live : NetworkPolicy) (report : DriftReport)
    (removed : List String) (policy : NetworkPolicy) : Prop where
  /-- What is removed are the registries on record. -/
  registries : removed = live.bootstrapHosts
  /-- What is open is what the contract asks for, but for the registries. -/
  egress : policy.spec.egress =
    ((egressRules w.contract).filter (!·.isBootstrap)).map EgressRule.toRule
  /-- What is live is declared. -/
  declared : ∀ host ∈ policy.liveHosts,
    ∃ text ∈ w.withoutBootstrap.contractHosts, host ∈ hostsOfRecord text
  /-- What is live was live before, or was missing. -/
  opened : ∀ host ∈ policy.liveHosts,
    host ∈ live.liveHosts ∨ ∃ text ∈ report.missing, host ∈ hostsOfRecord text
  /-- Nothing becomes live exactly if of what was missing only the registries were not live. -/
  narrows : (∀ host ∈ policy.liveHosts, host ∈ live.liveHosts) ↔
    ∀ text ∈ report.missing, text ∈ w.withoutBootstrap.contractHosts →
      ∀ part ∈ hostsOfRecord text, part ∈ live.liveHosts
  /-- What is live has not been removed, unless it was hidden. -/
  closed : ¬ w.HidesRegistry → ∀ host ∈ policy.liveHosts, host ∉ removed

/-- The policy that is made without registries narrows any live one to the contract. -/
theorem narrowedTo_of_networkPolicy {policySettings : PolicySettings} {namespaceName : String}
    {policy live : NetworkPolicy} {liveNamespace policyName : String}
    (h : w.withoutBootstrap.networkPolicy? policySettings namespaceName = some policy) :
    w.NarrowedTo live (.compare w.name liveNamespace policyName w.contractHosts live.liveHosts)
      live.bootstrapHosts policy := by
  -- What the new policy has on record are the parts of the hosts that were kept.
  have hrecord : ∀ host, host ∈ policy.liveHosts ↔
      ∃ text ∈ w.withoutBootstrap.contractHosts, host ∈ hostsOfRecord text := by
    intro host
    rw [liveHosts_networkPolicy h, List.mem_flatMap]
  -- What the report counts as missing is declared and was not live.
  have hmissing : ∀ text, text ∈ (DriftReport.compare w.name liveNamespace policyName
      w.contractHosts live.liveHosts).missing ↔ text ∈ w.contractHosts ∧ text ∉ live.liveHosts := by
    intro text
    simp [DriftReport.compare]
  constructor
  case registries => rfl
  case egress => rw [egress_networkPolicy h, egressRules_withoutBootstrap]
  case declared => exact fun host hhost => (hrecord host).mp hhost
  case opened =>
    intro host hhost
    obtain ⟨text, hkept, hpart⟩ := (hrecord host).mp hhost
    have htext := mem_contractHosts_of_withoutBootstrap hkept
    -- A part of a host that was live is live, and a host that was not live is missing.
    by_cases hlive : text ∈ live.liveHosts
    · exact .inl (mem_liveHosts_of_mem_hostsOfRecord htext hlive hpart)
    · exact .inr ⟨text, (hmissing text).mpr ⟨htext, hlive⟩, hpart⟩
  case narrows =>
    constructor
    · intro hnarrow text _ hkept part hpart
      exact hnarrow part ((hrecord part).mpr ⟨text, hkept, hpart⟩)
    · intro hold host hhost
      -- A live host is part of a kept one, and that is either live itself or among the missing.
      obtain ⟨text, hkept, hpart⟩ := (hrecord host).mp hhost
      have htext := mem_contractHosts_of_withoutBootstrap hkept
      by_cases hlive : text ∈ live.liveHosts
      · exact mem_liveHosts_of_mem_hostsOfRecord htext hlive hpart
      · exact hold text ((hmissing text).mpr ⟨htext, hlive⟩) hkept host hpart
  case closed =>
    intro hhides host hhost hremoved
    -- What has been removed is a registry, and the new policy has none on record.
    have hclean := (bootstrapHosts_networkPolicy_eq_nil_iff h).mpr hhides
    have hstale : host ∈ policy.bootstrapHosts :=
      List.mem_filter.mpr ⟨hhost, (List.mem_filter.mp hremoved).2⟩
    rw [hclean] at hstale
    cases hstale

/-- **A lock narrows the live policy to the contract**, whatever was live before and whoever keeps
it. -/
theorem lock_narrows_to_contract (keeper : Keeper σ) (settings : Settings) (asked : Option String)
    (w : Workflow) (dryRun : Bool) (s s' : σ) (removed : List String) (policy : NetworkPolicy)
    (h : (w.lock settings asked dryRun).run keeper s = (.ok (.applied removed policy), s')) :
    ∃ live report s₁, keeper.get (w.liveKey settings asked) s = (.ok (some live), s₁) ∧
      (w.status settings asked).run keeper s = (.ok report, s₁) ∧
      w.NarrowedTo live report removed policy := by
  obtain ⟨said, hexit⟩ := lockExit_of_run h
  -- Of the seven ends only one applies a policy.
  cases hexit with
  | applied hcontract hget _ hpolicy _ =>
    exact ⟨_, _, _, hget, (status_ends hcontract hget).run, narrowedTo_of_networkPolicy hpolicy⟩

/-- The lock closes the registry and opens the missing host. -/
theorem release_narrowed : ∃ w, Workflow.parse (releaseText "api.example.com") = .ok w ∧
    ∃ removed policy store', (w.lock {} none false).run .memory releaseStore =
        (.ok (.applied removed policy), store') ∧
      ∃ live report, releaseStore.get? (w.liveKey {} none) = some live ∧
        (w.status {} none).run .memory releaseStore = (.ok report, releaseStore) ∧
        w.NarrowedTo live report removed policy ∧ policy.liveHosts = ["api.example.com:443"] := by
  obtain ⟨w, hw, hcontract, -, -, hlive, hkept⟩ := exists_release
  obtain ⟨policy, hpolicy, hrun⟩ :=
    run_lock_of_stale hcontract hlive bootstrapHosts_releasePolicy_ne_nil
  obtain ⟨live, report, s₁, hget, hstatus, hnarrowed⟩ :=
    lock_narrows_to_contract .memory {} none w false releaseStore _ _ policy hrun
  obtain ⟨hfound, rfl⟩ := Prod.mk.inj hget
  exact ⟨w, hw, _, policy, _, hrun, live, report, Except.ok.inj hfound, hstatus, hnarrowed,
    (liveHosts_networkPolicy hpolicy).trans hkept⟩

/-- **A lock may open more than was live.** -/
theorem release_lock_opens : ∃ w, Workflow.parse (releaseText "api.example.com") = .ok w ∧
    ∃ live removed policy store', releaseStore.get? (w.liveKey {} none) = some live ∧
      (w.lock {} none false).run .memory releaseStore =
        (.ok (.applied removed policy), store') ∧
      "api.example.com:443" ∈ policy.liveHosts ∧ "api.example.com:443" ∉ live.liveHosts := by
  obtain ⟨w, hw, hcontract, -, -, hlive, hkept⟩ := exists_release
  obtain ⟨policy, hpolicy, hrun⟩ :=
    run_lock_of_stale hcontract hlive bootstrapHosts_releasePolicy_ne_nil
  -- The live policy opens the registry and nothing else.
  have hnew : "api.example.com:443" ∉ releasePolicy.liveHosts := by decide +kernel
  refine ⟨w, hw, _, _, policy, _, hlive, hrun, ?_, hnew⟩
  rw [liveHosts_networkPolicy hpolicy, hkept]
  exact List.mem_singleton_self _

end Workflow

end WorkflowPolicy
