import WorkflowPolicy.Proofs.Drift.Calls
import WorkflowPolicy.Proofs.Drift.Hosts

/-!
# Locking twice

What `Workflow.lock` and `Workflow.status` do with the store in memory. A lock that has put a policy
in place has put in place the one without the dependencies on registries, under the key under which
it has found the old one, so a second lock and a report look at that policy.

They find it clean exactly if the workflow hides no registry (`second_lock_iff`). If it hides one,
the second lock puts the same policy in place again.
-/

namespace WorkflowPolicy

namespace Workflow

variable {settings : Settings} {asked : Option String} {w : Workflow}

/-! ### Runs with the store in memory -/

section Runs

variable {store : Store} {live : NetworkPolicy}

/-- The store in memory answers with the policy that it holds, and stays as it is. -/
theorem memory_get_liveKey (hlive : store.get? (w.liveKey settings asked) = some live) :
    Keeper.memory.get (w.liveKey settings asked) store = (.ok (some live), store) := by
  rw [Keeper.memory_get, hlive]

/-- A clean policy is left alone. -/
theorem run_lock_of_clean {dryRun : Bool} (hcontract : w.contract.isSome)
    (hlive : store.get? (w.liveKey settings asked) = some live)
    (hclean : live.bootstrapHosts = []) :
    (w.lock settings asked dryRun).run .memory store = (.ok .alreadyClean, store) :=
  (lock_clean hcontract (memory_get_liveKey hlive) hclean dryRun).run

/-- A dry run tells what would be removed, and writes nothing. -/
theorem run_lock_dryRun (hcontract : w.contract.isSome)
    (hlive : store.get? (w.liveKey settings asked) = some live) :
    (w.lock settings asked true).run .memory store =
      (.ok (if live.bootstrapHosts = [] then .alreadyClean else .dryRun live.bootstrapHosts),
        store) := by
  by_cases hclean : live.bootstrapHosts = []
  · rw [run_lock_of_clean hcontract hlive hclean, if_pos hclean]
  · rw [(lock_dryRun hcontract (memory_get_liveKey hlive) hclean).run, if_neg hclean]

/-- A policy that is not clean is replaced by one that is made without registries. -/
theorem run_lock_of_stale (hcontract : w.contract.isSome)
    (hlive : store.get? (w.liveKey settings asked) = some live)
    (hstale : live.bootstrapHosts ≠ []) :
    ∃ policy, w.withoutBootstrap.networkPolicy? settings.policy (w.liveNamespace settings asked) =
        some policy ∧
      (w.lock settings asked false).run .memory store =
        (.ok (.applied live.bootstrapHosts policy), store.apply policy) := by
  obtain ⟨policy, hpolicy⟩ := exists_networkPolicy hcontract settings.policy
    (w.liveNamespace settings asked)
  exact ⟨policy, hpolicy, (lock_stale hcontract (memory_get_liveKey hlive) hstale hpolicy
    (Keeper.memory_apply policy store)).run⟩

theorem run_status (hcontract : w.contract.isSome)
    (hlive : store.get? (w.liveKey settings asked) = some live) :
    (w.status settings asked).run .memory store =
      (.ok (.compare w.name (w.liveNamespace settings asked) live.metadata.name w.contractHosts
        live.liveHosts), store) :=
  (status_ends hcontract (memory_get_liveKey hlive)).run

/-- **What a lock has done** that has put a policy in place. -/
theorem of_lock_applied {store' : Store} {removed : List String} {policy : NetworkPolicy}
    (h : (w.lock settings asked false).run .memory store =
      (.ok (.applied removed policy), store')) :
    w.contract.isSome ∧ store' = store.apply policy ∧
      w.withoutBootstrap.networkPolicy? settings.policy (w.liveNamespace settings asked) =
        some policy := by
  obtain ⟨said, hexit⟩ := lockExit_of_run h
  cases hexit with
  | applied hcontract hget _ hpolicy happly =>
    -- Reading leaves the store as it is, and writing changes it as `apply` does.
    obtain ⟨-, rfl⟩ := Prod.mk.inj hget
    obtain ⟨-, rfl⟩ := Prod.mk.inj happly
    exact ⟨hcontract, rfl, hpolicy⟩

end Runs

/-! ### The second lock -/

/-- A policy of the workflow that has been put into a store is found there. -/
theorem get?_insert_of_networkPolicy {store : Store} {policySettings : PolicySettings}
    {policy : NetworkPolicy}
    (h : w.networkPolicy? policySettings (w.liveNamespace settings asked) = some policy) :
    (store.insert policy).get? (w.liveKey settings asked) = some policy := by
  rw [liveKey, ← key_of_networkPolicy h, Store.get?_insert_self]

/-- The registries that a report counts. -/
theorem bootstrapCount_compare (workflow namespaceName policyName : String)
    (declared live : List String) :
    (DriftReport.compare workflow namespaceName policyName declared live).bootstrapCount =
      (live.filter isBootstrapHost).length := by
  rw [DriftReport.bootstrapCount_eq, DriftReport.bootstrapHosts_compare]

/-- **Nothing is left to remove**: a lock puts nothing in place, and a report says that the policy
is clean. -/
structure Settled (settings : Settings) (asked : Option String) (w : Workflow) (store : Store) :
    Prop where
  lock : (w.lock settings asked false).run .memory store = (.ok .alreadyClean, store)
  status : ∃ report, (w.status settings asked).run .memory store = (.ok report, store) ∧
    report.isClean = true ∧ report.bootstrapCount = 0

/-- Nothing is left to remove exactly if the live policy has no registry on record. -/
theorem settled_iff {store : Store} {live : NetworkPolicy} (hcontract : w.contract.isSome)
    (hlive : store.get? (w.liveKey settings asked) = some live) :
    w.Settled settings asked store ↔ live.bootstrapHosts = [] := by
  constructor
  · rintro ⟨-, report, hreport, -, hcount⟩
    rw [run_status hcontract hlive] at hreport
    cases hreport
    -- The report counts the registries of the live policy, and there are none.
    rwa [bootstrapCount_compare, List.length_eq_zero_iff] at hcount
  · intro hclean
    have hcount : (DriftReport.compare w.name (w.liveNamespace settings asked) live.metadata.name
        w.contractHosts live.liveHosts).bootstrapCount = 0 := by
      rw [bootstrapCount_compare, List.length_eq_zero_iff]
      exact hclean
    exact ⟨run_lock_of_clean hcontract hlive hclean, _, run_status hcontract hlive,
      by rw [DriftReport.isClean, hcount]; rfl, hcount⟩

/-- **After a lock that has put a policy in place** nothing is left to remove, unless the workflow
hides a registry. Then the next lock puts the same policy in place once more. -/
theorem second_lock_iff (settings : Settings) (asked : Option String) (w : Workflow)
    (store store' : Store) (removed : List String) (policy : NetworkPolicy)
    (h : (w.lock settings asked false).run .memory store =
      (.ok (.applied removed policy), store')) :
    (w.Settled settings asked store' ↔ ¬ w.HidesRegistry) ∧
      (w.HidesRegistry → ∃ again, again ≠ [] ∧
        (w.lock settings asked false).run .memory store' =
          (.ok (.applied again policy), store'.apply policy)) := by
  obtain ⟨hcontract, rfl, hpolicy⟩ := of_lock_applied h
  -- The policy that has been put in place is the one that is found next.
  have hlive : (store.apply policy).get? (w.liveKey settings asked) = some policy := by
    rw [← key_networkPolicy hpolicy, Store.get?_apply, Store.get?_insert_self]
  have hhides := bootstrapHosts_networkPolicy_eq_nil_iff hpolicy
  refine ⟨(settled_iff hcontract hlive).trans hhides, fun hhidden => ?_⟩
  have hstale : policy.bootstrapHosts ≠ [] := fun hclean => hhides.mp hclean hhidden
  obtain ⟨made, hmade, hrun⟩ := run_lock_of_stale hcontract hlive hstale
  -- The second policy is made from the same workflow.
  obtain rfl : made = policy := Option.some.inj (hmade.symm.trans hpolicy)
  exact ⟨made.bootstrapHosts, hstale, hrun⟩

/-- With a plain host the second lock finds nothing to remove; with a host that hides the registry
behind a comma it puts the policy in place again. -/
theorem second_lock_of_release :
    (∃ w, Workflow.parse (releaseText "api.example.com") = .ok w ∧
      ∃ removed policy store', (w.lock {} none false).run .memory releaseStore =
          (.ok (.applied removed policy), store') ∧ w.Settled {} none store') ∧
    ∃ w, Workflow.parse (releaseText "a,jsr.io") = .ok w ∧
      ∃ removed policy store', (w.lock {} none false).run .memory releaseStore =
          (.ok (.applied removed policy), store') ∧ ¬ w.Settled {} none store' ∧
        ∃ again, again ≠ [] ∧ (w.lock {} none false).run .memory store' =
          (.ok (.applied again policy), store'.apply policy) := by
  have hstale := bootstrapHosts_releasePolicy_ne_nil
  obtain ⟨plain, hplain, hcontract, hlive, hnone⟩ : ∃ w,
      Workflow.parse (releaseText "api.example.com") = .ok w ∧ w.contract.isSome ∧
        releaseStore.get? (w.liveKey {} none) = some releasePolicy ∧ ¬ w.HidesRegistry :=
    exists_parse (by decide +kernel)
  obtain ⟨hidden, hhidden, hcontract', hlive', hsome⟩ : ∃ w,
      Workflow.parse (releaseText "a,jsr.io") = .ok w ∧ w.contract.isSome ∧
        releaseStore.get? (w.liveKey {} none) = some releasePolicy ∧ w.HidesRegistry :=
    exists_parse (by decide +kernel)
  constructor
  · obtain ⟨policy, -, hrun⟩ := run_lock_of_stale hcontract hlive hstale
    exact ⟨plain, hplain, _, policy, _, hrun,
      (second_lock_iff {} none plain _ _ _ policy hrun).1.mpr hnone⟩
  · obtain ⟨policy, -, hrun⟩ := run_lock_of_stale hcontract' hlive' hstale
    obtain ⟨hiff, hagain⟩ := second_lock_iff {} none hidden _ _ _ policy hrun
    exact ⟨hidden, hhidden, _, policy, _, hrun, fun hsettled => hiff.mp hsettled hsome,
      hagain hsome⟩

end Workflow

end WorkflowPolicy
