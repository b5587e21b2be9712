import Mathlib.Data.List.Basic
import WorkflowPolicy.Proofs.Drift.Lock

/-!
# What a report tells

A report sets two lists of hosts against each other, and both may repeat hosts. Three of its lists
sort the live hosts: the registries, those that are declared and no registries (`confirmed`), and
those that are neither. `DriftReport.Tells` says that no live host is left out and none is in two of
them, and that with the list of what is missing they tell how the two sides differ.

A report and a dry run of a lock look at the live hosts separately. On the same state of a store
they name the same registries (`report_agrees_with_lock`), whoever keeps it.
-/

namespace WorkflowPolicy

namespace DriftReport

/-- The live hosts that are as they should be: declared, and no registries. -/
def confirmed (r : DriftReport) : List String :=
  (r.live.filter fun h => !h.isBootstrap && r.declared.contains h.host).map (·.host)

/-- **A report tells how the declared hosts and the live ones differ.** -/
structure Tells (declared live : List String) (r : DriftReport) : Prop where
  /-- Both sides are in the report as they are. -/
  sides : r.declared = declared ∧ r.live.map (·.host) = live
  /-- What is missing is declared and not live, in the order of the declared hosts. -/
  missing : r.missing = declared.filter (· ∉ live)
  /-- What is undeclared is live, no registry and not declared, in the order of the live hosts. -/
  undeclared : r.undeclared = live.filter fun host => isBootstrapHost host = false ∧ host ∉ declared
  /-- The registries are in the order of the live hosts. -/
  registries : r.bootstrapHosts = live.filter isBootstrapHost
  /-- So are the hosts that are as they should be. -/
  confirmed : r.confirmed = live.filter fun host => isBootstrapHost host = false ∧ host ∈ declared
  /-- Every live host is in one of the three lists, as often as it is live. -/
  covers : (r.bootstrapHosts ++ (r.confirmed ++ r.undeclared)).Perm live
  /-- No live host is in two of them. -/
  apart : [r.bootstrapHosts, r.confirmed, r.undeclared].Pairwise List.Disjoint
  /-- There is nothing to tell exactly if the two sides have the same hosts, and no registry. -/
  silent : (r.missing = [] ∧ r.undeclared = [] ∧ r.isClean = true) ↔
    (∀ host, host ∈ declared ↔ host ∈ live) ∧ ∀ host ∈ live, isBootstrapHost host = false

section Compare

variable (workflow namespaceName policyName : String) (declared live : List String)

theorem missing_compare : (compare workflow namespaceName policyName declared live).missing =
    declared.filter (· ∉ live) := by
  simp [compare]

theorem undeclared_compare :
    (compare workflow namespaceName policyName declared live).undeclared =
      live.filter fun host => isBootstrapHost host = false ∧ host ∉ declared := by
  simp [compare]

theorem confirmed_compare : (compare workflow namespaceName policyName declared live).confirmed =
    live.filter fun host => isBootstrapHost host = false ∧ host ∈ declared := by
  simp [compare, confirmed, List.filter_map, Function.comp_def]

/-- **Every report tells how the two sides differ.** -/
theorem tells_compare :
    (compare workflow namespaceName policyName declared live).Tells declared live := by
  constructor
  case sides => exact ⟨rfl, by simp [compare, Function.comp_def]⟩
  case missing => exact missing_compare ..
  case undeclared => exact undeclared_compare ..
  case registries => exact bootstrapHosts_compare ..
  case confirmed => exact confirmed_compare ..
  case covers =>
    -- The hosts are parted twice: first the registries from the others, then these.
    have hrest := List.filter_append_perm (fun host => decide (host ∈ declared))
      (live.filter fun host => !isBootstrapHost host)
    rw [List.filter_filter, List.filter_filter] at hrest
    rw [bootstrapHosts_compare, confirmed_compare, undeclared_compare]
    refine .trans (.append_left _ ?_) (List.filter_append_perm isBootstrapHost live)
    simpa [and_comm] using hrest
  case apart =>
    rw [bootstrapHosts_compare, confirmed_compare, undeclared_compare]
    refine .cons (fun others hothers host hregistry hother => ?_) (.cons (fun others hothers => ?_)
      (List.pairwise_singleton _ _))
    · -- Neither of the other two lists has a registry.
      have hboot : isBootstrapHost host = true := (List.mem_filter.mp hregistry).2
      have hplain : isBootstrapHost host = false := by
        rcases List.mem_pair.mp hothers with rfl | rfl
        · exact (of_decide_eq_true (List.mem_filter.mp hother).2).1
        · exact (of_decide_eq_true (List.mem_filter.mp hother).2).1
      rw [hboot] at hplain
      cases hplain
    · obtain rfl := List.mem_singleton.mp hothers
      intro host hdeclared hundeclared
      exact (of_decide_eq_true (List.mem_filter.mp hundeclared).2).2
        (of_decide_eq_true (List.mem_filter.mp hdeclared).2).2
  case silent =>
    rw [isClean_iff, bootstrapHosts_compare, missing_compare, undeclared_compare]
    simp only [List.filter_eq_nil_iff, decide_eq_true_eq, not_and, not_not, Bool.not_eq_true]
    constructor
    · -- A live host that is not declared would be undeclared, as it is no registry.
      rintro ⟨hmissing, hundeclared, hclean⟩
      exact ⟨fun host => ⟨hmissing host, fun hlive => hundeclared host hlive (hclean host hlive)⟩,
        hclean⟩
    · rintro ⟨hsame, hclean⟩
      exact ⟨fun host => (hsame host).mp, fun host hlive _ => (hsame host).mpr hlive, hclean⟩

end Compare

end DriftReport

namespace Workflow

variable {σ : Type} {keeper : Keeper σ} {settings : Settings} {asked : Option String}
  {w : Workflow} {s s' : σ} {live : NetworkPolicy}

/-- **A report is a complete diff and agrees with a lock.** It tells how the hosts of the contract
and those of the live policy differ, and a dry run on the same state of the store names the
registries of the report, or says that there is nothing to remove if the report is clean. -/
theorem report_agrees_with_lock (hcontract : w.contract.isSome)
    (hget : keeper.get (w.liveKey settings asked) s = (.ok (some live), s')) :
    ∃ report, (w.status settings asked).run keeper s = (.ok report, s') ∧
      report.Tells w.contractHosts live.liveHosts ∧
      (w.lock settings asked true).run keeper s =
        (.ok (if report.isClean then .alreadyClean else .dryRun report.bootstrapHosts), s') := by
  refine ⟨_, (status_ends hcontract hget).run, DriftReport.tells_compare .., ?_⟩
  generalize hreport : DriftReport.compare w.name (w.liveNamespace settings asked)
    live.metadata.name w.contractHosts live.liveHosts = report
  -- The lock looks at the record itself, the report keeps a mark for each host of it.
  have hregistries : live.bootstrapHosts = report.bootstrapHosts := by
    rw [← hreport, DriftReport.bootstrapHosts_compare, NetworkPolicy.bootstrapHosts]
  by_cases hclean : report.isClean = true
  · have hnone : live.bootstrapHosts = [] := hregistries.trans (DriftReport.isClean_iff.mp hclean)
    rw [if_pos hclean, (lock_clean hcontract hget hnone true).run]
  · have hsome : live.bootstrapHosts ≠ [] := fun hnone =>
      hclean (DriftReport.isClean_iff.mpr (hregistries.symm.trans hnone))
    rw [if_neg hclean, (lock_dryRun hcontract hget hsome).run, hregistries]

/-- A policy for the draft that has drifted: of the two declared hosts it opens the registry only,
and it opens a host besides. -/
def driftedPolicy : NetworkPolicy :=
  (NetworkPolicy.named "release-netpol" "default").recordHosts
    "jsr.io:443,old.example.com:443,jsr.io:443"

/-- The store with that policy. -/
def driftedStore : Store := ({} : Store).insert driftedPolicy

/-- The registry is declared and live, and is neither missing nor undeclared. -/
theorem release_drift_told : ∃ w, Workflow.parse (releaseText "api.example.com") = .ok w ∧
    w.contract.isSome ∧ driftedStore.get? (w.liveKey {} none) = some driftedPolicy ∧
    w.contractHosts = ["api.example.com:443", "jsr.io:443"] ∧
    ∃ report, (w.status {} none).run .memory driftedStore = (.ok report, driftedStore) ∧
      report.Tells w.contractHosts driftedPolicy.liveHosts ∧
      report.missing = ["api.example.com:443"] ∧ report.undeclared = ["old.example.com:443"] ∧
      (w.lock {} none true).run .memory driftedStore =
        (.ok (.dryRun ["jsr.io:443", "jsr.io:443"]), driftedStore) := by
  obtain ⟨w, hw, hcontract, hlive, hhosts⟩ : ∃ w,
      Workflow.parse (releaseText "api.example.com") = .ok w ∧ w.contract.isSome ∧
        driftedStore.get? (w.liveKey {} none) = some driftedPolicy ∧
        w.contractHosts = ["api.example.com:443", "jsr.io:443"] :=
    exists_parse (by decide +kernel)
  obtain ⟨report, hstatus, htells, hlock⟩ :=
    report_agrees_with_lock hcontract (memory_get_liveKey hlive)
  have hrecord : driftedPolicy.liveHosts =
      ["jsr.io:443", "old.example.com:443", "jsr.io:443"] := by decide +kernel
  have hregistries : report.bootstrapHosts = ["jsr.io:443", "jsr.io:443"] := by
    rw [htells.registries, hrecord]
    decide +kernel
  have hstale : ¬ report.isClean = true := by
    rw [DriftReport.isClean_iff, hregistries]
    exact List.cons_ne_nil _ _
  rw [if_neg hstale, hregistries] at hlock
  refine ⟨w, hw, hcontract, hlive, hhosts, report, hstatus, htells, ?_, ?_, hlock⟩
  · rw [htells.missing, hhosts, hrecord]
    decide +kernel
  · rw [htells.undeclared, hhosts, hrecord]
    decide +kernel

end Workflow

end WorkflowPolicy
