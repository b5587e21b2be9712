import WorkflowPolicy.Proofs.Drift.ReadBack
import WorkflowPolicy.Proofs.Drift.Removal

/-!
# Finding registries and leaving them out

A lock looks for registries twice. What it calls removable is found on the record of the live
policy, where each host stands with its port (`NetworkPolicy.bootstrapHosts`); what it takes away
are the dependencies on registries, where a host stands alone, and with them some of the external
hosts of the contract (`Workflow.removedHosts`).

Blanks are trimmed off a host before a port is taken off, so a registry that has blanks behind it,
or a port of its own, is known when it stands alone and not when a port has been put behind it. For
a policy that has just been made the two lists are the same exactly if this does not happen and no
registry is hidden behind a comma (`Workflow.RegistriesPlain`,
`bootstrapHosts_eq_removedHosts_iff`).
-/

namespace WorkflowPolicy

open Net (Port)

/-! ### Registries that are written plainly -/

/-- **A registry that is written plainly**: before its port there is the name, in letters of any
case, and nothing else. -/
def IsPlainRegistry (text : String) : Prop :=
  ∃ registry ∈ bootstrapHosts,
    (Text.splitLast ':' text.toList).map (Text.smallLetters ·.1) = some registry.toList

instance (text : String) : Decidable (IsPlainRegistry text) :=
  inferInstanceAs (Decidable (∃ registry ∈ bootstrapHosts,
    (Text.splitLast ':' text.toList).map (Text.smallLetters ·.1) = some registry.toList))

theorem isPlainRegistry_hostPortText {host : String} {port : Port} :
    IsPlainRegistry (EgressRule.hostPortText host port) ↔
      ∃ registry ∈ bootstrapHosts, Text.smallLetters host.toList = registry.toList := by
  simp only [IsPlainRegistry, splitLast_hostPortText, Option.map_some, Option.some.injEq]

/-- No registry has a comma. -/
theorem comma_not_mem_of_isBootstrapHost {host : String} (h : isBootstrapHost host = true) :
    ',' ∉ host.toList :=
  not_mem_of_isBootstrapHost (by decide) h

/-- A host that comes back with its port does not begin with a blank. -/
theorem dropBlank_of_comesBack {host : String} {port : Port}
    (h : ComesBack (EgressRule.hostPortText host port)) :
    Text.dropBlank host.toList = host.toList := by
  -- What is trimmed off at the front is missing from the text, and the port behind is the same.
  have htrim := h.2
  rw [trim_hostPortText, toList_hostPortText] at htrim
  exact List.append_cancel_right htrim

/-- **With its port a registry comes back and is known** exactly if it is written plainly. -/
theorem isPlainRegistry_iff {host : String} {port : Port} :
    IsPlainRegistry (EgressRule.hostPortText host port) ↔
      ComesBack (EgressRule.hostPortText host port) ∧
        isBootstrapHost (EgressRule.hostPortText host port) = true := by
  rw [isPlainRegistry_hostPortText, isBootstrapHost_hostPortText_iff]
  constructor
  · rintro ⟨registry, hregistry, hname⟩
    -- A plain name has no blanks, so nothing is trimmed away.
    have hfront : Text.dropBlank host.toList = host.toList := Text.dropBlank_eq_self fun c hc =>
      isBlank_of_smallLetters_eq hregistry hname c (List.mem_of_mem_head? hc)
    have hknown : ∃ registry ∈ bootstrapHosts,
        Text.smallLetters (Text.dropBlank host.toList) = registry.toList :=
      ⟨registry, hregistry, by rw [hfront, hname]⟩
    refine ⟨⟨comma_not_mem_of_isBootstrapHost (isBootstrapHost_hostPortText_iff.mpr hknown), ?_⟩,
      hknown⟩
    rw [trim_hostPortText, hfront, toList_hostPortText]
  · rintro ⟨hback, registry, hregistry, hname⟩
    exact ⟨registry, hregistry, by rw [← hname, dropBlank_of_comesBack hback]⟩

/-! ### Registries of one record -/

/-- The registries that are read from a record. -/
def registriesOfRecord (record : String) : List String :=
  (hostsOfRecord record).filter isBootstrapHost

theorem registriesOfRecord_eq_nil_iff {record : String} : registriesOfRecord record = [] ↔
    ∀ part ∈ hostsOfRecord record, isBootstrapHost part = false := by
  simp [registriesOfRecord, List.filter_eq_nil_iff]

/-- A registry that is written plainly is read as it is. -/
theorem registriesOfRecord_of_isPlainRegistry {host : String} {port : Port}
    (h : IsPlainRegistry (EgressRule.hostPortText host port)) :
    registriesOfRecord (EgressRule.hostPortText host port) =
      [EgressRule.hostPortText host port] := by
  obtain ⟨hback, hknown⟩ := isPlainRegistry_iff.mp h
  rw [registriesOfRecord, hostsOfRecord_of_comesBack hback (hostPortText_ne_empty host port),
    List.filter_singleton, hknown]
  rfl

/-- A text without a comma is read as one host, which is a registry exactly if the text is. -/
theorem registriesOfRecord_eq_nil_of_not_mem {record : String} (hcomma : ',' ∉ record.toList) :
    registriesOfRecord record = [] ↔ isBootstrapHost record = false := by
  rw [registriesOfRecord_eq_nil_iff]
  constructor
  · -- A text of blanks has no part to read, and is no registry either.
    intro hnone
    by_cases hblank : Text.trim record.toList = []
    · rw [← isBootstrapHost_trim, hblank]
      decide +kernel
    · have hpart : String.ofList (Text.trim record.toList) ∈ hostsOfRecord record :=
        mem_hostsOfRecord.mpr ⟨record.toList, by
          rw [Text.splitAll_of_not_mem hcomma, List.mem_singleton], hblank, rfl⟩
      rw [← isBootstrapHost_trim]
      exact hnone _ hpart
  · -- The text has one part, and trimming does not make it a registry.
    intro hknown part hpart
    rw [isBootstrapHost_of_mem_hostsOfRecord hcomma hpart, hknown]

/-! ### Lists that are put together -/

section Lists

variable {α : Type} {keep : α → Bool} {parts : α → List α} {xs : List α}

theorem length_filter_le_length_flatMap (h : ∀ x ∈ xs, keep x = true → parts x = [x]) :
    (xs.filter keep).length ≤ (xs.flatMap parts).length := by
  -- What is kept is one part each, so there are at least as many parts.
  induction xs with
  | nil => exact Nat.le_refl 0
  | cons x xs ih =>
    have hrest := ih fun y hy => h y (List.mem_cons_of_mem x hy)
    rw [List.flatMap_cons, List.length_append]
    cases hx : keep x with
    | true =>
      rw [List.filter_cons_of_pos hx, h x List.mem_cons_self hx, List.length_cons,
        List.length_singleton]
      omega
    | false =>
      rw [List.filter_cons_of_neg (by simp [hx])]
      omega

/-- If what is kept is one part, then the parts are what is kept exactly if the rest has none. -/
theorem flatMap_eq_filter_iff (h : ∀ x ∈ xs, keep x = true → parts x = [x]) :
    xs.flatMap parts = xs.filter keep ↔ ∀ x ∈ xs, keep x = false → parts x = [] := by
  induction xs with
  | nil => simp
  | cons x xs ih =>
    have htail : ∀ y ∈ xs, keep y = true → parts y = [y] :=
      fun y hy => h y (List.mem_cons_of_mem x hy)
    rw [List.flatMap_cons, List.forall_mem_cons, ← ih htail]
    cases hx : keep x with
    | true =>
      rw [List.filter_cons_of_pos hx, h x List.mem_cons_self hx, List.singleton_append]
      simp
    | false =>
      rw [List.filter_cons_of_neg (by simp [hx])]
      constructor
      · intro heq
        -- The rest is long enough for all that is kept.
        have hlength := congrArg List.length heq
        have hle := length_filter_le_length_flatMap htail
        rw [List.length_append] at hlength
        have hnone : parts x = [] := List.eq_nil_of_length_eq_zero (by omega)
        rw [hnone, List.nil_append] at heq
        exact ⟨fun _ => hnone, heq⟩
      · rintro ⟨hnone, heq⟩
        rw [hnone rfl, List.nil_append, heq]

end Lists

/-! ### What is found and what is taken away -/

namespace Workflow

/-- **The external hosts that go with the dependencies on registries.** -/
def removedHosts (w : Workflow) : List String :=
  w.contractHosts.filter fun text => text ∉ w.withoutBootstrap.contractHosts

theorem mem_contractHosts_of_mem_removedHosts {w : Workflow} {text : String}
    (h : text ∈ w.removedHosts) : text ∈ w.contractHosts :=
  (List.mem_filter.mp h).1

/-- **Registries are written plainly**, and none is hidden behind a comma. -/
structure RegistriesPlain (w : Workflow) : Prop where
  unhidden : ¬ w.HidesRegistry
  plain : ∀ text ∈ w.removedHosts, IsPlainRegistry text

/-- A host stays if it is no registry. -/
theorem mem_contractHosts_withoutBootstrap {w : Workflow} {host : String} {port : Port} :
    EgressRule.hostPortText host port ∈ w.withoutBootstrap.contractHosts ↔
      EgressRule.hostPortText host port ∈ w.contractHosts ∧ isBootstrapHost host = false := by
  rw [contractHosts_eq, contractHosts_eq, egressRules_withoutBootstrap, mem_externalHosts_iff,
    mem_externalHosts_iff]
  -- A rule with this text is for this host.
  have hhost : ∀ r : EgressRule, r.hostPort? = some (EgressRule.hostPortText host port) →
      r.isBootstrap = isBootstrapHost host := by
    intro r htext
    obtain ⟨host', port', hhost', -, heq⟩ := EgressRule.hostPort?_eq_some_iff.mp htext
    obtain ⟨rfl, rfl⟩ := hostPortText_inj.mp heq
    rw [EgressRule.isBootstrap, hhost', Option.any_some]
  constructor
  · -- The rule for a host that stays is one for no registry, so it stays itself.
    rintro ⟨r, hr, hexternal, hport, htext⟩
    obtain ⟨hmem, hkept⟩ := List.mem_filter.mp hr
    rw [hhost r htext, Bool.not_eq_true'] at hkept
    exact ⟨⟨r, hmem, hexternal, hport, htext⟩, hkept⟩
  · rintro ⟨⟨r, hmem, hexternal, hport, htext⟩, hkept⟩
    refine ⟨r, List.mem_filter.mpr ⟨hmem, ?_⟩, hexternal, hport, htext⟩
    rw [hhost r htext, hkept]
    rfl

theorem mem_removedHosts_iff {w : Workflow} {host : String} {port : Port} :
    EgressRule.hostPortText host port ∈ w.removedHosts ↔
      EgressRule.hostPortText host port ∈ w.contractHosts ∧ isBootstrapHost host = true := by
  -- Taken away is what is declared and does not stay.
  rw [removedHosts, List.mem_filter, decide_eq_true_eq, mem_contractHosts_withoutBootstrap]
  simp +contextual

/-- A registry that is written plainly is taken away. -/
theorem mem_removedHosts_of_isPlainRegistry {w : Workflow} {text : String}
    (htext : text ∈ w.contractHosts) (h : IsPlainRegistry text) : text ∈ w.removedHosts := by
  obtain ⟨host, port, rfl⟩ := exists_hostPort_of_mem_contractHosts htext
  exact mem_removedHosts_iff.mpr ⟨htext, isBootstrapHost_hostPortText (isPlainRegistry_iff.mp h).2⟩

/-- Nothing is hidden exactly if no registry is read from a host that stays. -/
theorem not_hidesRegistry_iff_registriesOfRecord {w : Workflow} : ¬ w.HidesRegistry ↔
    ∀ text ∈ w.contractHosts, text ∉ w.removedHosts → registriesOfRecord text = [] := by
  rw [not_hidesRegistry_iff]
  -- A host that is declared stays or is taken away.
  have hstays : ∀ text, text ∈ w.withoutBootstrap.contractHosts ↔
      text ∈ w.contractHosts ∧ text ∉ w.removedHosts := by
    intro text
    constructor
    · intro hkept
      obtain ⟨host, port, rfl⟩ := exists_hostPort_of_mem_contractHosts hkept
      have hmem := (mem_contractHosts_withoutBootstrap.mp hkept).1
      exact ⟨hmem, by simp [removedHosts, hkept]⟩
    · rintro ⟨hmem, hstay⟩
      simpa [removedHosts, hmem] using hstay
  simp only [hstays, registriesOfRecord_eq_nil_iff, and_imp]

variable {settings : PolicySettings} {w : Workflow} {namespaceName : String}
  {policy : NetworkPolicy}

theorem bootstrapHosts_networkPolicy (h : w.networkPolicy? settings namespaceName = some policy) :
    policy.bootstrapHosts = w.contractHosts.flatMap registriesOfRecord := by
  rw [NetworkPolicy.bootstrapHosts, liveHosts_networkPolicy h, List.filter_flatMap]
  rfl

/-- **Of the external hosts those are found that are taken away and written plainly.** -/
theorem mem_bootstrapHosts_iff (h : w.networkPolicy? settings namespaceName = some policy)
    {text : String} (htext : text ∈ w.contractHosts) :
    text ∈ policy.bootstrapHosts ↔ text ∈ w.removedHosts ∧ IsPlainRegistry text := by
  rw [NetworkPolicy.bootstrapHosts, List.mem_filter, mem_liveHosts_iff_comesBack h htext]
  -- It is read back as it is, and known, exactly if it is written plainly.
  have hplain : ComesBack text ∧ isBootstrapHost text = true ↔ IsPlainRegistry text := by
    obtain ⟨host, port, rfl⟩ := exists_hostPort_of_mem_contractHosts htext
    exact isPlainRegistry_iff.symm
  rw [hplain]
  exact (and_iff_right_of_imp (mem_removedHosts_of_isPlainRegistry htext)).symm

/-- **What is found is what is taken away** exactly if registries are written plainly. -/
theorem bootstrapHosts_eq_removedHosts_iff
    (h : w.networkPolicy? settings namespaceName = some policy) :
    policy.bootstrapHosts = w.removedHosts ↔ w.RegistriesPlain := by
  -- Once they are written plainly, each is the only one that is read from its host.
  have hrest : (∀ text ∈ w.removedHosts, IsPlainRegistry text) →
      (policy.bootstrapHosts = w.removedHosts ↔ ¬ w.HidesRegistry) := by
    intro hplain
    have hwhole : ∀ text ∈ w.contractHosts,
        decide (text ∉ w.withoutBootstrap.contractHosts) = true →
          registriesOfRecord text = [text] := by
      intro text htext hgone
      have hremoved : text ∈ w.removedHosts := List.mem_filter.mpr ⟨htext, hgone⟩
      obtain ⟨host, port, rfl⟩ := exists_hostPort_of_mem_contractHosts htext
      exact registriesOfRecord_of_isPlainRegistry (hplain _ hremoved)
    -- So the registries on record are those of the hosts that go, if those that stay have none.
    rw [bootstrapHosts_networkPolicy h, not_hidesRegistry_iff_registriesOfRecord]
    refine (flatMap_eq_filter_iff hwhole).trans (forall₂_congr fun text htext => ?_)
    simp [removedHosts, htext]
  constructor
  · -- A host that is found as it stands has come back, and so it is written plainly.
    intro heq
    have hplain : ∀ text ∈ w.removedHosts, IsPlainRegistry text := fun text htext =>
      ((mem_bootstrapHosts_iff h (mem_contractHosts_of_mem_removedHosts htext)).mp
        (heq ▸ htext)).2
    exact ⟨(hrest hplain).mp heq, hplain⟩
  · rintro ⟨hunhidden, hplain⟩
    exact (hrest hplain).mpr hunhidden

/-- A fresh policy is clean exactly if no registry is hidden and of those that are taken away none
is known with its port. -/
theorem bootstrapHosts_eq_nil_iff (h : w.networkPolicy? settings namespaceName = some policy) :
    policy.bootstrapHosts = [] ↔
      ¬ w.HidesRegistry ∧ ∀ text ∈ w.removedHosts, isBootstrapHost text = false := by
  have hone : ∀ text ∈ w.removedHosts,
      registriesOfRecord text = [] ↔ isBootstrapHost text = false := by
    intro text htext
    obtain ⟨host, port, rfl⟩ := exists_hostPort_of_mem_contractHosts
      (mem_contractHosts_of_mem_removedHosts htext)
    -- A registry has no comma, nor has it with its port, so it is read as one host.
    rw [registriesOfRecord_eq_nil_of_not_mem]
    rw [comma_mem_hostPortText]
    exact comma_not_mem_of_isBootstrapHost (mem_removedHosts_iff.mp htext).2
  rw [bootstrapHosts_networkPolicy h, List.flatMap_eq_nil_iff,
    not_hidesRegistry_iff_registriesOfRecord]
  constructor
  · intro hnone
    exact ⟨fun text htext _ => hnone text htext,
      fun text htext => (hone text htext).mp
        (hnone text (mem_contractHosts_of_mem_removedHosts htext))⟩
  · rintro ⟨hstay, hgone⟩ text htext
    -- Of a host that is taken away it counts whether it is known with its port, and of one that
    -- stays what is hidden in it.
    by_cases hremoved : text ∈ w.removedHosts
    · exact (hone text hremoved).mpr (hgone text hremoved)
    · exact hstay text htext hremoved

/-- A report is clean exactly if no registry is live. -/
theorem isClean_compare (workflow liveNamespace policyName : String)
    (declared live : List String) :
    (DriftReport.compare workflow liveNamespace policyName declared live).isClean = true ↔
      live.filter isBootstrapHost = [] := by
  rw [DriftReport.isClean_iff, DriftReport.bootstrapHosts_compare]

/-- **Finding registries in a fresh policy.** Of the external hosts those are found that are taken
away and written plainly. So a dry run names what is taken away exactly if registries are written
plainly, and then a report says that the policy is clean exactly if nothing is taken away. -/
theorem detection_matches_removal_iff
    (h : w.networkPolicy? settings namespaceName = some policy) :
    (∀ text ∈ w.contractHosts,
      text ∈ policy.bootstrapHosts ↔ text ∈ w.removedHosts ∧ IsPlainRegistry text) ∧
    (policy.bootstrapHosts = w.removedHosts ↔ w.RegistriesPlain) ∧
    ∀ (auditor : Settings) (asked : Option String) (store : Store),
      store.get? (w.liveKey auditor asked) = some policy →
      (w.lock auditor asked true).run .memory store =
        (.ok (if policy.bootstrapHosts = [] then .alreadyClean
          else .dryRun policy.bootstrapHosts), store) ∧
      ∃ report, (w.status auditor asked).run .memory store = (.ok report, store) ∧
        (report.isClean = true ↔
          ¬ w.HidesRegistry ∧ ∀ text ∈ w.removedHosts, isBootstrapHost text = false) ∧
        (w.RegistriesPlain → (report.isClean = true ↔ w.removedHosts = [])) := by
  have hmatch := bootstrapHosts_eq_removedHosts_iff h
  refine ⟨fun text => mem_bootstrapHosts_iff h, hmatch, fun auditor asked store hlive => ?_⟩
  have hcontract := isSome_contract_of_networkPolicy h
  refine ⟨run_lock_dryRun hcontract hlive, _, run_status hcontract hlive, ?_, fun hplain => ?_⟩
  · rw [isClean_compare]
    exact bootstrapHosts_eq_nil_iff h
  · -- A dry run finds what is taken away, so the report goes by that.
    rw [isClean_compare, ← hmatch.mpr hplain]
    rfl

/-- A registry that is written plainly is found and taken away; one with a blank behind it is taken
away and not found. -/
theorem release_detection :
    (∃ w policy, Workflow.parse (releaseText "api.example.com") = .ok w ∧
      w.networkPolicy? {} "default" = some policy ∧ w.removedHosts = ["jsr.io:443"] ∧
      policy.bootstrapHosts = w.removedHosts ∧
      ∃ report, (w.status {} (some "default")).run .memory (({} : Store).insert policy) =
          (.ok report, ({} : Store).insert policy) ∧ report.isClean = false) ∧
    ∃ w policy, Workflow.parse (releaseText "'deno.land '") = .ok w ∧
      w.networkPolicy? {} "default" = some policy ∧
      w.removedHosts = ["deno.land :443", "jsr.io:443"] ∧ policy.bootstrapHosts ≠ w.removedHosts ∧
      "deno.land :443" ∉ policy.bootstrapHosts := by
  obtain ⟨plain, hplain, hsome, hremoved, hunhidden, hnames⟩ : ∃ w,
      Workflow.parse (releaseText "api.example.com") = .ok w ∧
        (w.networkPolicy? {} "default").isSome ∧ w.removedHosts = ["jsr.io:443"] ∧
          ¬ w.HidesRegistry ∧ ∀ text ∈ w.removedHosts, IsPlainRegistry text :=
    exists_parse (by decide +kernel)
  obtain ⟨blank, hblank, hsome', hremoved', hmem⟩ : ∃ w,
      Workflow.parse (releaseText "'deno.land '") = .ok w ∧
        (w.networkPolicy? {} "default").isSome ∧
          w.removedHosts = ["deno.land :443", "jsr.io:443"] ∧
            "deno.land :443" ∈ w.contractHosts :=
    exists_parse (by decide +kernel)
  obtain ⟨policy, hpolicy⟩ := Option.isSome_iff_exists.mp hsome
  obtain ⟨policy', hpolicy'⟩ := Option.isSome_iff_exists.mp hsome'
  constructor
  · obtain ⟨-, hmatch, hruns⟩ := detection_matches_removal_iff hpolicy
    have hregistries : plain.RegistriesPlain := ⟨hunhidden, hnames⟩
    obtain ⟨-, report, hrun, -, hclean⟩ :=
      hruns {} (some "default") _ (get?_insert_of_networkPolicy hpolicy)
    refine ⟨plain, policy, hplain, hpolicy, hremoved, hmatch.mpr hregistries, report, hrun, ?_⟩
    rw [Bool.eq_false_iff, ne_eq, hclean hregistries, hremoved]
    exact List.cons_ne_nil _ _
  · obtain ⟨hfound, hmatch, -⟩ := detection_matches_removal_iff hpolicy'
    have hnot : ¬ IsPlainRegistry "deno.land :443" := by decide +kernel
    refine ⟨blank, policy', hblank, hpolicy', hremoved', fun heq => hnot ?_, fun hlive => hnot ?_⟩
    · exact (hmatch.mp heq).plain _ (by rw [hremoved']; exact List.mem_cons_self)
    · exact ((hfound _ hmem).mp hlive).2

end Workflow

end WorkflowPolicy
