import WorkflowPolicy.Proofs.Drift.Lock

/-!
# Reading a record back

A policy that has just been made has the external hosts of its contract on record, and an audit
reads the record. A host comes back as it was written if it has no comma, where it would be cut, and
no blanks at its ends, which would be trimmed away (`ComesBack`). Nothing else keeps a host from
coming back, and nothing else than parts of hosts that do not come back is made up
(`fresh_policy_read_back`).
-/

namespace WorkflowPolicy

/-! ### Hosts that come back -/

/-- **A text that comes back from a record as it was written**: it is neither cut nor trimmed. -/
def ComesBack (text : String) : Prop :=
  ',' ∉ text.toList ∧ Text.trim text.toList = text.toList

instance (text : String) : Decidable (ComesBack text) :=
  inferInstanceAs (Decidable (',' ∉ text.toList ∧ Text.trim text.toList = text.toList))

/-- Whatever is read from a record has been cut and trimmed already. -/
theorem comesBack_of_mem_hostsOfRecord {record part : String} (h : part ∈ hostsOfRecord record) :
    ComesBack part := by
  obtain ⟨piece, hpiece, -, rfl⟩ := mem_hostsOfRecord.mp h
  rw [ComesBack, String.toList_ofList]
  -- A piece has no comma, and trimming neither brings one in nor has anything left to trim.
  exact ⟨fun hcomma => Text.not_mem_of_mem_splitAll hpiece (Text.mem_of_mem_trim hcomma),
    Text.trim_trim piece⟩

theorem hostsOfRecord_of_comesBack {text : String} (h : ComesBack text) (hne : text ≠ "") :
    hostsOfRecord text = [text] := by
  obtain ⟨hcomma, htrim⟩ := h
  simp [hostsOfRecord, Text.splitAll_of_not_mem hcomma, htrim, hne]

/-- A host with a port is not empty. -/
theorem hostPortText_ne_empty (host : String) (port : Net.Port) :
    EgressRule.hostPortText host port ≠ "" := by
  intro h
  -- The colon before the port is always there.
  have hlist := toList_hostPortText host port
  rw [h] at hlist
  simp at hlist

namespace Workflow

/-- External hosts are not empty. -/
theorem ne_empty_of_mem_contractHosts {w : Workflow} {text : String} (h : text ∈ w.contractHosts) :
    text ≠ "" := by
  obtain ⟨host, port, rfl⟩ := exists_hostPort_of_mem_contractHosts h
  exact hostPortText_ne_empty host port

/-! ### The record of a fresh policy -/

variable {settings : PolicySettings} {w : Workflow} {namespaceName : String}
  {policy : NetworkPolicy}

/-- **Of the declared hosts those are live that come back.** -/
theorem mem_liveHosts_iff_comesBack (h : w.networkPolicy? settings namespaceName = some policy)
    {text : String} (htext : text ∈ w.contractHosts) :
    text ∈ policy.liveHosts ↔ ComesBack text := by
  -- The live hosts are the parts of all declared hosts, so a host may also be live as part of
  -- another.
  rw [liveHosts_networkPolicy h, List.mem_flatMap]
  constructor
  · rintro ⟨other, -, hpart⟩
    exact comesBack_of_mem_hostsOfRecord hpart
  · intro hback
    refine ⟨text, htext, ?_⟩
    rw [hostsOfRecord_of_comesBack hback (ne_empty_of_mem_contractHosts htext)]
    exact List.mem_singleton_self text

/-- What is live and not declared is part of a host that does not come back. -/
theorem exists_part_of_mem_liveHosts (h : w.networkPolicy? settings namespaceName = some policy)
    {part : String} (hlive : part ∈ policy.liveHosts) (hnew : part ∉ w.contractHosts) :
    ∃ text ∈ w.contractHosts, ¬ ComesBack text ∧ part ∈ hostsOfRecord text := by
  -- It is part of some host, and if that came back it would be that host itself.
  rw [liveHosts_networkPolicy h, List.mem_flatMap] at hlive
  obtain ⟨text, htext, hpart⟩ := hlive
  refine ⟨text, htext, fun hback => ?_, hpart⟩
  rw [hostsOfRecord_of_comesBack hback (ne_empty_of_mem_contractHosts htext),
    List.mem_singleton] at hpart
  exact hnew (hpart ▸ htext)

/-- The record is read as the list that was written exactly if all hosts come back. -/
theorem liveHosts_eq_contractHosts_iff
    (h : w.networkPolicy? settings namespaceName = some policy) :
    policy.liveHosts = w.contractHosts ↔ ∀ text ∈ w.contractHosts, ComesBack text := by
  constructor
  · intro heq text htext
    exact (mem_liveHosts_iff_comesBack h htext).mp (heq ▸ htext)
  · intro hback
    -- A host that comes back is its own only part, so the parts are the hosts again.
    have hwhole : ∀ text ∈ w.contractHosts, hostsOfRecord text = [text] := fun text htext =>
      hostsOfRecord_of_comesBack (hback text htext) (ne_empty_of_mem_contractHosts htext)
    rw [liveHosts_networkPolicy h, List.flatMap_congr hwhole, List.flatMap_singleton']

theorem isSome_contract_of_networkPolicy
    (h : w.networkPolicy? settings namespaceName = some policy) : w.contract.isSome := by
  obtain ⟨c, hcontract, -⟩ := Option.map_eq_some_iff.mp h
  rw [hcontract]
  rfl

/-- The hosts that do not come back are missing. -/
theorem missing_of_networkPolicy (h : w.networkPolicy? settings namespaceName = some policy) :
    (w.contractHosts.filter fun host => !policy.liveHosts.contains host) =
      w.contractHosts.filter fun text => ¬ ComesBack text := by
  refine List.filter_congr fun text htext => ?_
  rw [Bool.eq_iff_iff]
  -- Declared hosts are missing if they are not live, and by the lemma if they do not come back.
  simp [mem_liveHosts_iff_comesBack h htext]

/-- **What an audit says of a policy that has just been made.** The hosts that do not come back are
missing, and only parts of them are undeclared. So the policy is read as the contract says, and
nothing is missing or undeclared, exactly if all external hosts come back. -/
theorem fresh_policy_read_back (h : w.networkPolicy? settings namespaceName = some policy) :
    (policy.liveHosts = w.contractHosts ↔ ∀ text ∈ w.contractHosts, ComesBack text) ∧
    ∀ (auditor : Settings) (asked : Option String) (store : Store),
      store.get? (w.liveKey auditor asked) = some policy →
      ∃ report, (w.status auditor asked).run .memory store = (.ok report, store) ∧
        report.missing = (w.contractHosts.filter fun text => ¬ ComesBack text) ∧
        (∀ part ∈ report.undeclared,
          ∃ text ∈ w.contractHosts, ¬ ComesBack text ∧ part ∈ hostsOfRecord text) ∧
        (report.missing = [] ∧ report.undeclared = [] ↔
          ∀ text ∈ w.contractHosts, ComesBack text) := by
  refine ⟨liveHosts_eq_contractHosts_iff h, fun auditor asked store hlive => ?_⟩
  refine ⟨_, run_status (isSome_contract_of_networkPolicy h) hlive, ?_⟩
  -- The report compares the two lists of hosts, and each list is settled by itself.
  simp only [DriftReport.compare]
  rw [missing_of_networkPolicy h]
  have hundeclared : ∀ part ∈ policy.liveHosts.filter fun host =>
      !isBootstrapHost host && !w.contractHosts.contains host,
      ∃ text ∈ w.contractHosts, ¬ ComesBack text ∧ part ∈ hostsOfRecord text := by
    intro part hpart
    rw [List.mem_filter, Bool.and_eq_true] at hpart
    obtain ⟨hmem, -, hnew⟩ := hpart
    exact exists_part_of_mem_liveHosts h hmem (by simpa using hnew)
  have hmissing : (w.contractHosts.filter fun text => ¬ ComesBack text) = [] ↔
      ∀ text ∈ w.contractHosts, ComesBack text := by
    simp [List.filter_eq_nil_iff]
  refine ⟨rfl, hundeclared, fun hnone => hmissing.mp hnone.1, fun hback => ?_⟩
  refine ⟨hmissing.mpr hback, List.eq_nil_iff_forall_not_mem.mpr fun part hpart => ?_⟩
  -- What is undeclared would be part of a host that does not come back.
  obtain ⟨text, htext, hcut, -⟩ := hundeclared part hpart
  exact hcut (hback text htext)

/-- Plain hosts come back; a host with a comma is missing. -/
theorem release_read_back :
    (∃ w policy, Workflow.parse (releaseText "api.example.com") = .ok w ∧
      w.networkPolicy? {} "default" = some policy ∧ policy.liveHosts = w.contractHosts ∧
      ∃ report, (w.status {} (some "default")).run .memory (({} : Store).insert policy) =
          (.ok report, ({} : Store).insert policy) ∧
        report.missing = [] ∧ report.undeclared = []) ∧
    ∃ w policy, Workflow.parse (releaseText "a,b") = .ok w ∧
      w.networkPolicy? {} "default" = some policy ∧ policy.liveHosts ≠ w.contractHosts ∧
      ∃ report, (w.status {} (some "default")).run .memory (({} : Store).insert policy) =
          (.ok report, ({} : Store).insert policy) ∧ report.missing = ["a,b:443"] := by
  obtain ⟨plain, hplain, hsome, hhosts⟩ : ∃ w,
      Workflow.parse (releaseText "api.example.com") = .ok w ∧
        (w.networkPolicy? {} "default").isSome ∧ ∀ text ∈ w.contractHosts, ComesBack text :=
    exists_parse (by decide +kernel)
  obtain ⟨cut, hcut, hsome', hhosts'⟩ : ∃ w, Workflow.parse (releaseText "a,b") = .ok w ∧
      (w.networkPolicy? {} "default").isSome ∧
        (w.contractHosts.filter fun text => ¬ ComesBack text) = ["a,b:443"] :=
    exists_parse (by decide +kernel)
  -- Both drafts have a policy, which is read back right after it has been stored.
  obtain ⟨policy, hpolicy⟩ := Option.isSome_iff_exists.mp hsome
  obtain ⟨policy', hpolicy'⟩ := Option.isSome_iff_exists.mp hsome'
  constructor
  · obtain ⟨hback, hreport⟩ := fresh_policy_read_back hpolicy
    obtain ⟨report, hrun, -, -, hiff⟩ :=
      hreport {} (some "default") _ (get?_insert_of_networkPolicy hpolicy)
    exact ⟨plain, policy, hplain, hpolicy, hback.mpr hhosts, report, hrun, hiff.mpr hhosts⟩
  · obtain ⟨hback, hreport⟩ := fresh_policy_read_back hpolicy'
    obtain ⟨report, hrun, hmissing, -, hiff⟩ :=
      hreport {} (some "default") _ (get?_insert_of_networkPolicy hpolicy')
    refine ⟨cut, policy', hcut, hpolicy', fun heq => ?_, report, hrun, hmissing.trans hhosts'⟩
    -- If the lists were equal nothing would be missing, but the host with the comma is.
    have hnone := (hiff.mpr (hback.mp heq)).1
    rw [hmissing, hhosts'] at hnone
    cases hnone

end Workflow

end WorkflowPolicy
