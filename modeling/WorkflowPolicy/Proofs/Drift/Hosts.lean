import WorkflowPolicy.Drift.Hosts
import WorkflowPolicy.Proofs.NetworkPolicy.Scope

/-!
# What becomes of hosts on record

The external hosts of a contract are written down as one text with commas and read back from it
(`liveHosts_networkPolicy`). Hosts are any texts, so a host that itself holds a comma comes back in
parts. One without a comma comes back as a whole but for the blanks around it, and is a registry
with its port only if it is one without (`isBootstrapHost_hostPortText`).

So the policy that is made without the dependencies on registries has no registry on record, unless
a host with a comma has one among its parts. This is `Workflow.HidesRegistry`, and
`bootstrapHosts_networkPolicy_eq_nil_iff` says that there is no other exception.
-/

namespace WorkflowPolicy

open Net (Port)

/-! ### Registries -/

/-- The name by which a host is compared with the registries. -/
theorem isBootstrapHost_iff {host : String} : isBootstrapHost host = true ↔
    ∃ registry ∈ bootstrapHosts,
      withoutPort (Text.smallLetters (Text.trim host.toList)) = registry.toList := by
  unfold isBootstrapHost
  rw [List.contains_iff_mem]
  constructor
  · intro h
    exact ⟨_, h, String.toList_ofList.symm⟩
  · rintro ⟨registry, hregistry, heq⟩
    rw [heq, String.ofList_toList]
    exact hregistry

/-- The names of the registries have no port and no blanks. -/
theorem registry_plain : ∀ registry ∈ bootstrapHosts, ':' ∉ registry.toList ∧
    registry.toList.all (!Text.isBlank ·) = true := by
  decide

theorem withoutPort_of_not_mem {s : List Char} (h : ':' ∉ s) : withoutPort s = s := by
  rw [withoutPort, Text.splitLast_eq_none h]

/-- The port of an external host is taken off as it has been put on, and blanks before the host are
trimmed away. Blanks behind it stay, as does a port that it has of its own. -/
theorem withoutPort_hostPortText (host : String) (port : Port) :
    withoutPort (Text.smallLetters (Text.trim (EgressRule.hostPortText host port).toList)) =
      Text.smallLetters (Text.dropBlank host.toList) := by
  have hsmall : Text.smallLetters (':' :: (Net.portText port).toList) =
      ':' :: (Net.portText port).toList := by
    -- Small letters leave digits as they are, and the port has nothing else.
    rw [Text.smallLetters, List.map_cons,
      List.map_congr_left fun c hc => Text.toLower_of_isDigit (isDigit_of_mem_portText hc),
      List.map_id']
    rfl
  rw [trim_hostPortText, Text.smallLetters_append, hsmall, withoutPort,
    Text.splitLast_append (colon_not_mem_portText port)]
  simp [readPort?_portText]

/-- Letters that are those of a registry are no blanks. -/
theorem isBlank_of_smallLetters_eq {registry : String} {s : List Char}
    (hregistry : registry ∈ bootstrapHosts) (h : Text.smallLetters s = registry.toList) :
    ∀ c ∈ s, Text.isBlank c = false := by
  intro c hc
  -- The name has no blanks, and a letter is blank exactly if its small form is.
  have hplain := (registry_plain registry hregistry).2
  rw [← h, Text.smallLetters, List.all_map, List.all_eq_true] at hplain
  simpa [Text.isBlank_toLower] using hplain c hc

/-- **Blanks around a host do not matter.** -/
@[simp] theorem isBootstrapHost_trim (host : String) :
    isBootstrapHost (String.ofList (Text.trim host.toList)) = isBootstrapHost host := by
  simp only [isBootstrapHost, String.toList_ofList, Text.trim_trim]

/-- **A host with a port is a registry** exactly if the host is written like one but for capital
letters and blanks before it. -/
theorem isBootstrapHost_hostPortText_iff {host : String} {port : Port} :
    isBootstrapHost (EgressRule.hostPortText host port) = true ↔ ∃ registry ∈ bootstrapHosts,
      Text.smallLetters (Text.dropBlank host.toList) = registry.toList := by
  rw [isBootstrapHost_iff, withoutPort_hostPortText]

/-- A host with a port is a registry only if the host is one. -/
theorem isBootstrapHost_hostPortText {host : String} {port : Port}
    (h : isBootstrapHost (EgressRule.hostPortText host port) = true) :
    isBootstrapHost host = true := by
  obtain ⟨registry, hregistry, hname⟩ := isBootstrapHost_hostPortText_iff.mp h
  -- The host ends with no blank, so only its front is trimmed.
  have htrim : Text.trim host.toList = Text.dropBlank host.toList := Text.trim_eq_dropBlank
    fun hne => isBlank_of_smallLetters_eq hregistry hname _ (List.getLast_mem hne)
  refine isBootstrapHost_iff.mpr ⟨registry, hregistry, ?_⟩
  rw [htrim, hname, withoutPort_of_not_mem (registry_plain registry hregistry).1]

/-! ### Records -/

/-- Cutting and trimming in one piece. -/
theorem mem_hostsOfRecord {record host : String} : host ∈ hostsOfRecord record ↔
    ∃ part ∈ Text.splitAll ',' record.toList, Text.trim part ≠ [] ∧
      host = String.ofList (Text.trim part) := by
  simp only [hostsOfRecord, List.mem_map, List.mem_filter, Bool.not_eq_true',
    List.isEmpty_eq_false_iff]
  constructor
  · rintro ⟨_, ⟨⟨part, hpart, rfl⟩, hne⟩, rfl⟩
    exact ⟨part, hpart, hne, rfl⟩
  · rintro ⟨part, hpart, hne, rfl⟩
    exact ⟨_, ⟨⟨part, hpart, rfl⟩, hne⟩, rfl⟩

/-- **Reading a record back** gives the parts of each of the hosts that were written down. -/
theorem hostsOfRecord_joined (hosts : List String) :
    hostsOfRecord (Text.joined "," hosts) = hosts.flatMap hostsOfRecord := by
  cases hosts with
  | nil => decide
  | cons host hosts =>
    -- What is joined is cut at the commas that were put in, and within each host at its own.
    unfold hostsOfRecord
    rw [Text.splitAll_joined (by decide) (List.cons_ne_nil host hosts)]
    simp only [List.map_flatMap, List.filter_flatMap]

/-- A host without a comma comes back as a whole. -/
theorem isBootstrapHost_of_mem_hostsOfRecord {host part : String} (hcomma : ',' ∉ host.toList)
    (h : part ∈ hostsOfRecord host) : isBootstrapHost part = isBootstrapHost host := by
  obtain ⟨piece, hpiece, -, rfl⟩ := mem_hostsOfRecord.mp h
  -- Without a comma the host is its only part.
  rw [Text.splitAll_of_not_mem hcomma, List.mem_singleton] at hpiece
  rw [hpiece, isBootstrapHost_trim]

/-! ### The policy without registries -/

/-- A workflow without a contract only looks names up, so it has no external hosts either. -/
theorem Workflow.contractHosts_eq (w : Workflow) :
    w.contractHosts = externalHosts (egressRules w.contract) := by
  unfold contractHosts
  cases w.contract with
  | none => decide +kernel
  | some c => rfl

/-- External hosts are hosts with ports. -/
theorem Workflow.exists_hostPort_of_mem_contractHosts {w : Workflow} {text : String}
    (h : text ∈ w.contractHosts) : ∃ host port, text = EgressRule.hostPortText host port := by
  rw [contractHosts_eq, mem_externalHosts_iff] at h
  obtain ⟨r, -, -, -, htext⟩ := h
  obtain ⟨host, port, -, -, rfl⟩ := EgressRule.hostPort?_eq_some_iff.mp htext
  exact ⟨host, port, rfl⟩

/-- The external hosts without the registries are declared, and are none. -/
theorem exists_host_of_mem_contractHosts {w : Workflow} {text : String}
    (h : text ∈ w.withoutBootstrap.contractHosts) :
    ∃ d ∈ w.dependencies.values, ∃ host port, d.target.host? = some host ∧
      isBootstrapHost host = false ∧ text = EgressRule.hostPortText host port := by
  -- The contract without registries has the other dependencies, and each external host comes from
  -- one.
  cases hcontract : w.contract with
  | none => simp [Workflow.contractHosts, Workflow.withoutBootstrap, hcontract] at h
  | some c =>
    simp only [Workflow.contractHosts, Workflow.withoutBootstrap, hcontract,
      Option.map_some] at h
    obtain ⟨d, hd, service, host, declared, port, htarget, rfl⟩ :=
      exists_service_of_mem_externalHosts h
    rw [Contract.withoutBootstrap, Roster.values_filter, List.mem_filter] at hd
    have hhost : d.target.host? = some host := by rw [htarget]; rfl
    have hkept : isBootstrapHost host = false := by
      simpa [Target.isBootstrap, hhost] using hd.2
    refine ⟨d, ?_, host, port, hhost, hkept, rfl⟩
    rw [Workflow.dependencies, hcontract]
    exact hd.1

/-- **A host with a comma hides a registry**: it is none itself, and has one among its parts. -/
def Workflow.HidesRegistry (w : Workflow) : Prop :=
  ∃ host ∈ w.withoutBootstrap.contractHosts, ',' ∈ host.toList ∧
    ∃ part ∈ hostsOfRecord host, isBootstrapHost part = true

instance (w : Workflow) : Decidable w.HidesRegistry :=
  inferInstanceAs (Decidable (∃ host ∈ w.withoutBootstrap.contractHosts, ',' ∈ host.toList ∧
    ∃ part ∈ hostsOfRecord host, isBootstrapHost part = true))

/-- What the policy of a workflow has on record are the parts of the external hosts of its
contract. -/
theorem liveHosts_networkPolicy {settings : PolicySettings} {w : Workflow} {namespaceName : String}
    {policy : NetworkPolicy} (h : w.networkPolicy? settings namespaceName = some policy) :
    policy.liveHosts = w.contractHosts.flatMap hostsOfRecord := by
  rw [NetworkPolicy.liveHosts, recordedHosts?_networkPolicy h, w.contractHosts_eq]
  -- Without external hosts there is no record, which is read as no hosts.
  by_cases hhosts : externalHosts (egressRules w.contract) = []
  · rw [if_pos hhosts, hhosts]
    rfl
  · -- With external hosts there is a record, and it has all of them with commas between.
    rw [if_neg hhosts]
    exact hostsOfRecord_joined _

/-- **Nothing is hidden** exactly if no part of a host that is kept is a registry. -/
theorem not_hidesRegistry_iff {w : Workflow} : ¬ w.HidesRegistry ↔
    ∀ text ∈ w.withoutBootstrap.contractHosts, ∀ part ∈ hostsOfRecord text,
      isBootstrapHost part = false := by
  constructor
  · intro hhides text htext part hpart
    rw [Bool.eq_false_iff]
    intro hregistry
    -- A registry among the parts is hidden if there is a comma, and else cannot be.
    by_cases hcomma : ',' ∈ text.toList
    · exact hhides ⟨text, htext, hcomma, part, hpart, hregistry⟩
    · obtain ⟨d, -, host, port, -, hkept, rfl⟩ := exists_host_of_mem_contractHosts htext
      rw [isBootstrapHost_of_mem_hostsOfRecord hcomma hpart] at hregistry
      rw [isBootstrapHost_hostPortText hregistry] at hkept
      cases hkept
  · rintro hnone ⟨text, htext, -, part, hpart, hregistry⟩
    rw [hnone text htext part hpart] at hregistry
    cases hregistry

/-- **The policy made without registries has one on record exactly if one is hidden.** -/
theorem bootstrapHosts_networkPolicy_eq_nil_iff {settings : PolicySettings} {w : Workflow}
    {namespaceName : String} {policy : NetworkPolicy}
    (h : w.withoutBootstrap.networkPolicy? settings namespaceName = some policy) :
    policy.bootstrapHosts = [] ↔ ¬ w.HidesRegistry := by
  rw [NetworkPolicy.bootstrapHosts, liveHosts_networkPolicy h, List.filter_eq_nil_iff,
    not_hidesRegistry_iff]
  -- Both sides say of every part that is read that it is no registry.
  simp only [List.mem_flatMap, forall_exists_index, and_imp, Bool.not_eq_true]
  exact ⟨fun hnone text htext part hpart => hnone part text htext hpart,
    fun hnone part text htext hpart => hnone text htext part hpart⟩

end WorkflowPolicy
