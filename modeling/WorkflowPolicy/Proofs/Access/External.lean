import WorkflowPolicy.Proofs.Access.Egress
import WorkflowPolicy.Proofs.Net.Port
import WorkflowPolicy.Proofs.Text.Cutting

/-!
# External hosts

The external hosts of rules are texts, each a host and a port with a colon between them. The port
has no colon, so the host is what comes before the last one (`hostPortText_inj`), however many the
host itself has. A rule of a contract that is not for looking names up is therefore among the
external hosts exactly if its own destination is outside of the cluster (`listed_iff`): no other
rule can put its text there.
-/

namespace WorkflowPolicy

open Net (Port)

/-! ### Hosts with ports as texts -/

theorem toList_hostPortText (host : String) (port : Port) :
    (EgressRule.hostPortText host port).toList =
      host.toList ++ ':' :: (Net.portText port).toList := by
  simp [EgressRule.hostPortText]

theorem colon_not_mem_portText (port : Port) : ':' ∉ (Net.portText port).toList := by
  intro hmem
  have hdigit := isDigit_of_mem_portText hmem
  exact absurd hdigit (by decide)

/-- A port has no commas either. -/
theorem comma_mem_hostPortText {host : String} {port : Port} :
    ',' ∈ (EgressRule.hostPortText host port).toList ↔ ',' ∈ host.toList := by
  -- A comma would be a digit of the port.
  have hport : ',' ∉ ':' :: (Net.portText port).toList := by
    rw [List.mem_cons, not_or]
    exact ⟨by decide, fun hmem => absurd (isDigit_of_mem_portText hmem) (by decide)⟩
  rw [toList_hostPortText, List.mem_append, or_iff_left hport]

/-- Behind a host with a port there is nothing to trim. -/
theorem trim_hostPortText (host : String) (port : Port) :
    Text.trim (EgressRule.hostPortText host port).toList =
      Text.dropBlank host.toList ++ ':' :: (Net.portText port).toList := by
  rw [toList_hostPortText, Text.trim_append (by decide)
    fun c hc => Text.isBlank_of_isDigit (isDigit_of_mem_portText hc)]

/-- The last colon is the one between the host and the port. -/
theorem splitLast_hostPortText (host : String) (port : Port) :
    Text.splitLast ':' (EgressRule.hostPortText host port).toList =
      some (host.toList, (Net.portText port).toList) := by
  rw [toList_hostPortText, Text.splitLast_append (colon_not_mem_portText port)]

/-- **Host and port can be told from the text.** -/
theorem hostPortText_inj {host host' : String} {port port' : Port} :
    EgressRule.hostPortText host port = EgressRule.hostPortText host' port' ↔
      host = host' ∧ port = port' := by
  constructor
  · intro h
    -- The text is cut at its last colon, and what is cut off is read as the port.
    have hcut := splitLast_hostPortText host port
    rw [h, splitLast_hostPortText host' port'] at hcut
    obtain ⟨hhost, hport⟩ := Prod.mk.inj (Option.some.inj hcut)
    have hread := readPort?_portText port
    rw [← hport, readPort?_portText port'] at hread
    exact ⟨(String.toList_inj.mp hhost).symm, (Option.some.inj hread).symm⟩
  · rintro ⟨rfl, rfl⟩
    rfl

namespace EgressRule

theorem hostPort?_eq_some_iff {r : EgressRule} {text : String} : r.hostPort? = some text ↔
    ∃ host port, r.host? = some host ∧ r.port = some port ∧ text = hostPortText host port := by
  unfold hostPort?
  cases r.host? with
  | none => simp
  | some host =>
    cases r.port with
    | none => simp
    | some port => simp [eq_comm]

/-- Away from the port for looking names up, the external rules are those of hosts outside. -/
theorem isExternal_iff {r : EgressRule} (h : r.port ≠ some Cluster.dnsPort) :
    r.isExternal = true ↔ ∃ host, r.host? = some host ∧ isServiceName host = false := by
  -- The other two reasons for not being external go by the port and by being a block.
  simp only [isExternal, isDns, isBlock, isInternal]
  cases r.host? <;> simp [h]

end EgressRule

/-! ### External hosts of rules -/

theorem mem_externalHosts_iff {rules : List EgressRule} {text : String} :
    text ∈ externalHosts rules ↔ ∃ r ∈ rules, r.isExternal = true ∧
      r.port ≠ some Cluster.dnsPort ∧ r.hostPort? = some text := by
  simp only [externalHosts, mem_distinct, List.mem_filterMap, List.mem_filter, Bool.and_eq_true,
    bne_iff_ne, and_assoc]

/-- **The rules of a contract for hosts** are those for looking names up and those of services. -/
theorem exists_service_of_host? {c : Contract} {r : EgressRule} (hr : r ∈ egressRules (some c))
    {host : String} (hhost : r.host? = some host) : r ∈ dnsRules ∨
      ∃ d ∈ c.dependencies.values, ∃ service declared port,
        d.target = .fixed service host declared ∧ r = ⟨.host host, some port, .tcp⟩ := by
  rw [egressRules, List.mem_append, mem_dropRepeats, mem_sortBy, Contract.declaredEgress,
    List.mem_append, List.mem_flatMap, List.mem_flatMap] at hr
  -- What has a host is a rule for looking names up or for a fixed target, and blocks opened by hand
  -- have none.
  rcases hr with hdns | ⟨d, hd, htarget⟩ | ⟨e, -, hextra⟩
  · exact .inl hdns
  · rcases mem_egress_target_iff.mp htarget with ⟨_, _, _, -, p, -, rfl⟩ |
      ⟨service, host', declared, heq, -, port, -, rfl⟩
    · cases hhost
    · obtain rfl : host' = host := Option.some.inj hhost
      exact .inr ⟨d, hd, service, declared, port, heq, rfl⟩
  · rw [host?_of_mem_egress_extra hextra] at hhost
    cases hhost

/-- The rules of a contract for hosts have ports. -/
theorem exists_port_of_host? {contract : Option Contract} {r : EgressRule}
    (hr : r ∈ egressRules contract) {host : String} (hhost : r.host? = some host) :
    ∃ port, r.port = some port := by
  have hlookup : ∀ r ∈ dnsRules, r.port = some Cluster.dnsPort := by decide
  cases contract with
  | none => exact ⟨_, hlookup r hr⟩
  | some c =>
    -- Each of the two kinds has its port.
    rcases exists_service_of_host? hr hhost with hdns | ⟨d, -, service, declared, port, -, rfl⟩
    · exact ⟨_, hlookup r hdns⟩
    · exact ⟨port, rfl⟩

/-- External hosts are those of services that the contract declares. -/
theorem exists_service_of_mem_externalHosts {c : Contract} {text : String}
    (h : text ∈ externalHosts (egressRules (some c))) :
    ∃ d ∈ c.dependencies.values, ∃ service host declared port,
      d.target = .fixed service host declared ∧ text = EgressRule.hostPortText host port := by
  obtain ⟨r, hmem, hexternal, -, htext⟩ := mem_externalHosts_iff.mp h
  obtain ⟨host, port, hhost, hport, rfl⟩ := EgressRule.hostPort?_eq_some_iff.mp htext
  rcases exists_service_of_host? hmem hhost with hdns | ⟨d, hd, service, declared, port', heq, rfl⟩
  · -- The rules for looking names up are not external.
    have hlookup : ∀ r ∈ dnsRules, r.isExternal = false := by decide +kernel
    rw [hlookup r hdns] at hexternal
    cases hexternal
  · exact ⟨d, hd, service, host, declared, port, heq, rfl⟩

/-- **A rule is listed as external by its own destination only.** -/
theorem listed_iff {contract : Option Contract} {r : EgressRule}
    (hr : r ∈ egressRules contract) (hport : r.port ≠ some Cluster.dnsPort) :
    (∃ text ∈ externalHosts (egressRules contract), r.hostPort? = some text) ↔
      r.isExternal = true := by
  constructor
  · rintro ⟨text, htext, hself⟩
    obtain ⟨other, -, hexternal, hotherPort, hother⟩ := mem_externalHosts_iff.mp htext
    obtain ⟨host, port, hhost, -, rfl⟩ := EgressRule.hostPort?_eq_some_iff.mp hself
    obtain ⟨host', port', hhost', -, hsame⟩ := EgressRule.hostPort?_eq_some_iff.mp hother
    -- Whatever rule has put the text there has the same host.
    obtain ⟨rfl, -⟩ := hostPortText_inj.mp hsame
    obtain ⟨host', heq, houtside⟩ := (EgressRule.isExternal_iff hotherPort).mp hexternal
    obtain rfl := Option.some.inj (hhost'.symm.trans heq)
    exact (EgressRule.isExternal_iff hport).mpr ⟨host, hhost, houtside⟩
  · -- A rule for a host outside has its own text, and that is listed.
    intro hexternal
    obtain ⟨host, hhost, -⟩ := (EgressRule.isExternal_iff hport).mp hexternal
    obtain ⟨port, hsome⟩ := exists_port_of_host? hr hhost
    have htext : r.hostPort? = some (EgressRule.hostPortText host port) :=
      EgressRule.hostPort?_eq_some_iff.mpr ⟨host, port, hhost, hsome, rfl⟩
    exact ⟨_, mem_externalHosts_iff.mpr ⟨r, hr, hexternal, hport, htext⟩, htext⟩

end WorkflowPolicy
