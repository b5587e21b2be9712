import WorkflowPolicy.Access.Egress
import WorkflowPolicy.Proofs.Draft.Accepted

/-!
# The egress rules of accepted contracts

`Contract.Asks` says which flows a contract asks for, case by case and without the lists of
`Contract.declaredEgress`. For an accepted contract the rules after the two for looking names up
are exactly these (`accepted_contract_rendered`).

The blocks that are opened by hand are kept as texts and read a second time when rules are made,
where a text that cannot be read would be passed over, and a block none of whose ports can be read
would be opened at any port. Neither happens, since the check has read the same texts
(`mem_egress_extra_iff`). Sorting and dropping repeats keep the elements, so they play no part.
-/

namespace WorkflowPolicy

open Net (Cidr Port PortSpec)

/-! ### What a contract asks for -/

/-- **The flows that a contract asks for.** -/
inductive Contract.Asks (c : Contract) : EgressRule → Prop where
  /-- A target known at run time only: each of its ports, at its block. -/
  | dynamic {d : Dependency} {protocol : String} {block : Cidr} {ports : List PortSpec}
      {p : PortSpec} (declared : d ∈ c.dependencies.values)
      (target : d.target = .dynamic protocol block ports) (listed : p ∈ ports) :
      c.Asks ⟨.block block, some p.port, p.protocol⟩
  /-- A service on a known host: the port that counts, if there is one. -/
  | fixed {d : Dependency} {service : Service} {host : String} {declaredPort : Option Port}
      {port : Port} (declared : d ∈ c.dependencies.values)
      (target : d.target = .fixed service host declaredPort) (named : host ≠ "")
      (resolved : (declaredPort <|> service.defaultPort?) = some port) :
      c.Asks ⟨.host host, some port, .tcp⟩
  /-- A block opened by hand without ports: any port. -/
  | opened {e : ExtraEgress} {block : Cidr} (declared : e ∈ c.extraEgress)
      (read : Cidr.parse? e.cidr = some block) (unlisted : e.ports = []) :
      c.Asks ⟨.block block, none, .tcp⟩
  /-- A block opened by hand with ports: each of them. -/
  | openedAt {e : ExtraEgress} {block : Cidr} {spec : String} {p : PortSpec}
      (declared : e ∈ c.extraEgress) (read : Cidr.parse? e.cidr = some block)
      (listed : spec ∈ e.ports) (readPort : PortSpec.parse? spec = some p) :
      c.Asks ⟨.block block, some p.port, p.protocol⟩

/-- The contract without its packages. -/
def Contract.withoutPackages (c : Contract) : Contract :=
  { c with dependencies := c.dependencies.filter fun d => !d.target.isPackage }

/-- **Rules that render a contract**, without dropping or widening anything. -/
structure Contract.RenderedAs (c : Contract) (rules : List EgressRule) : Prop where
  /-- The rules are the flows that the contract asks for. -/
  exactly : ∀ r, r ∈ rules ↔ c.Asks r
  /-- No block that is opened by hand is skipped, and none of its ports. -/
  complete : ∀ e ∈ c.extraEgress, ∃ block, Cidr.parse? e.cidr = some block ∧
    (e.ports = [] → ⟨.block block, none, .tcp⟩ ∈ rules) ∧
    ∀ spec ∈ e.ports, ∃ p, PortSpec.parse? spec = some p ∧
      ⟨.block block, some p.port, p.protocol⟩ ∈ rules
  /-- A rule for any port comes from a block that lists no ports. -/
  anyPort : ∀ r ∈ rules, r.port = none → ∃ e ∈ c.extraEgress, e.ports = [] ∧ r ∈ e.egress
  /-- A block that lists ports is opened at no others. -/
  listed : ∀ e ∈ c.extraEgress, e.ports ≠ [] → ∀ r ∈ e.egress, r.port ≠ none
  /-- Packages contribute nothing. -/
  packages : egressRules (some c.withoutPackages) = egressRules (some c)
  /-- Every port is a port number. -/
  ports : ∀ r ∈ egressRules (some c), ∀ p, r.port = some p → 1 ≤ p.toNat ∧ p.toNat ≤ 65535

/-! ### The rules of one target and of one block -/

theorem mem_egress_target_iff {t : Target} {r : EgressRule} : r ∈ t.egress ↔
    (∃ protocol block ports, t = .dynamic protocol block ports ∧
      ∃ p ∈ ports, r = ⟨.block block, some p.port, p.protocol⟩) ∨
    (∃ service host declared, t = .fixed service host declared ∧ host ≠ "" ∧
      ∃ port, (declared <|> service.defaultPort?) = some port ∧
        r = ⟨.host host, some port, .tcp⟩) := by
  cases t with
  | dynamic protocol block ports => simp [Target.egress, eq_comm]
  | package registry specifier version => simp [Target.egress, Target.host?]
  | fixed service host declared =>
    have hegress : r ∈ (Target.fixed service host declared).egress ↔ host ≠ "" ∧
        ∃ port, (declared <|> service.defaultPort?) = some port ∧
          r = ⟨.host host, some port, .tcp⟩ := by
      simp only [Target.egress, Target.host?, Target.resolvedPort?]
      generalize (declared <|> service.defaultPort?) = resolved
      by_cases hhost : host = ""
      · simp [hhost]
      · have hnamed : (some host).filter (fun name => !name.isEmpty) = some host := by
          simp [Option.filter, hhost]
        rw [hnamed]
        cases resolved <;> simp [hhost]
    rw [hegress]
    constructor
    · intro hfixed
      exact .inr ⟨service, host, declared, rfl, hfixed⟩
    · rintro (⟨_, _, _, htarget, -⟩ | ⟨_, _, _, htarget, hfixed⟩)
      · cases htarget
      · cases htarget
        exact hfixed

theorem egress_eq_nil_of_isPackage {t : Target} (h : t.isPackage = true) : t.egress = [] := by
  cases t with
  | package registry specifier version => rfl
  | fixed service host declared => cases h
  | dynamic protocol block ports => cases h

/-- Where all specifications can be read, reading drops none of them. -/
theorem filterMap_parse?_eq_nil_iff {specs : List String} (h : ∀ spec ∈ specs, Draft.IsPort spec) :
    specs.filterMap PortSpec.parse? = [] ↔ specs = [] := by
  rw [List.filterMap_eq_nil_iff]
  constructor
  · intro hnone
    refine List.eq_nil_iff_forall_not_mem.mpr fun spec hspec => ?_
    obtain ⟨p, hp⟩ := h spec hspec
    rw [hnone spec hspec] at hp
    cases hp
  · rintro rfl spec hspec
    exact absurd hspec List.not_mem_nil

/-- **The rules of a block that is opened by hand**, if its texts can be read. -/
theorem mem_egress_extra_iff {e : ExtraEgress} (h : e.Readable) {r : EgressRule} :
    r ∈ e.egress ↔ ∃ block, Cidr.parse? e.cidr = some block ∧
      ((e.ports = [] ∧ r = ⟨.block block, none, .tcp⟩) ∨
        ∃ spec ∈ e.ports, ∃ p, PortSpec.parse? spec = some p ∧
          r = ⟨.block block, some p.port, p.protocol⟩) := by
  obtain ⟨block, hblock⟩ := h.block
  -- All specifications can be read, so no ports are left only if none were written.
  have hports := filterMap_parse?_eq_nil_iff h.ports
  simp only [ExtraEgress.egress, hblock, Option.some.injEq, exists_eq_left']
  split
  · next hnil =>
    rw [hports] at hnil
    simp [hnil]
  · next ports hne =>
    have hlisted : e.ports ≠ [] := fun hnil => hne (hports.mpr hnil)
    simp only [hlisted, false_and, false_or, List.mem_map, List.mem_filterMap]
    constructor
    · rintro ⟨p, ⟨spec, hspec, hp⟩, rfl⟩
      exact ⟨spec, hspec, p, hp, rfl⟩
    · rintro ⟨spec, hspec, p, hp, rfl⟩
      exact ⟨p, ⟨spec, hspec, hp⟩, rfl⟩

/-- No rule of a block has a host. -/
theorem host?_of_mem_egress_extra {e : ExtraEgress} {r : EgressRule} (h : r ∈ e.egress) :
    r.host? = none := by
  unfold ExtraEgress.egress at h
  split at h
  · cases h
  · split at h
    · rw [List.mem_singleton.mp h]
      rfl
    · obtain ⟨p, -, rfl⟩ := List.mem_map.mp h
      rfl

/-! ### The rules of a contract -/

theorem mem_declaredEgress_iff {c : Contract} (h : c.Sound) {r : EgressRule} :
    r ∈ c.declaredEgress ↔ c.Asks r := by
  simp only [Contract.declaredEgress, List.mem_append, List.mem_flatMap, mem_egress_target_iff]
  constructor
  -- From a rule to what asks for it, and back, one case for each kind of flow.
  · rintro (⟨d, hd, ⟨protocol, block, ports, htarget, p, hp, rfl⟩ |
      ⟨service, host, declared, htarget, hhost, port, hport, rfl⟩⟩ | ⟨e, he, hr⟩)
    · exact .dynamic hd htarget hp
    · exact .fixed hd htarget hhost hport
    · rw [mem_egress_extra_iff (h.readable e he)] at hr
      obtain ⟨block, hblock, ⟨hports, rfl⟩ | ⟨spec, hspec, p, hp, rfl⟩⟩ := hr
      · exact .opened he hblock hports
      · exact .openedAt he hblock hspec hp
  · rintro (⟨hd, htarget, hp⟩ | ⟨hd, htarget, hhost, hport⟩ | ⟨he, hblock, hports⟩ |
      ⟨he, hblock, hspec, hp⟩)
    · exact .inl ⟨_, hd, .inl ⟨_, _, _, htarget, _, hp, rfl⟩⟩
    · exact .inl ⟨_, hd, .inr ⟨_, _, _, htarget, hhost, _, hport, rfl⟩⟩
    · exact .inr ⟨_, he, (mem_egress_extra_iff (h.readable _ he)).mpr
        ⟨_, hblock, .inl ⟨hports, rfl⟩⟩⟩
    · exact .inr ⟨_, he, (mem_egress_extra_iff (h.readable _ he)).mpr
        ⟨_, hblock, .inr ⟨_, hspec, _, hp, rfl⟩⟩⟩

/-- The defaults of the protocols are no zeros. -/
theorem defaultPort_ne_zero (protocol : Protocol) : protocol.defaultPort ≠ some 0 := by
  cases protocol <;> decide

/-- The port that counts is no zero, if the declared one is none. -/
theorem resolved_ne_zero {service : Service} {declared : Option Port} (h : declared ≠ some 0) :
    (declared <|> service.defaultPort?) ≠ some 0 := by
  cases declared with
  | some port => exact h
  | none =>
    unfold Service.defaultPort?
    cases Protocol.ofName? service.protocolName with
    | none => simp
    | some protocol => exact defaultPort_ne_zero protocol

/-- No flow that a sound contract asks for is at port zero. -/
theorem port_ne_zero_of_asks {c : Contract} (h : c.Sound) {r : EgressRule} (hr : c.Asks r) :
    r.port ≠ some 0 := by
  cases hr with
  | @dynamic d _ _ _ p hd htarget hp =>
    have hnumbered := h.numbered d hd
    rw [htarget] at hnumbered
    exact fun hzero => hnumbered p hp (Option.some.inj hzero)
  | @fixed d service host declaredPort port hd htarget _ hport =>
    have hnumbered := h.numbered d hd
    rw [htarget] at hnumbered
    rw [← hport]
    exact resolved_ne_zero hnumbered
  | opened => exact fun hzero => by cases hzero
  | openedAt _ _ _ hp => exact fun hzero => port_ne_zero_of_parse? hp (Option.some.inj hzero)

theorem port_in_range {p : Port} (h : p ≠ 0) : 1 ≤ p.toNat ∧ p.toNat ≤ 65535 := by
  have hlt : p.toNat < 65536 := p.toNat_lt
  have hpos : p.toNat ≠ 0 := fun hzero => h (UInt16.toNat_inj.mp hzero)
  omega

/-- Leaving out what contributes nothing makes no difference. -/
theorem flatMap_filter_of_nil {α β : Type} {keep : α → Bool} {f : α → List β} {xs : List α}
    (h : ∀ x ∈ xs, keep x = false → f x = []) : (xs.filter keep).flatMap f = xs.flatMap f := by
  induction xs with
  | nil => rfl
  | cons x xs ih =>
    have hrest := ih fun y hy => h y (List.mem_cons_of_mem _ hy)
    cases hx : keep x with
    | true => rw [List.filter_cons_of_pos hx, List.flatMap_cons, List.flatMap_cons, hrest]
    | false =>
      rw [List.filter_cons_of_neg (by simp [hx]), List.flatMap_cons, hrest,
        h x List.mem_cons_self hx, List.nil_append]

theorem declaredEgress_withoutPackages (c : Contract) :
    c.withoutPackages.declaredEgress = c.declaredEgress := by
  have hpackage : ∀ d ∈ c.dependencies.values, (!d.target.isPackage) = false →
      d.target.egress = [] := fun d _ hd => egress_eq_nil_of_isPackage (by simpa using hd)
  simp only [Contract.declaredEgress, Contract.withoutPackages, Roster.values_filter]
  rw [flatMap_filter_of_nil hpackage]
  rfl

/-- **The rules of an accepted contract** are the two for looking names up and those that render
it. -/
theorem accepted_contract_rendered (c : Contract) (h : c.Accepted) :
    ∃ rules, egressRules (some c) = dnsRules ++ rules ∧ dnsRules.length = 2 ∧
      c.RenderedAs rules := by
  have hsound := sound_of_accepted h
  -- Sorting and dropping repeats keep the elements.
  have hexact : ∀ r, r ∈ dropRepeats (sortBy EgressRule.precedes c.declaredEgress) ↔
      c.Asks r := fun r => by
    rw [mem_dropRepeats, mem_sortBy, mem_declaredEgress_iff hsound]
  refine ⟨_, rfl, rfl, hexact, ?_, ?_, ?_, ?_, ?_⟩
  · -- No block is skipped, since its texts can be read.
    intro e he
    obtain ⟨block, hblock⟩ := (hsound.readable e he).block
    refine ⟨block, hblock, fun hports => (hexact _).mpr (.opened he hblock hports), ?_⟩
    intro spec hspec
    obtain ⟨p, hp⟩ := (hsound.readable e he).ports spec hspec
    exact ⟨p, hp, (hexact _).mpr (.openedAt he hblock hspec hp)⟩
  · -- Of the four kinds of flows only one has no port.
    intro r hr hport
    cases (hexact r).mp hr with
    | @opened e block he hblock hports =>
      exact ⟨e, he, hports, (mem_egress_extra_iff (hsound.readable e he)).mpr
        ⟨block, hblock, .inl ⟨hports, rfl⟩⟩⟩
    | dynamic => cases hport
    | fixed => cases hport
    | openedAt => cases hport
  · -- A block that lists ports has only rules for these.
    intro e he hports r hr
    rw [mem_egress_extra_iff (hsound.readable e he)] at hr
    obtain ⟨block, -, ⟨hnil, -⟩ | ⟨spec, -, p, -, rfl⟩⟩ := hr
    · exact absurd hnil hports
    · simp
  · rw [egressRules, egressRules, declaredEgress_withoutPackages]
  · intro r hr p hp
    apply port_in_range
    rintro rfl
    have hdns : ∀ r ∈ dnsRules, r.port ≠ some 0 := by decide
    rcases List.mem_append.mp hr with hlookup | hrule
    · exact hdns r hlookup hp
    · exact port_ne_zero_of_asks hsound ((hexact r).mp hrule) hp

/-- A draft with a dependency of each kind and two blocks, only one of which lists its ports. -/
def officeDraft : Draft.Contract where
  version := "1"
  dependencies := some (.ofList
    [ ("db", { protocol := "postgresql", host := "db.office", database := "books", user := "ann" }),
      ("lan",
        { protocol := "x", kind := "dynamic-target", cidr := "10.0.0.0/8",
          dynPorts := ["53/udp"] }),
      ("lib", { protocol := "jsr", host := "@std/path" }) ])
  override := some
    [⟨"192.168.0.0/16", [], "printers"⟩, ⟨"172.16.0.0/12", ["8443", "22/tcp"], ""⟩]

/-- The contract of `officeDraft`. -/
def officeContract : Contract where
  dependencies := .ofList
    [ ("db", ⟨.fixed (.postgresql "books" "ann") "db.office" none, none, .empty⟩),
      ("lan", ⟨.dynamic "x" ⟨.v4 #v[10, 0, 0, 0], 8⟩ [⟨53, .udp⟩], none, .empty⟩),
      ("lib", ⟨.package .jsr "@std/path" none, none, .empty⟩) ]
  override := some
    [ ⟨"192.168.0.0/16", [], some "printers"⟩,
      ⟨"172.16.0.0/12", ["8443", "22/tcp"], none⟩ ]

/-- A contract with targets of all kinds is accepted and rendered. The database, which declares no
port, is opened at the default one of its protocol and at no other. -/
theorem office_contract_rendered : officeContract.Accepted ∧
    ∃ rules, egressRules (some officeContract) = dnsRules ++ rules ∧ dnsRules.length = 2 ∧
      officeContract.RenderedAs rules ∧ ⟨.host "db.office", some 5432, .tcp⟩ ∈ rules ∧
      ∀ port, ⟨.host "db.office", port, .tcp⟩ ∈ rules → port = some 5432 := by
  have haccepted : officeContract.Accepted := .inl ⟨officeDraft, by rfl⟩
  obtain ⟨rules, hrules, hlookup, hrendered⟩ :=
    accepted_contract_rendered officeContract haccepted
  refine ⟨haccepted, rules, hrules, hlookup, hrendered, ?_, fun port hport => ?_⟩
  · exact (hrendered.exactly _).mpr (.fixed List.mem_cons_self rfl (by decide) rfl)
  · cases (hrendered.exactly _).mp hport with
    | @fixed d service _ declaredPort _ hd htarget _ hresolved =>
      -- Of the three dependencies only the database is on a fixed host.
      have hdatabase : d ∈ [_, _, _] := hd
      simp only [List.mem_cons, List.not_mem_nil, or_false] at hdatabase
      rcases hdatabase with rfl | rfl | rfl
      · cases htarget
        exact hresolved.symm
      · cases htarget
      · cases htarget

end WorkflowPolicy
