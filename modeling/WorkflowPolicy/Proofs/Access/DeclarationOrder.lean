import WorkflowPolicy.Proofs.Access.Egress
import WorkflowPolicy.Proofs.Access.RuleOrder
import WorkflowPolicy.Proofs.Net.Cidr
import WorkflowPolicy.Proofs.Order.Levels

/-!
# Rules and the order of a walk

The dependencies of a contract are walked through in no meaningful order, and the rules that are
derived on the walk are sorted, so that the order should not matter. It does where different rules
stand on one level. As no two blocks have the same text, this takes a host that is written like a
block (`EgressRule.sameLevel_iff`): a dependency on the host `10.0.0.0/8` and one on the block, at
one port.

`egressRules_of_walk` says that this is the only way. Where there is no such pair, every walk gives
the same rules, and each of them once. Where there is one (`Contract.Ambiguous`), two walks give
different rules, and a rule occurs twice if the two alternate on the walk
(`Contract.Interleaved`).
-/

namespace WorkflowPolicy

open Net (Cidr Port PortSpec Transport)

/-! ### Rules on one level -/

namespace EgressRule

theorem protocolRank_injective : Function.Injective protocolRank := by
  intro p q h
  cases p <;> cases q <;> first | rfl | cases h

/-- Rules stand on one level if nothing that is compared tells them apart. -/
theorem sameLevel_precedes_iff {a b : EgressRule} : SameLevel precedes a b ↔
    a.destination.text = b.destination.text ∧ a.port = b.port ∧ a.protocol = b.protocol := by
  -- What is compared is the key, and two keys with neither before the other are equal.
  have hkey : SameLevel precedes a b ↔ a.orderKey = b.orderKey := by
    rw [SameLevel, precedes_iff, precedes_iff]
    exact le_antisymm_iff.symm
  rw [hkey]
  constructor
  · intro h
    obtain ⟨htext, hrest⟩ := Prod.mk.inj h
    obtain ⟨hport, hprotocol⟩ := Prod.mk.inj hrest
    exact ⟨htext, portRank_injective hport, protocolRank_injective hprotocol⟩
  · rintro ⟨htext, hport, hprotocol⟩
    rw [orderKey, orderKey, htext, hport, hprotocol]

/-- The rule for a host that is written like a block. -/
def hostLike (block : Cidr) (port : Port) : EgressRule := ⟨.host block.text, some port, .tcp⟩

/-- The rule for the block. -/
def forBlock (block : Cidr) (port : Port) : EgressRule := ⟨.block block, some port, .tcp⟩

theorem sameLevel_hostLike (block : Cidr) (port : Port) :
    SameLevel precedes (hostLike block port) (forBlock block port) :=
  sameLevel_precedes_iff.mpr ⟨rfl, rfl, rfl⟩

theorem hostLike_ne_forBlock (block : Cidr) (port : Port) :
    hostLike block port ≠ forBlock block port := by
  intro h
  cases h

/-- **Different rules on one level**: one is for a host and the other for the block that is written
like it. -/
theorem eq_or_of_sameLevel {a b : EgressRule} (h : SameLevel precedes a b) :
    a = b ∨ ∃ block,
      (a.destination = .host block.text ∧ b = { a with destination := .block block }) ∨
      (b.destination = .host block.text ∧ a = { b with destination := .block block }) := by
  obtain ⟨htext, hport, hprotocol⟩ := sameLevel_precedes_iff.mp h
  obtain ⟨destination, port, protocol⟩ := a
  obtain ⟨destination', port', protocol'⟩ := b
  obtain rfl : port = port' := hport
  obtain rfl : protocol = protocol' := hprotocol
  -- Two hosts with one text are equal, and so are two blocks; only the mixed cases are left.
  cases destination with
  | host name =>
    cases destination' with
    | host name' =>
      obtain rfl : name = name' := htext
      exact .inl rfl
    | block block' =>
      obtain rfl : name = block'.text := htext
      exact .inr ⟨block', .inl ⟨rfl, rfl⟩⟩
  | block block =>
    cases destination' with
    | host name' =>
      obtain rfl : block.text = name' := htext
      exact .inr ⟨block, .inr ⟨rfl, rfl⟩⟩
    | block block' =>
      obtain rfl : block = block' := Cidr.text_injective htext
      exact .inl rfl

end EgressRule

open EgressRule (precedes hostLike forBlock)

/-! ### The rules of dependencies -/

/-- A rule for a host is at a port, with TCP. -/
theorem eq_hostLike_of_mem_egress {t : Target} {r : EgressRule} {block : Cidr} (h : r ∈ t.egress)
    (hhost : r.destination = .host block.text) : ∃ port, r = hostLike block port := by
  rcases mem_egress_target_iff.mp h with ⟨_, _, _, -, p, -, rfl⟩ | ⟨_, host, _, -, -, port, -, rfl⟩
  · cases hhost
  · obtain rfl : host = block.text := Destination.host.inj hhost
    exact ⟨port, rfl⟩

/-- A target with a host has no block. -/
theorem destination_of_mem_egress {t : Target} {r r' : EgressRule} (h : r ∈ t.egress)
    (h' : r' ∈ t.egress) {name : String} (hhost : r.destination = .host name) (block : Cidr) :
    r'.destination ≠ .block block := by
  intro hblock
  rcases mem_egress_target_iff.mp h with ⟨_, _, _, rfl, p, -, rfl⟩ |
    ⟨_, _, _, rfl, -, port, -, rfl⟩
  · cases hhost
  · rcases mem_egress_target_iff.mp h' with ⟨_, _, _, htarget, -⟩ | ⟨_, _, _, -, -, port', -, rfl⟩
    · cases htarget
    · cases hblock

/-- The rules of one target that stand on one level are equal. -/
theorem eq_of_sameLevel_of_mem_egress {t : Target} {r r' : EgressRule} (h : r ∈ t.egress)
    (h' : r' ∈ t.egress) (hlevel : SameLevel precedes r r') : r = r' := by
  rcases EgressRule.eq_or_of_sameLevel hlevel with heq | ⟨block, ⟨hhost, rfl⟩ | ⟨hhost, rfl⟩⟩
  · exact heq
  · exact absurd rfl (destination_of_mem_egress h h' hhost block)
  · exact absurd rfl (destination_of_mem_egress h' h hhost block)

namespace Contract

variable {c c' : Contract}

/-- The rules of the dependencies, in the order of the walk. -/
def dependencyEgress (c : Contract) : List EgressRule :=
  c.dependencies.values.flatMap (·.target.egress)

/-- The rules of the blocks that are opened by hand. -/
def extraRules (c : Contract) : List EgressRule := c.extraEgress.flatMap ExtraEgress.egress

theorem declaredEgress_eq (c : Contract) :
    c.declaredEgress = c.dependencyEgress ++ c.extraRules := rfl

/-- No block that is opened by hand is a host. -/
theorem hostLike_not_mem_extraRules (block : Cidr) (port : Port) :
    hostLike block port ∉ c.extraRules := by
  intro h
  obtain ⟨e, -, hmem⟩ := List.mem_flatMap.mp h
  cases host?_of_mem_egress_extra hmem

/-- What is asked for at a host is asked for by a dependency. -/
theorem exists_eq_hostLike {r : EgressRule} {block : Cidr} (h : r ∈ c.declaredEgress)
    (hhost : r.destination = .host block.text) : ∃ port, r = hostLike block port := by
  rcases List.mem_append.mp h with hdependency | hextra
  · -- What a dependency asks for at a host is a rule for it, and blocks opened by hand have no
    -- host.
    obtain ⟨d, -, hmem⟩ := List.mem_flatMap.mp hdependency
    exact eq_hostLike_of_mem_egress hmem hhost
  · obtain ⟨e, -, hmem⟩ := List.mem_flatMap.mp hextra
    have hnone := host?_of_mem_egress_extra hmem
    rw [EgressRule.host?, hhost] at hnone
    cases hnone

/-- **The same contract on another walk**: its dependencies in another order and under any names. -/
structure Reordered (c c' : Contract) : Prop where
  values : c'.dependencies.values.Perm c.dependencies.values
  rest : c' = { c with dependencies := c'.dependencies }

/-- **A host is written like a block**: there are dependencies on both, at one port. -/
def Ambiguous (c : Contract) : Prop :=
  ∃ block port, hostLike block port ∈ c.dependencyEgress ∧ forBlock block port ∈ c.dependencyEgress

/-- **A host and a block that is written like it alternate** in what a contract asks for. -/
def Interleaved (c : Contract) : Prop := ∃ block port,
  [hostLike block port, forBlock block port, hostLike block port].Sublist c.declaredEgress ∨
    [forBlock block port, hostLike block port, forBlock block port].Sublist c.declaredEgress

/-! ### Where nothing is ambiguous -/

/-- What is asked for twice on one level is ambiguous. -/
theorem eq_of_sameLevel_of_not_ambiguous (h : ¬ c.Ambiguous) {a b : EgressRule}
    (ha : a ∈ c.dependencyEgress) (hb : b ∈ c.dependencyEgress)
    (hlevel : SameLevel precedes a b) : a = b := by
  have hpair : ∀ {a : EgressRule} {block : Cidr}, a ∈ c.dependencyEgress →
      { a with destination := .block block } ∈ c.dependencyEgress →
        a.destination ≠ .host block.text := by
    -- The rule is for the host in the form in which a dependency asks for it.
    intro a block ha hb hhost
    obtain ⟨d, -, hmem⟩ := List.mem_flatMap.mp ha
    obtain ⟨port, rfl⟩ := eq_hostLike_of_mem_egress hmem hhost
    exact h ⟨block, port, ha, hb⟩
  rcases EgressRule.eq_or_of_sameLevel hlevel with heq | ⟨block, ⟨hhost, rfl⟩ | ⟨hhost, rfl⟩⟩
  · exact heq
  · exact absurd hhost (hpair ha hb)
  · exact absurd hhost (hpair hb ha)

/-- **Every walk gives the same rules**, if nothing is ambiguous. -/
theorem Reordered.egressRules_eq (hre : c.Reordered c') (h : ¬ c.Ambiguous) :
    egressRules (some c') = egressRules (some c) := by
  -- The dependencies come in another order, and with them their rules.
  have hperm : c.dependencyEgress.Perm c'.dependencyEgress :=
    (hre.values.symm).flatMap_right _
  have hextra : c'.extraRules = c.extraRules := by
    rw [extraRules, extraRules, hre.rest]
    rfl
  rw [egressRules, egressRules, declaredEgress_eq, declaredEgress_eq, hextra,
    sortBy_append_of_perm EgressRule.precedes_trans EgressRule.precedes_total hperm
      fun a ha b hb => eq_of_sameLevel_of_not_ambiguous h ha hb]

/-- Of two rules that follow each other the first is for a dependency if the second is for a
host. -/
theorem mem_dependencyEgress_of_sublist {block : Cidr} {port : Port} {r : EgressRule}
    (h : [r, hostLike block port].Sublist c.declaredEgress) :
    r ∈ c.dependencyEgress ∧ hostLike block port ∈ c.dependencyEgress := by
  rw [declaredEgress_eq, List.sublist_append_iff] at h
  obtain ⟨front, back, hparts, hfront, hback⟩ := h
  -- The second rule is the last, so it would be among the blocks if any of the two were.
  have hnil : back = [] := by
    by_contra hne
    have hlast : hostLike block port ∈ back := by
      have hgetLast := congrArg List.getLast? hparts
      rw [List.getLast?_append_of_ne_nil _ hne] at hgetLast
      exact List.mem_of_getLast? hgetLast.symm
    exact hostLike_not_mem_extraRules block port (hback.mem hlast)
  rw [hnil, List.append_nil] at hparts
  subst hparts
  exact ⟨hfront.mem List.mem_cons_self, hfront.mem (by simp)⟩

/-- What alternates is ambiguous. -/
theorem ambiguous_of_interleaved (h : c.Interleaved) : c.Ambiguous := by
  obtain ⟨block, port, hsub | hsub⟩ := h
  · -- The host of the three stands before or behind the block, and in either place there is a pair.
    have hpair := mem_dependencyEgress_of_sublist ((List.sublist_cons_self _ _).trans hsub)
    exact ⟨block, port, hpair.2, hpair.1⟩
  · have hpair := mem_dependencyEgress_of_sublist
      ((List.sublist_append_left [_, _] [_]).trans hsub)
    exact ⟨block, port, hpair.2, hpair.1⟩

/-- **A rule occurs twice** exactly if it alternates with another one. -/
theorem nodup_iff_not_interleaved (c : Contract) :
    (dropRepeats (sortBy precedes c.declaredEgress)).Nodup ↔ ¬ c.Interleaved := by
  rw [nodup_dropRepeats_sortBy_iff EgressRule.precedes_trans EgressRule.precedes_total]
  constructor
  · rintro hnone ⟨block, port, hsub | hsub⟩
    · exact hnone _ _ (EgressRule.hostLike_ne_forBlock block port)
        (EgressRule.sameLevel_hostLike block port) hsub
    · exact hnone _ _ (EgressRule.hostLike_ne_forBlock block port).symm
        (EgressRule.sameLevel_hostLike block port).symm hsub
  · intro hnone a b hne hlevel hsub
    rcases EgressRule.eq_or_of_sameLevel hlevel with heq | ⟨block, ⟨hhost, rfl⟩ | ⟨hhost, rfl⟩⟩
    · exact hne heq
    · -- Whichever of the two is the host, it is a rule of a dependency at that host.
      obtain ⟨port, rfl⟩ := exists_eq_hostLike (hsub.mem (by simp)) hhost
      exact hnone ⟨block, port, .inl hsub⟩
    · obtain ⟨port, rfl⟩ := exists_eq_hostLike (hsub.mem (by simp)) hhost
      exact hnone ⟨block, port, .inr hsub⟩

/-! ### Where something is ambiguous -/

/-- The dependencies on another walk. -/
def walked (c : Contract) (entries : List (String × Dependency))
    (h : entries.Perm c.dependencies.entries) : Contract :=
  { c with dependencies := ⟨entries, (h.map Prod.fst).nodup_iff.mpr c.dependencies.nodup⟩ }

theorem reordered_walked {entries : List (String × Dependency)}
    (h : entries.Perm c.dependencies.entries) : c.Reordered (c.walked entries h) :=
  ⟨h.map Prod.snd, rfl⟩

/-- A walk may begin with any dependency. -/
theorem exists_reordered {d : Dependency} (hd : d ∈ c.dependencies.values) :
    ∃ c', c.Reordered c' ∧ ∃ later, c'.dependencies.values = d :: later := by
  obtain ⟨entry, hentry, rfl⟩ := List.mem_map.mp hd
  obtain ⟨before, after, hentries⟩ := List.append_of_mem hentry
  have hperm : (entry :: (before ++ after)).Perm c.dependencies.entries := by
    rw [hentries]
    exact List.perm_middle.symm
  exact ⟨_, reordered_walked hperm, _, rfl⟩

/-- The first rule on the level of a rule of the first dependency is that rule. -/
theorem head?_levelOf_egressRules {d : Dependency} {later : List Dependency}
    (hwalk : c.dependencies.values = d :: later) {r : EgressRule} (hr : r ∈ d.target.egress) :
    (levelOf precedes r (dropRepeats (sortBy precedes c.declaredEgress))).head? = some r := by
  -- On its level the first dependency has that rule only.
  have hfirst : ∀ r' ∈ levelOf precedes r d.target.egress, r' = r := by
    intro r' hr'
    obtain ⟨hmem, hlevel⟩ := List.mem_filter.mp hr'
    exact (eq_of_sameLevel_of_mem_egress hr hmem (by simpa using hlevel)).symm
  have hself : r ∈ levelOf precedes r d.target.egress :=
    List.mem_filter.mpr ⟨hr, by simp [EgressRule.sameLevel_precedes_iff]⟩
  -- Neither sorting nor dropping repeats changes what is first on a level, so it is the first rule
  -- of the first dependency.
  rw [head?_levelOf_dropRepeats EgressRule.precedes_trans EgressRule.precedes_total,
    declaredEgress_eq, dependencyEgress, hwalk, List.flatMap_cons, List.append_assoc, levelOf,
    List.filter_append, ← levelOf]
  cases hlevel : levelOf precedes r d.target.egress with
  | nil =>
    rw [hlevel] at hself
    cases hself
  | cons r' rest =>
    rw [hfirst r' (hlevel ▸ List.mem_cons_self)]
    rfl

/-- **Two walks give different rules** if something is ambiguous. -/
theorem not_ambiguous_of_egressRules_eq
    (h : ∀ c', c.Reordered c' → egressRules (some c') = egressRules (some c)) :
    ¬ c.Ambiguous := by
  rintro ⟨block, port, hhost, hblock⟩
  obtain ⟨d, hd, hhost⟩ := List.mem_flatMap.mp hhost
  obtain ⟨d', hd', hblock⟩ := List.mem_flatMap.mp hblock
  -- One walk begins with the host and the other with the block, and so do the rules on the level
  -- of the two, since neither sorting nor dropping repeats takes the first of a level away.
  obtain ⟨c₁, hre₁, later₁, hwalk₁⟩ := exists_reordered hd
  obtain ⟨c₂, hre₂, later₂, hwalk₂⟩ := exists_reordered hd'
  have hrules := (h c₁ hre₁).trans (h c₂ hre₂).symm
  rw [egressRules, egressRules, List.append_cancel_left_eq] at hrules
  have hfirst := head?_levelOf_egressRules hwalk₁ hhost
  rw [hrules, levelOf_congr EgressRule.precedes_trans (EgressRule.sameLevel_hostLike block port),
    head?_levelOf_egressRules hwalk₂ hblock] at hfirst
  exact EgressRule.hostLike_ne_forBlock block port (Option.some.inj hfirst).symm

/-- Without a slash in the declared hosts nothing is ambiguous. -/
theorem not_ambiguous_of_hosts (h : ∀ d ∈ c.dependencies.values, ∀ host,
    d.target.host? = some host → '/' ∉ host.toList) : ¬ c.Ambiguous := by
  rintro ⟨block, port, hhost, -⟩
  obtain ⟨d, hd, hmem⟩ := List.mem_flatMap.mp hhost
  have hslash := block.slash_mem_text
  rcases mem_egress_target_iff.mp hmem with ⟨_, _, _, -, p, -, heq⟩ |
    ⟨service, host, declared, htarget, -, port', -, heq⟩
  · cases heq
  · -- The host is that of a dependency, and its text is the one of a block, which has a slash.
    refine h d hd block.text ?_ hslash
    rw [htarget, Target.host?]
    exact congrArg some (Destination.host.inj (congrArg EgressRule.destination heq)).symm

end Contract

/-- **The rules of a contract do not depend on the walk** exactly if no host is written like a
block, and then each of them occurs once. On a given walk a rule occurs twice exactly if a host and
the block alternate. -/
theorem egressRules_of_walk (c : Contract) :
    ((∀ c', c.Reordered c' → egressRules (some c') = egressRules (some c)) ↔ ¬ c.Ambiguous) ∧
    (∃ rules, egressRules (some c) = dnsRules ++ rules ∧ (rules.Nodup ↔ ¬ c.Interleaved)) ∧
    (¬ c.Ambiguous → ¬ c.Interleaved) ∧
    ((∀ d ∈ c.dependencies.values, ∀ host, d.target.host? = some host → '/' ∉ host.toList) →
      ¬ c.Ambiguous) := by
  refine ⟨⟨Contract.not_ambiguous_of_egressRules_eq, fun h c' hre => hre.egressRules_eq h⟩, ?_,
    mt Contract.ambiguous_of_interleaved, Contract.not_ambiguous_of_hosts⟩
  exact ⟨_, rfl, c.nodup_iff_not_interleaved⟩

/-- A draft with a host between two dependencies on the block that it is written like. -/
def lanDraft : Draft.Contract where
  version := "1"
  dependencies := some (.ofList
    [ ("lan",
        { protocol := "x", kind := "dynamic-target", cidr := "172.16.0.0/12",
          dynPorts := ["443"] }),
      ("proxy", { protocol := "https", host := "172.16.0.0/12" }),
      ("vpn",
        { protocol := "x", kind := "dynamic-target", cidr := "172.16.0.0/12",
          dynPorts := ["443"] }) ])

/-- The block `172.16.0.0/12`. -/
def lanBlock : Cidr := ⟨.v4 #v[172, 16, 0, 0], 12⟩

/-- The contract of `lanDraft`. -/
def lanContract : Contract where
  dependencies := .ofList
    [ ("lan", ⟨.dynamic "x" lanBlock [⟨443, .tcp⟩], none, .empty⟩),
      ("proxy", ⟨.fixed .https "172.16.0.0/12" none, none, .empty⟩),
      ("vpn", ⟨.dynamic "x" lanBlock [⟨443, .tcp⟩], none, .empty⟩) ]

/-- An accepted contract with a repeated rule and with other rules on another walk, and one that has
the same rules on every walk. -/
theorem lan_contract_depends_on_walk :
    (lanContract.Accepted ∧
      (∃ c', lanContract.Reordered c' ∧ egressRules (some c') ≠ egressRules (some lanContract)) ∧
      ∃ rules, egressRules (some lanContract) = dnsRules ++ rules ∧ ¬ rules.Nodup) ∧
    (officeContract.Accepted ∧
      (∀ c', officeContract.Reordered c' →
        egressRules (some c') = egressRules (some officeContract)) ∧
      ∃ rules, egressRules (some officeContract) = dnsRules ++ rules ∧ rules.Nodup) := by
  obtain ⟨hwalks, ⟨rules, hrules, hnodup⟩, -, -⟩ := egressRules_of_walk lanContract
  obtain ⟨hwalks', ⟨rules', hrules', hnodup'⟩, hplain, hslash⟩ := egressRules_of_walk officeContract
  have hinterleaved : lanContract.Interleaved := ⟨lanBlock, 443, .inr (by decide +kernel)⟩
  have hclear : ¬ officeContract.Ambiguous := hslash (by decide +kernel)
  refine ⟨⟨.inl ⟨lanDraft, by rfl⟩, ?_, rules, hrules, fun h => hnodup.mp h hinterleaved⟩,
    .inl ⟨officeDraft, by rfl⟩, hwalks'.mpr hclear, rules', hrules', hnodup'.mpr (hplain hclear)⟩
  -- If every walk gave the same rules nothing would be ambiguous, but something alternates.
  by_contra hnone
  refine hwalks.mp (fun c' hre => ?_) (Contract.ambiguous_of_interleaved hinterleaved)
  by_contra hne
  exact hnone ⟨c', hre, hne⟩

end WorkflowPolicy
