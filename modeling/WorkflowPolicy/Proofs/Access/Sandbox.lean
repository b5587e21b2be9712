import WorkflowPolicy.Access.Sandbox
import WorkflowPolicy.Proofs.Access.DeclarationOrder
import WorkflowPolicy.Proofs.Access.External

/-!
# The sandbox and the rules

What a run may reach is said twice: the sandbox opens the network to the hosts of the contract, and
the rules of egress are rendered into a policy around it. The two are derived side by side, and each
sorts by an order of its own: `hostPrecedes` compares hosts and ports, `EgressRule.precedes` the
texts of destinations, ports and protocols, and the blocks that are opened by hand are sorted in
among the hosts.

* `filter_rules_eq` — the rules for hosts are those of `Contract.fixedHosts`, in their order, if no
  rule occurs twice. Without a target that is known at run time only, none does.
* `filter_words_eq` — one word of the command speaks of the network.
* `sandbox_opens_hosts_of_rules` puts the two together.
-/

namespace WorkflowPolicy

open Net (Port)

/-! ### Rules for hosts -/

namespace EgressRule

/-- The rule for a host at a port. -/
def forHost (a : String × Port) : EgressRule := ⟨.host a.1, some a.2, .tcp⟩

theorem forHost_injective : Function.Injective forHost := by
  intro a b h
  have hhost : a.1 = b.1 := Destination.host.inj (congrArg destination h)
  have hport : a.2 = b.2 := Option.some.inj (congrArg port h)
  exact Prod.ext hhost hport

/-- **The two orders agree** on rules for hosts. -/
theorem precedes_forHost (a b : String × Port) :
    (forHost a).precedes (forHost b) = hostPrecedes a b := by
  obtain ⟨host, port⟩ := a
  obtain ⟨host', port'⟩ := b
  simp only [precedes, hostPrecedes, forHost, Destination.text]
  -- The texts of the destinations are the hosts here. Ports are compared only where these are
  -- equal, and the protocol is the same.
  by_cases hhost : host = host'
  · by_cases hport : port = port'
    · simp [hhost, hport, Net.Transport.precedes]
    · simp [hhost, hport, portPrecedes]
  · simp [hhost]

end EgressRule

open EgressRule (forHost precedes)

theorem hostPrecedes_trans (a b c : String × Port) (hab : hostPrecedes a b = true)
    (hbc : hostPrecedes b c = true) : hostPrecedes a c = true := by
  -- The order on hosts is that of their rules, so its laws are theirs.
  rw [← EgressRule.precedes_forHost] at *
  exact EgressRule.precedes_trans _ _ _ hab hbc

theorem hostPrecedes_total (a b : String × Port) :
    hostPrecedes a b = true ∨ hostPrecedes b a = true := by
  rw [← EgressRule.precedes_forHost, ← EgressRule.precedes_forHost]
  exact EgressRule.precedes_total _ _

/-- No two hosts with their ports stand on one level. -/
theorem hostPrecedes_apart (a b : String × Port) (h : SameLevel hostPrecedes a b) : a = b := by
  rw [SameLevel, ← EgressRule.precedes_forHost, ← EgressRule.precedes_forHost] at h
  obtain ⟨htext, hport, -⟩ := EgressRule.sameLevel_precedes_iff.mp h
  exact Prod.ext htext (Option.some.inj hport)

/-- A target has a rule for a host exactly if the sandbox is opened to it. -/
theorem filter_egress_target (t : Target) :
    (t.egress.filter fun r => !r.isBlock) = (t.hostAndPort?.map forHost).toList := by
  -- Only fixed targets have both. A dynamic one has blocks, and a package neither.
  cases t with
  | dynamic protocol block ports =>
    simp [Target.egress, Target.hostAndPort?, Target.host?, EgressRule.isBlock, EgressRule.host?]
  | package registry specifier version => rfl
  | fixed service host declared =>
    simp only [Target.egress, Target.hostAndPort?]
    cases (Target.fixed service host declared).host?.filter (!·.isEmpty) with
    | none => rfl
    | some name => cases (Target.fixed service host declared).resolvedPort? <;> rfl

namespace Contract

variable {c : Contract}

/-- What a contract asks for at hosts. -/
theorem filter_declaredEgress (c : Contract) :
    (c.declaredEgress.filter fun r => !r.isBlock) =
      (c.dependencies.values.filterMap (·.target.hostAndPort?)).map forHost := by
  -- What is opened by hand are blocks.
  have hextra : (c.extraEgress.flatMap ExtraEgress.egress).filter (fun r => !r.isBlock) = [] := by
    refine List.filter_eq_nil_iff.mpr fun r hr => ?_
    obtain ⟨e, -, hmem⟩ := List.mem_flatMap.mp hr
    simp [EgressRule.isBlock, host?_of_mem_egress_extra hmem]
  rw [declaredEgress, List.filter_append, hextra, List.append_nil, List.filter_flatMap,
    List.map_filterMap, List.filterMap_eq_flatMap_toList]
  exact List.flatMap_congr fun d _ => filter_egress_target d.target

/-- **The rules for hosts are the hosts of the sandbox**, in their order. -/
theorem filter_rules_eq (h : (dropRepeats (sortBy precedes c.declaredEgress)).Nodup) :
    ((dropRepeats (sortBy precedes c.declaredEgress)).filter fun r => !r.isBlock) =
      c.fixedHosts.map forHost := by
  -- Without repeats, filtering goes past the sorting, and then both sort the same list alike.
  rw [filter_dropRepeats_of_nodup h,
    filter_sortBy EgressRule.precedes_trans EgressRule.precedes_total, filter_declaredEgress,
    sortBy_map EgressRule.precedes_forHost, dropRepeats_map EgressRule.forHost_injective,
    fixedHosts]

/-- Only a target that is known at run time has a block, so without one nothing alternates. -/
theorem not_interleaved_of_fixed
    (h : ∀ d ∈ c.dependencies.values, d.target.isDynamic = false) : ¬ c.Interleaved := by
  -- Rules alternate only around a block that a dependency asks for.
  intro hinterleaved
  obtain ⟨block, port, -, hblock⟩ := ambiguous_of_interleaved hinterleaved
  obtain ⟨d, hd, hmem⟩ := List.mem_flatMap.mp hblock
  rcases mem_egress_target_iff.mp hmem with ⟨_, _, _, htarget, -⟩ | ⟨_, _, _, -, -, _, -, hrule⟩
  · have hfixed := h d hd
    rw [htarget] at hfixed
    cases hfixed
  · cases hrule

end Contract

/-! ### The word for the network -/

/-- Is the word of the command about the network? -/
def isNetworkWord (word : String) : Bool := "--allow-net".toList.isPrefixOf word.toList

theorem isNetworkWord_networkFlag (c : Contract) (proxy : String) :
    isNetworkWord (networkFlag c proxy) = true := by
  rw [networkFlag]
  split
  · -- The flag begins with the word in both forms, with a list and without one.
    decide
  · rw [isNetworkWord, String.toList_append]
    rfl

/-- **One word of the command is about the network.** -/
theorem filter_words_eq {c : Contract} {packageProxy : String} {words : List String}
    (h : runCommand (some c) packageProxy = some words) :
    words.filter isNetworkWord =
      [networkFlag c
        (if packageProxy = "" then Cluster.defaultPackageProxy else packageProxy)] := by
  -- The word for imports and the other words are no flags of the network.
  have himport : ∀ proxy, isNetworkWord ("--allow-import=" ++ proxy) = false := by
    intro proxy
    rw [isNetworkWord, String.toList_append]
    rfl
  simp only [runCommand] at h
  split at h
  · cases h
  · obtain rfl := Option.some.inj h
    simp +decide [isNetworkWord_networkFlag, himport]

/-- **The sandbox and the rules agree on hosts.** If every host is known beforehand, the network is
open to the address on which the workflow listens, to the hosts of the rules behind the two for
looking names up, in their order and each once, and to the package proxy. If one is not, the network
is open without a list. -/
theorem sandbox_opens_hosts_of_rules (c : Contract) (h : c.dependencies.entries ≠ [])
    (packageProxy : String) :
    ∃ words, runCommand (some c) packageProxy = some words ∧
      ((∀ d ∈ c.dependencies.values, d.target.isDynamic = false) →
        ∃ rules hosts, egressRules (some c) = dnsRules ++ rules ∧
          (rules.filter fun r => !r.isBlock).map EgressRule.hostPort? = hosts.map some ∧
          hosts.Nodup ∧
          words.filter isNetworkWord =
            ["--allow-net=" ++ Text.joined "," ("0.0.0.0:8080" :: hosts ++
              [if packageProxy = "" then Cluster.defaultPackageProxy else packageProxy])]) ∧
      ((∃ d ∈ c.dependencies.values, d.target.isDynamic = true) →
        "--allow-net" ∈ words ∧ ∀ word ∈ words, ¬ "--allow-net=".toList <+: word.toList) := by
  obtain ⟨words, hwords⟩ : ∃ words, runCommand (some c) packageProxy = some words := by
    rw [runCommand, if_neg (by simpa using h)]
    exact ⟨_, rfl⟩
  have hflag := filter_words_eq hwords
  refine ⟨words, hwords, fun hfixed => ?_, fun ⟨d, hd, hdynamic⟩ => ?_⟩
  · -- With fixed targets only, no rule occurs twice, so the rules for hosts are those of the
    -- sandbox.
    have hnodup := c.nodup_iff_not_interleaved.mpr (Contract.not_interleaved_of_fixed hfixed)
    have hrules := Contract.filter_rules_eq hnodup
    have hnone : c.hasDynamic = false := by simpa [Contract.hasDynamic] using hfixed
    refine ⟨_, c.fixedHosts.map fun a => EgressRule.hostPortText a.1 a.2, rfl, ?_, ?_, ?_⟩
    · rw [hrules, List.map_map, List.map_map]
      rfl
    · -- No rule occurs twice, so no host does, and host and port can be told from the text.
      have hhosts : c.fixedHosts.Nodup := by
        refine List.Nodup.of_map forHost ?_
        rw [← hrules]
        exact hnodup.filter _
      refine hhosts.map fun a b hab => ?_
      exact Prod.ext (hostPortText_inj.mp hab).1 (hostPortText_inj.mp hab).2
    · rw [hflag, networkFlag, hnone]
      rfl
  · -- A target that is known at run time only takes the list away.
    have hsome : c.hasDynamic = true := List.any_eq_true.mpr ⟨d, hd, hdynamic⟩
    rw [networkFlag, hsome, if_pos rfl] at hflag
    constructor
    · have hmem : "--allow-net" ∈ words.filter isNetworkWord := by
        rw [hflag]
        exact List.mem_singleton_self _
      exact (List.mem_filter.mp hmem).1
    · -- A word with a list would be the one that is about the network.
      intro word hword hlist
      have hnetwork : isNetworkWord word = true :=
        List.isPrefixOf_iff_prefix.mpr (List.IsPrefix.trans (by decide) hlist)
      have hmem : word ∈ words.filter isNetworkWord := List.mem_filter.mpr ⟨hword, hnetwork⟩
      rw [hflag, List.mem_singleton] at hmem
      subst hmem
      revert hlist
      decide

/-- Two hosts, one of them at two ports and declared three times, a package, and a block opened by
hand. -/
def harbourContract : Contract where
  dependencies := .ofList
    [ ("tides", ⟨.fixed .https "api.example.com.cn" none, none, .empty⟩),
      ("berths", ⟨.fixed .https "api.example.com" (some 8443), none, .empty⟩),
      ("pilots", ⟨.fixed .https "api.example.com" (some 443), none, .empty⟩),
      ("tugs", ⟨.fixed .https "api.example.com" none, none, .empty⟩),
      ("lib", ⟨.package .jsr "@std/path" none, none, .empty⟩) ]
  override := some [⟨"10.0.0.0/8", ["443"], none⟩]

/-- The hosts of the rules and of the command, where all of them are known beforehand and where one
is not. -/
theorem harbour_hosts_opened :
    (∃ words rules, runCommand (some harbourContract) "" = some words ∧
      egressRules (some harbourContract) = dnsRules ++ rules ∧ rules.length = 4 ∧
      (rules.filter fun r => !r.isBlock).map EgressRule.hostPort? =
        [some "api.example.com:443", some "api.example.com:8443",
          some "api.example.com.cn:443"] ∧
      words.filter isNetworkWord =
        ["--allow-net=0.0.0.0:8080,api.example.com:443,api.example.com:8443," ++
          "api.example.com.cn:443,esm-sh.flowpact-system.svc.cluster.local:8080"]) ∧
    ∃ words, runCommand (some officeContract) "proxy.test:1" = some words ∧
      "--allow-net" ∈ words ∧ ∀ word ∈ words, ¬ "--allow-net=".toList <+: word.toList := by
  constructor
  · obtain ⟨words, hwords, hfixed, -⟩ := sandbox_opens_hosts_of_rules harbourContract (by decide) ""
    obtain ⟨rules, hosts, hrules, hhosts, -, hword⟩ := hfixed (by decide)
    -- The rules are those behind the first two, and they are given by the contract.
    obtain rfl : _ = rules := List.append_cancel_left hrules
    have hthree : hosts.map some =
        ["api.example.com:443", "api.example.com:8443", "api.example.com.cn:443"].map some := by
      rw [← hhosts]
      decide +kernel
    obtain rfl := List.map_injective_iff.mpr (Option.some_injective _) hthree
    exact ⟨words, _, hwords, rfl, by decide +kernel, hhosts, by rw [hword]; decide +kernel⟩
  · obtain ⟨words, hwords, -, hdynamic⟩ :=
      sandbox_opens_hosts_of_rules officeContract (by decide) "proxy.test:1"
    exact ⟨words, hwords, hdynamic (by decide)⟩

end WorkflowPolicy
