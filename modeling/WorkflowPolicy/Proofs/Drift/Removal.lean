import WorkflowPolicy.Proofs.Access.RuleOrder
import WorkflowPolicy.Proofs.Drift.Hosts

/-!
# Contracts without registries

A contract may lose its dependencies on registries before its rules are derived
(`Workflow.withoutBootstrap`), or the rules may be derived first and lose those for registries.
Both give the same rules in the same order (`egressRules_withoutBootstrap`), and so the policy made
from the smaller contract is the one made from the whole contract without some of its entries for
egress (`withoutBootstrap_commutes`).

Between the two lie a sort and the dropping of neighbours that are equal, which do not commute with
leaving out by themselves. They do here since rules of one level stay or go together. The levels go
by the text of the destination, and this text decides about a block as well as about a host: a block
has a slash in its text, and no registry has one (`isBootstrap_eq`).
-/

namespace WorkflowPolicy

open Net (Cidr Port)

/-! ### What registries are written with -/

/-- A character that is neither trimmed away nor made small nor part of a port nor in the name of a
registry is in no text that is taken for a registry. -/
theorem not_mem_of_isBootstrapHost {c : Char} {host : String}
    (hc : Text.isBlank c = false ∧ c.toLower = c ∧ c.isDigit = false ∧ c ≠ '+' ∧ c ≠ ':' ∧
      ∀ registry ∈ bootstrapHosts, c ∉ registry.toList)
    (h : isBootstrapHost host = true) : c ∉ host.toList := by
  obtain ⟨hblank, hlower, hdigit, hplus, hcolon, hregistries⟩ := hc
  obtain ⟨registry, hregistry, hname⟩ := isBootstrapHost_iff.mp h
  intro hmem
  -- The character is not blank and stays what it is, so it is in the name before the port is taken
  -- off.
  have hsmall : c ∈ Text.smallLetters (Text.trim host.toList) :=
    List.mem_map.mpr ⟨c, (Text.mem_trim hblank).mpr hmem, hlower⟩
  -- A port that is taken off does not hold it, so it is in the name.
  have hkept : c ∈ withoutPort (Text.smallLetters (Text.trim host.toList)) := by
    unfold withoutPort
    split
    · next name port hcut =>
      split
      · next hport =>
        rw [Text.append_of_splitLast hcut, List.mem_append, List.mem_cons] at hsmall
        rcases hsmall with hname | rfl | hmem
        · exact hname
        · exact absurd rfl hcolon
        · rcases isDigit_of_readPort? hport hmem with heq | hisDigit
          · exact absurd heq hplus
          · rw [hdigit] at hisDigit
            cases hisDigit
      · exact hsmall
    · exact hsmall
  rw [hname] at hkept
  exact hregistries registry hregistry hkept

/-- No block is written like a registry. -/
theorem isBootstrapHost_text (block : Cidr) : isBootstrapHost block.text = false := by
  rw [Bool.eq_false_iff]
  intro h
  -- The slash is such a character, and every block has one.
  exact not_mem_of_isBootstrapHost (by decide) h block.slash_mem_text

/-! ### Rules for registries -/

namespace EgressRule

/-- Is the rule for a registry? -/
def isBootstrap (r : EgressRule) : Bool := r.host?.any isBootstrapHost

/-- The text of the destination decides whether a rule is for a registry. -/
theorem isBootstrap_eq (r : EgressRule) :
    r.isBootstrap = isBootstrapHost r.destination.text := by
  obtain ⟨destination, port, protocol⟩ := r
  cases destination with
  | host name => simp only [isBootstrap, host?, Option.any_some, Destination.text]
  | block cidr => simp only [isBootstrap, host?, Option.any_none, Destination.text,
      isBootstrapHost_text]

end EgressRule

/-- All rules of a target are for a registry, or none is. -/
theorem isBootstrap_of_mem_egress {t : Target} {r : EgressRule} (h : r ∈ t.egress) :
    r.isBootstrap = t.isBootstrap := by
  -- Only the two kinds of targets with rules are left, and both decide by the host.
  rcases mem_egress_target_iff.mp h with ⟨protocol, block, ports, rfl, p, -, rfl⟩ |
    ⟨service, host, declared, rfl, -, port, -, rfl⟩
  · rfl
  · rfl

/-- No block that is opened by hand is for a registry. -/
theorem isBootstrap_of_mem_egress_extra {e : ExtraEgress} {r : EgressRule} (h : r ∈ e.egress) :
    r.isBootstrap = false := by
  rw [EgressRule.isBootstrap, host?_of_mem_egress_extra h]
  rfl

/-- Registries are not needed for looking names up. -/
theorem isBootstrap_of_mem_dnsRules : ∀ r ∈ dnsRules, r.isBootstrap = false := by
  decide +kernel

/-- What the smaller contract asks for, in its own order and with repetitions. -/
theorem declaredEgress_withoutBootstrap (c : Contract) :
    c.withoutBootstrap.declaredEgress = c.declaredEgress.filter (!·.isBootstrap) := by
  have hdependencies : ∀ ds : List Dependency,
      (ds.filter fun d => !d.target.isBootstrap).flatMap (·.target.egress) =
        (ds.flatMap (·.target.egress)).filter (!·.isBootstrap) := by
    intro ds
    -- A dependency goes or stays with all of its rules, so the two lists are the same for each of
    -- them.
    induction ds with
    | nil => rfl
    | cons d ds ih =>
      rw [List.flatMap_cons, List.filter_append, ← ih]
      cases hd : d.target.isBootstrap with
      | true =>
        have hgone : (d.target.egress).filter (!·.isBootstrap) = [] :=
          List.filter_eq_nil_iff.mpr fun r hr => by simp [isBootstrap_of_mem_egress hr, hd]
        rw [List.filter_cons_of_neg (by simp [hd]), hgone, List.nil_append]
      | false =>
        have hkept : (d.target.egress).filter (!·.isBootstrap) = d.target.egress :=
          List.filter_eq_self.mpr fun r hr => by simp [isBootstrap_of_mem_egress hr, hd]
        rw [List.filter_cons_of_pos (by simp [hd]), List.flatMap_cons, hkept]
  have hextra : (c.extraEgress.flatMap ExtraEgress.egress).filter (!·.isBootstrap) =
      c.extraEgress.flatMap ExtraEgress.egress := by
    refine List.filter_eq_self.mpr fun r hr => ?_
    obtain ⟨e, -, hmem⟩ := List.mem_flatMap.mp hr
    rw [isBootstrap_of_mem_egress_extra hmem]
    rfl
  rw [Contract.declaredEgress, Contract.declaredEgress, List.filter_append, hextra,
    ← hdependencies, Contract.withoutBootstrap, Roster.values_filter]
  rfl

/-- **Deriving and leaving out registries commute.** -/
theorem egressRules_withoutBootstrap (w : Workflow) :
    egressRules w.withoutBootstrap.contract =
      (egressRules w.contract).filter (!·.isBootstrap) := by
  -- The first two rules are for no registry, so they are not left out.
  have hlookup : dnsRules.filter (!·.isBootstrap) = dnsRules :=
    List.filter_eq_self.mpr fun r hr => by simp [isBootstrap_of_mem_dnsRules r hr]
  -- Rules of one level have one destination text, so both are for a registry or neither is.
  have hlevel : ∀ a b : EgressRule, a.precedes b → b.precedes a →
      (!a.isBootstrap) = !b.isBootstrap := by
    intro a b hab hba
    rw [a.isBootstrap_eq, b.isBootstrap_eq, EgressRule.text_eq_of_precedes hab hba]
  rw [Workflow.withoutBootstrap]
  cases w.contract with
  | none => exact hlookup.symm
  | some c =>
    simp only [Option.map_some, egressRules]
    -- The sort and the filter commute on the rest, as levels stay or go together.
    rw [List.filter_append, hlookup, EgressRule.filter_sorted hlevel,
      declaredEgress_withoutBootstrap]

/-! ### The policies -/

/-- **A policy that has lost the entries for registries** and is otherwise the same; `rules` are
those of the first policy. -/
structure NetworkPolicy.LosesRegistries (rules : List EgressRule)
    (whole smaller : NetworkPolicy) : Prop where
  name : smaller.metadata.name = whole.metadata.name
  namespaceName : smaller.metadata.namespaceName = whole.metadata.namespaceName
  labels : smaller.metadata.labels = whole.metadata.labels
  pods : smaller.spec.pods = whole.spec.pods
  directions : smaller.spec.directions = whole.spec.directions
  ingress : smaller.spec.ingress = whole.spec.ingress
  /-- Every rule has its entry, in the order of the rules. -/
  entries : whole.spec.egress = rules.map EgressRule.toRule
  /-- The entries of rules for registries are gone. -/
  egress : smaller.spec.egress = (rules.filter (!·.isBootstrap)).map EgressRule.toRule

namespace Workflow

/-- **Leaving out registries commutes with making rules and policies.** The smaller workflow is a
copy that differs in the dependencies only, and those that stay keep their order. -/
theorem withoutBootstrap_commutes (settings : PolicySettings) (w : Workflow)
    (namespaceName : String) (c : Contract) (h : w.contract = some c) :
    w.withoutBootstrap = { w with contract := some { c with
      dependencies := c.dependencies.filter fun d => !d.target.isBootstrap } } ∧
    egressRules w.withoutBootstrap.contract =
      (egressRules w.contract).filter (!·.isBootstrap) ∧
    ∃ whole smaller, w.networkPolicy? settings namespaceName = some whole ∧
      w.withoutBootstrap.networkPolicy? settings namespaceName = some smaller ∧
      whole.LosesRegistries (egressRules w.contract) smaller := by
  have hrules := egressRules_withoutBootstrap w
  have hcopy : w.withoutBootstrap.contract = some c.withoutBootstrap := by
    rw [withoutBootstrap, h]
    rfl
  refine ⟨?_, hrules, ?_⟩
  · rw [withoutBootstrap, h]
    rfl
  · rw [h, hcopy] at hrules
    refine ⟨_, _, by rw [networkPolicy?, h]; rfl, by rw [networkPolicy?, hcopy]; rfl, ?_⟩
    -- Neither the name nor the triggers go by the contract, so only the rules are left to compare.
    constructor
    case egress => rw [h, ← hrules]
    case entries => rw [h]
    all_goals rfl

/-- A contract with a registry, and with a host that is written like a block beside that block. -/
def depotContract : Contract where
  dependencies := .ofList
    [ ("registry", ⟨.fixed .https "jsr.io" none, none, .empty⟩),
      ("lan", ⟨.fixed (.other "tcp") "10.0.0.0/8" (some 443), none, .empty⟩),
      ("api", ⟨.fixed .https "api.example.com" none, none, .empty⟩) ]
  override := some [⟨"10.0.0.0/8", ["443"], none⟩]

/-- A workflow with that contract. -/
def depot : Workflow := { name := "depot", contract := some depotContract }

/-- One entry of its policy is for the registry. -/
theorem depot_loses_registry : depot.contract = some depotContract ∧
    ∃ whole smaller, depot.networkPolicy? {} "default" = some whole ∧
      depot.withoutBootstrap.networkPolicy? {} "default" = some smaller ∧
      whole.LosesRegistries (egressRules depot.contract) smaller ∧
      whole.spec.egress.length = 6 ∧ smaller.spec.egress.length = 5 := by
  obtain ⟨-, -, whole, smaller, hwhole, hsmaller, hloses⟩ :=
    withoutBootstrap_commutes {} depot "default" depotContract rfl
  -- The host that is written like the block is no registry, so it stays beside the block.
  have hrules : (egressRules depot.contract).length = 6 := by decide +kernel
  have hkept : ((egressRules depot.contract).filter (!·.isBootstrap)).length = 5 := by
    decide +kernel
  refine ⟨rfl, whole, smaller, hwhole, hsmaller, hloses, ?_, ?_⟩
  · rw [hloses.entries, List.length_map, hrules]
  · rw [hloses.egress, List.length_map, hkept]

end Workflow

end WorkflowPolicy
