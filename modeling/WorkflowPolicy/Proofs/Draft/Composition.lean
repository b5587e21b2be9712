import WorkflowPolicy.Proofs.Draft.Accepted
import WorkflowPolicy.Proofs.Draft.Remarks
import WorkflowPolicy.Proofs.Json.Equality

/-!
# A contract is checked alike wherever it stands

The check of a contract compares how much has been found before and after, once for the contract and
once for each dependency, and all of it goes into one log. `Contract.Composes` says that none of
this shows: what is found is put together from what is found in the parts, each by itself, and what
is in the log before makes no difference.

So a workflow has the findings, the remarks and the contract that its contract section has by itself
(`Workflow.Embeds`), and reading the section alone and reading the whole workflow come to the same
verdict about it (`Agree`).
-/

namespace WorkflowPolicy.Draft

open Check (built findings remarks)

/-! ### The parts of a contract -/

/-- What is wrong with the version of a contract. -/
def versionFindings (version : String) : List Finding :=
  if version = "" then [.contractVersionMissing]
  else if version ≠ "1" then [.contractVersionUnknown version]
  else []

/-- What is wrong with a block that is opened by hand, wherever it stands. -/
def Egress.faults (e : Egress) : List EgressFault :=
  (if e.cidr = "" then [.cidrMissing]
    else if (Net.Cidr.parse? e.cidr).isNone then [.cidrMalformed e.cidr]
    else []) ++
  e.ports.zipIdx.flatMap fun spec =>
    if (Net.PortSpec.parse? spec.1).isNone then [.portMalformed spec.2 spec.1] else []

namespace Contract

/-- The dependencies of a contract, in the order of their names. -/
def entries (c : Contract) : List (String × Dependency) := (c.dependencies.getD .empty).entries

/-- A contract with nothing in it but one dependency. -/
def only (name : String) (d : Dependency) : Contract :=
  { version := "1", dependencies := some (.single name d) }

/-- A contract with nothing in it but one block that is opened by hand. -/
def onlyBlock (e : Egress) : Contract := { version := "1", override := some [e] }

/-- **The check of a contract is put together from those of its parts**, on any log. What is built,
found and remarked is read off a run on the empty log. -/
structure Composes (c : Contract) : Prop where
  /-- The findings and the remarks are put after those that are there. -/
  appends : ∀ log : Log, (Check.contract c).run log =
    (built (Check.contract c), ⟨log.findings ++ findings (Check.contract c),
      log.remarks ++ remarks (Check.contract c)⟩)
  /-- A contract is built if nothing is found in this contract. -/
  builds : (built (Check.contract c)).isSome ↔ findings (Check.contract c) = []
  /-- The findings are those of the version, of every dependency and of every block. -/
  found : findings (Check.contract c) =
    versionFindings c.version ++
      (c.entries.flatMap fun e => findings (Check.contract (only e.1 e.2))) ++
      (c.override.getD []).zipIdx.flatMap fun e => e.1.faults.map (.egress e.2)
  /-- The faults of a block are what is found in a contract with this block only. -/
  alone : ∀ e ∈ c.override.getD [],
    findings (Check.contract (onlyBlock e)) = e.faults.map (.egress 0)
  /-- There is a remark for every dependency whose protocol is given and has no rules. -/
  remarked : remarks (Check.contract c) =
    (c.entries.filter fun e => e.2.protocol ≠ "" ∧ Protocol.ofName? e.2.protocol = none).map
      fun e => ⟨e.1, e.2.protocol⟩
  /-- The dependencies are looked at in the order of their names. -/
  ordered : (c.entries.map Prod.fst).Pairwise (· < ·)

end Contract

/-- What is wrong with a workflow apart from its contract. -/
def Workflow.elsewhere (w : Workflow) : List Finding :=
  findings (Check.workflow { w with contract := none })

/-- **A workflow has of a contract what the contract has by itself.** -/
structure Workflow.Embeds (w : Workflow) (c : Contract) : Prop where
  found : findings (Check.workflow w) = w.elsewhere ++ findings (Check.contract c)
  remarked : remarks (Check.workflow w) = remarks (Check.contract c)
  built : (built (Check.workflow w)).contract = built (Check.contract c)

/-- **Two verdicts agree about a contract**: that on the contract by itself and that on a workflow
around it, in which something else may be found. -/
inductive Agree (elsewhere : List Finding) :
    Except Failure WorkflowPolicy.Contract → Except Failure WorkflowPolicy.Workflow → Prop where
  /-- Nothing is found, and the workflow has the contract. -/
  | accepted (c : WorkflowPolicy.Contract) (w : WorkflowPolicy.Workflow)
      (clean : elsewhere = []) (same : w.contract = some c) : Agree elsewhere (.ok c) (.ok w)
  /-- Nothing is found in the contract. -/
  | refusedElsewhere (c : WorkflowPolicy.Contract) (unclean : elsewhere ≠ []) :
      Agree elsewhere (.ok c) (.error (.violations elsewhere))
  /-- What is found in the contract is found in both. -/
  | refused (found : List Finding) (unclean : found ≠ []) :
      Agree elsewhere (.error (.violations found)) (.error (.violations (elsewhere ++ found)))

namespace Check

/-! ### Findings of the parts -/

theorem findings_contractVersion (version : String) :
    findings (contractVersion version) = versionFindings version := by
  by_cases hempty : version = ""
  · simp [contractVersion, versionFindings, hempty]
  · by_cases hone : version = "1" <;>
      simp [contractVersion, versionFindings, WorkflowPolicy.contractVersion, hempty, hone]

theorem findings_cidr (text : String) (missing malformed : Finding) :
    findings (cidr text missing malformed) =
      if text = "" then [missing]
      else if (Net.Cidr.parse? text).isNone then [malformed] else [] := by
  unfold cidr
  by_cases hempty : text = ""
  · simp [hempty]
  · cases Net.Cidr.parse? text <;> simp [hempty]

theorem findings_portsFrom (malformed : Nat → String → Finding) (index : Nat)
    (specs : List String) : findings (portsFrom malformed index specs) =
      (specs.zipIdx index).flatMap fun spec =>
        if (Net.PortSpec.parse? spec.1).isNone then [malformed spec.2 spec.1] else [] := by
  induction specs generalizing index with
  | nil => rfl
  -- The indices of the ports are counted on from where the list begins.
  | cons spec specs ih =>
    rw [List.zipIdx_cons, List.flatMap_cons, ← ih, portsFrom]
    cases Net.PortSpec.parse? spec <;> simp

/-- The place of a block is in its findings, and nothing else depends on it. -/
theorem findings_egress (index : Nat) (e : Egress) :
    findings (egress index e) = e.faults.map (.egress index) := by
  have hcidr : findings (cidr e.cidr (.egress index .cidrMissing)
      (.egress index (.cidrMalformed e.cidr))) =
      (if e.cidr = "" then [EgressFault.cidrMissing]
        else if (Net.Cidr.parse? e.cidr).isNone then [.cidrMalformed e.cidr]
        else []).map (.egress index) := by
    -- The three outcomes of the check of a block are told apart by the same two tests on both
    -- sides.
    rw [findings_cidr]
    split_ifs <;> rfl
  have hports : findings (portsFrom (fun j spec => .egress index (.portMalformed j spec)) 0
      e.ports) = (e.ports.zipIdx.flatMap fun spec =>
        if (Net.PortSpec.parse? spec.1).isNone then [EgressFault.portMalformed spec.2 spec.1]
        else []).map (.egress index) := by
    rw [findings_portsFrom, List.map_flatMap]
    congr 1
    funext spec
    split_ifs <;> rfl
  simp only [egress, findings_bind, findings_pure, List.append_nil, hcidr, hports,
    Egress.faults, List.map_append]

theorem findings_egressFrom (index : Nat) (es : List Egress) :
    findings (egressFrom index es) =
      (es.zipIdx index).flatMap fun e => e.1.faults.map (.egress e.2) := by
  induction es generalizing index with
  | nil => rfl
  | cons e es ih =>
    rw [List.zipIdx_cons, List.flatMap_cons, ← ih, ← findings_egress]
    simp [egressFrom]

theorem findings_policySection (override : Option (List Egress)) :
    findings (policySection override) =
      (override.getD []).zipIdx.flatMap fun e => e.1.faults.map (.egress e.2) := by
  cases override with
  | none => rfl
  | some es => rw [policySection, findings_map, findings_egressFrom, Option.getD_some]

/-- The findings of a contract, part by part. -/
theorem findings_contract (c : Contract) : findings (contract c) =
    versionFindings c.version ++ (c.entries.flatMap fun e => findings (dependency e.1 e.2)) ++
      (c.override.getD []).zipIdx.flatMap fun e => e.1.faults.map (.egress e.2) := by
  simp only [contract, findings_clean, findings_bind, findings_pure, List.append_nil,
    findings_contractVersion, findings_dependencies, findings_policySection, List.append_assoc,
    Contract.entries]

theorem findings_contract_only (name : String) (d : Dependency) :
    findings (contract (.only name d)) = findings (dependency name d) := by
  -- There is one dependency, the version is a known one, and no block is opened.
  have hentries : (Contract.only name d).entries = [(name, d)] := rfl
  rw [findings_contract, hentries]
  simp [Contract.only, versionFindings]

theorem findings_contract_onlyBlock (e : Egress) :
    findings (contract (.onlyBlock e)) = e.faults.map (.egress 0) := by
  have hentries : (Contract.onlyBlock e).entries = [] := rfl
  rw [findings_contract, hentries]
  simp [Contract.onlyBlock, versionFindings]

/-- A contract is built exactly if nothing is found in it. -/
theorem isSome_built_contract (c : Contract) :
    (built (contract c)).isSome ↔ findings (contract c) = [] := by
  rw [contract, built_clean, findings_clean]
  split
  · -- The check is clean, and what has been built is kept.
    next hnone =>
    simp only [built_bind, built_pure, Option.isSome_some, true_iff]
    exact hnone
  · next hsome => exact iff_of_false Bool.false_ne_true hsome

end Check

/-- **The check of a contract does not depend on what has been found before**, and is put together
from those of its parts. -/
theorem Contract.composes (c : Contract) : c.Composes where
  appends := Check.run_eq (Check.contract c)
  builds := Check.isSome_built_contract c
  -- A contract with one dependency only has the findings of that dependency.
  found := by
    rw [Check.findings_contract]
    simp only [Check.findings_contract_only]
  alone := fun e _ => Check.findings_contract_onlyBlock e
  remarked := Check.remarks_contract c
  ordered := (c.dependencies.getD .empty).sorted

/-! ### Contracts in workflows -/

theorem Workflow.embeds {w : Workflow} {c : Contract} (h : w.contract = some c) : w.Embeds c where
  -- Without its contract the workflow has the findings of all its other parts, in front of those of
  -- the contract.
  found := by
    rw [Workflow.elsewhere, Check.findings_workflow, Check.findings_workflow, h]
    simp only [Option.toList_some, Option.toList_none, List.flatMap_singleton, List.flatMap_nil,
      List.append_nil, List.append_assoc]
  remarked := by rw [Check.remarks_workflow, h, Option.toList_some, List.flatMap_singleton]
  built := by rw [Check.contract_built_workflow, h, Option.bind_some]

/-- The verdict on a contract by itself. -/
theorem Contract.validate_eq (c : Contract) : c.validate =
    match built (Check.contract c) with
    | some accepted => .ok accepted
    | none => .error (findings (Check.contract c)) := by
  have hbuilds := Check.isSome_built_contract c
  rw [Contract.validate, Check.run_eq (Check.contract c), List.nil_append]
  cases hbuilt : built (Check.contract c) with
  | none => rfl
  | some accepted =>
    rw [hbuilt] at hbuilds
    -- Something is built, so nothing is found, and the verdict is what is built.
    have hnone : findings (Check.contract c) = [] := hbuilds.mp rfl
    simp only [hnone, List.isEmpty_nil, if_true]

/-- The verdicts on two drafts agree if one contains the other. -/
theorem agree_of_embeds {w : Workflow} {c : Contract} (h : w.Embeds c) :
    Agree w.elsewhere (c.validate.mapError .violations) (w.validate.mapError .violations) := by
  have hbuilds := Check.isSome_built_contract c
  rw [c.validate_eq, Workflow.validate, Check.accept_eq, h.found]
  cases hbuilt : built (Check.contract c) with
  | none =>
    -- Nothing is built, so something is found in the contract, and the whole is refused too.
    have hfound : findings (Check.contract c) ≠ [] := fun hnone => by
      rw [hbuilt] at hbuilds
      cases hbuilds.mpr hnone
    rw [if_neg fun hnil => hfound (List.append_eq_nil_iff.mp hnil).2]
    exact .refused _ hfound
  | some accepted =>
    rw [hbuilt] at hbuilds
    -- Nothing is found in the contract, so the verdict on the whole is that on the rest of it.
    have hnone : findings (Check.contract c) = [] := hbuilds.mp rfl
    rw [hnone, List.append_nil]
    by_cases helsewhere : w.elsewhere = []
    · rw [if_pos helsewhere]
      exact .accepted _ _ helsewhere (h.built.trans hbuilt)
    · rw [if_neg helsewhere]
      exact .refusedElsewhere _ helsewhere

/-- **A contract is checked alike wherever it stands.** Its check is put together from those of its
parts, whatever has been found before; a workflow with this contract has its findings, its remarks
and what is built of it; and texts of the two get verdicts that agree. -/
theorem contract_checked_alike (c : Contract) :
    c.Composes ∧ ∀ w : Workflow, w.contract = some c → w.Embeds c ∧
      ∀ text whole : String, Reading.fromYaml Contract.read text = .ok c →
        Reading.fromYaml Workflow.read whole = .ok w →
          Agree w.elsewhere (WorkflowPolicy.Contract.parse text)
            (WorkflowPolicy.Workflow.parse whole) := by
  refine ⟨c.composes, fun w hcontract => ⟨Workflow.embeds hcontract, ?_⟩⟩
  intro text whole hread hreadWhole
  -- Both texts are read as the drafts, so only the checks are left to compare.
  have hparse : WorkflowPolicy.Contract.parse text = c.validate.mapError .violations := by
    rw [WorkflowPolicy.Contract.parse, hread]
  have hparseWhole : WorkflowPolicy.Workflow.parse whole = w.validate.mapError .violations := by
    rw [WorkflowPolicy.Workflow.parse, hreadWhole]
  rw [hparse, hparseWhole]
  exact agree_of_embeds (Workflow.embeds hcontract)

deriving instance DecidableEq for Dependency

deriving instance DecidableEq for Contract

/-- A contract of an unknown version with a service of no known protocol and a malformed name. -/
def cacheText : String := "version: \"2\"\ndependencies:\n  Cache:\n    protocol: redis\n"

/-- A workflow around it, with a malformed name. -/
def releaseText : String :=
  "name: Release\nversion: \"1.0\"\ntriggers:\n- type: manual\n" ++
    "nodes:\n  build:\n    path: a.ts\n" ++
    "contract:\n  version: \"2\"\n  dependencies:\n    Cache:\n      protocol: redis\n"

/-- The two faults of the contract come after that of the name. -/
theorem cache_checked_alike : ∃ c w,
    Reading.fromYaml Contract.read cacheText = .ok c ∧
      Reading.fromYaml Workflow.read releaseText = .ok w ∧ w.contract = some c ∧
        w.elsewhere = [.nameMalformed "Release"] ∧
        Agree w.elsewhere (WorkflowPolicy.Contract.parse cacheText)
          (WorkflowPolicy.Workflow.parse releaseText) := by
  obtain ⟨c, hread, rfl⟩ : ∃ c, Reading.fromYaml Contract.read cacheText = .ok c ∧
      c = { version := "2", dependencies := some (.single "Cache" { protocol := "redis" }) } :=
    exists_ok_of_any (by decide +kernel)
  obtain ⟨w, hreadWhole, hcontract, helsewhere⟩ :
      ∃ w, Reading.fromYaml Workflow.read releaseText = .ok w ∧ w.contract =
        some { version := "2", dependencies := some (.single "Cache" { protocol := "redis" }) } ∧
        w.elsewhere = [.nameMalformed "Release"] :=
    exists_ok_of_any (by decide +kernel)
  exact ⟨_, w, hread, hreadWhole, hcontract, helsewhere,
    ((contract_checked_alike _).2 w hcontract).2 cacheText releaseText hread hreadWhole⟩

end WorkflowPolicy.Draft
