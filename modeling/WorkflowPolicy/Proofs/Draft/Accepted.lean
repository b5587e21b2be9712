import WorkflowPolicy.Failure
import WorkflowPolicy.Proofs.Draft.Acceptance
import WorkflowPolicy.Proofs.Net.PortSpec

/-!
# What accepted contracts are like

A contract is `Contract.Accepted` if it comes out of the check of a draft, by itself or as part of
a workflow. What is derived from a contract relies on more than the type says: the texts of the
blocks that are opened by hand can be read a second time, and no port is zero. This is
`Contract.Sound`, and `sound_of_accepted` is all that later modules use of the check.
-/

namespace WorkflowPolicy

open Net (Port PortSpec)

/-! ### Sound contracts -/

/-- The texts for the block and for its ports can be read. -/
structure ExtraEgress.Readable (e : ExtraEgress) : Prop where
  block : Draft.IsBlock e.cidr
  ports : ∀ spec ∈ e.ports, Draft.IsPort spec

/-- No port of the target is zero. -/
def Target.Numbered : Target → Prop
  | .fixed _ _ declared => declared ≠ some 0
  | .package .. => True
  | .dynamic _ _ ports => ∀ p ∈ ports, p.port ≠ 0

/-- **What the check leaves behind in a contract.** -/
structure Contract.Sound (c : Contract) : Prop where
  /-- The blocks that are opened by hand can be read. -/
  readable : ∀ e ∈ c.extraEgress, e.Readable
  /-- No port of a dependency is zero. -/
  numbered : ∀ d ∈ c.dependencies.values, d.target.Numbered

/-- **A contract that has passed the check**, by itself or in a workflow that is read. -/
def Contract.Accepted (c : Contract) : Prop :=
  (∃ draft : Draft.Contract, draft.validate = .ok c) ∨
    ∃ text w, Workflow.parse text = .ok w ∧ w.contract = some c

/-! ### Rosters -/

theorem mem_values_putEntry {α : Type} {name : String} {v x : α} {entries : List (String × α)}
    (h : x ∈ (putEntry name v entries).map Prod.snd) :
    x = v ∨ x ∈ entries.map Prod.snd := by
  induction entries with
  | nil => simpa [putEntry] using h
  | cons e entries ih =>
    unfold putEntry at h
    split at h
    · -- A value in the place of another one is new, and all the rest was there.
      rw [List.map_cons, List.mem_cons] at h
      exact h.imp_right fun hmem => List.mem_cons_of_mem _ hmem
    · rw [List.map_cons, List.mem_cons] at h
      rcases h with rfl | hmem
      · exact .inr List.mem_cons_self
      · exact (ih hmem).imp_right fun hmem => List.mem_cons_of_mem _ hmem

theorem Roster.mem_values_put {α : Type} {r : Roster α} {name : String} {v x : α}
    (h : x ∈ (r.put name v).values) : x = v ∨ x ∈ r.values := mem_values_putEntry h

namespace Draft.Check

/-! ### What is built of dependencies -/

theorem numbered_of_built_dynamicTarget {name : String} {d : Dependency} {t : Target}
    (h : built (dynamicTarget name d) = some t) : t.Numbered := by
  -- Every port has been read, and none that is read is zero.
  have hports : ∀ {malformed : Nat → String → Finding} {index : Nat} {specs : List String},
      ∀ p ∈ built (portsFrom malformed index specs), p.port ≠ 0 := by
    intro malformed index specs
    induction specs generalizing index with
    | nil => simp [portsFrom]
    | cons spec specs ih =>
      unfold portsFrom
      cases hparse : PortSpec.parse? spec with
      | none => simpa using ih
      | some port => simpa using ⟨port_ne_zero_of_parse? hparse, ih⟩
  simp only [dynamicTarget, built_bind, built_pure, Option.map_eq_some_iff] at h
  obtain ⟨block, -, rfl⟩ := h
  exact hports

theorem built_port_ne_zero (name : String) (declared : Option Int) :
    built (port name declared) ≠ some 0 := by
  cases declared with
  | none => simp [port]
  | some p =>
    -- Zero and what is out of range count as no port.
    simp only [port, built_ite, built_pure, built_bind]
    split
    · simp
    · split
      · next hrange =>
        have hlt : p < 65536 := hrange.2
        have hne : (.ofNat p.toNat : Port) ≠ 0 := ofNat_ne_zero (by omega) (by omega)
        simpa using hne
      · simp

theorem numbered_of_built_fixedTarget {name : String} {d : Dependency} {t : Target}
    (h : built (fixedTarget name d) = some t) : t.Numbered := by
  have hport := built_port_ne_zero name d.port
  unfold fixedTarget at h
  cases hprotocol : Protocol.ofName? d.protocol with
  | none =>
    simp only [hprotocol, built_bind, built_pure, Option.some.injEq] at h
    rw [← h]
    exact hport
  | some protocol =>
    simp only [hprotocol, built_bind, built_pure, Option.some.injEq] at h
    rw [← h]
    -- The port is handed on as it is, except to packages, which have none.
    cases protocol <;> simp [knownTarget, Target.Numbered, hport]

theorem built_dependencyWithProtocol (name : String) (d : Dependency) :
    built (dependencyWithProtocol name d) =
      (built (if d.kind = dynamicKind then dynamicTarget name d else fixedTarget name d)).map
        fun target => ⟨target, d.auth, d.extensions⟩ := by
  by_cases h : d.kind = dynamicKind <;>
    simp [dependencyWithProtocol, Option.forM_eq_forM, h]

/-- **What is built of a dependency**: its draft is acceptable, and apart from the target, which is
built by itself, it is handed on as it is. -/
theorem exists_target_of_built_dependency {name : String} {d : Dependency}
    {x : WorkflowPolicy.Dependency} (h : built (dependency name d) = some x) :
    d.Acceptable name ∧ ∃ target,
      built (if d.kind = dynamicKind then dynamicTarget name d else fixedTarget name d) =
        some target ∧ x = ⟨target, d.auth, d.extensions⟩ := by
  rw [← findings_dependency_eq_nil_iff]
  unfold dependency at h ⊢
  -- Something is built only where nothing has been found.
  rw [built_clean, Option.ite_none_right_eq_some] at h
  obtain ⟨hfindings, hbuilt⟩ := h
  refine ⟨by rwa [findings_clean], ?_⟩
  rw [built_bind, built_ite, built_dependencyWithProtocol] at hbuilt
  split at hbuilt
  · -- Without a protocol nothing is built.
    simp at hbuilt
  · obtain ⟨target, htarget, rfl⟩ := Option.map_eq_some_iff.mp hbuilt
    exact ⟨target, htarget, rfl⟩

theorem numbered_of_built_dependency {name : String} {d : Dependency}
    {x : WorkflowPolicy.Dependency} (h : built (dependency name d) = some x) :
    x.target.Numbered := by
  obtain ⟨-, target, htarget, rfl⟩ := exists_target_of_built_dependency h
  split at htarget
  · exact numbered_of_built_dynamicTarget htarget
  · exact numbered_of_built_fixedTarget htarget

/-- What is in the roster after the walk has been there before or has been built on the way. -/
theorem mem_values_built_dependencies {entries : List (String × Dependency)}
    {start : Roster WorkflowPolicy.Dependency} {x : WorkflowPolicy.Dependency}
    (h : x ∈ (built (dependencies entries start)).values) :
    x ∈ start.values ∨ ∃ e ∈ entries, built (dependency e.1 e.2) = some x := by
  induction entries generalizing start with
  | nil => exact .inl h
  | cons e entries ih =>
    rw [dependencies_cons, built_bind] at h
    rcases ih h with hnext | ⟨e', he', hbuilt⟩
    · -- The entry has added one value to the roster, or none.
      cases hdependency : built (dependency e.1 e.2) with
      | none =>
        rw [hdependency] at hnext
        exact .inl hnext
      | some d =>
        rw [hdependency] at hnext
        rcases Roster.mem_values_put hnext with rfl | hstart
        · exact .inr ⟨e, List.mem_cons_self, hdependency⟩
        · exact .inl hstart
    · exact .inr ⟨e', List.mem_cons_of_mem _ he', hbuilt⟩

/-! ### What is built of a contract -/

/-- The blocks of the policy section are kept as they are written. -/
theorem built_egressFrom (index : Nat) (es : List Egress) :
    built (egressFrom index es) = es.map fun e => ⟨e.cidr, e.ports, nonEmpty e.reason⟩ := by
  induction es generalizing index with
  | nil => rfl
  | cons e es ih => simp [egressFrom, egress, ih]

/-- A contract is handed out only if nothing has been found in its draft. -/
theorem acceptable_of_built_contract {draft : Contract} {c : WorkflowPolicy.Contract}
    (h : built (contract draft) = some c) : draft.Acceptable := by
  rw [← findings_contract_eq_nil_iff]
  -- The two forms of a contract differ in what they hand out, and not in what is found.
  rw [contract, built_clean] at h
  rw [contract, findings_clean]
  split at h
  · next hfindings => exact hfindings
  · cases h

/-- Every dependency of a contract has been built of one of its draft. -/
theorem exists_built_dependency {draft : Contract} {c : WorkflowPolicy.Contract}
    (h : built (contract draft) = some c) {x : WorkflowPolicy.Dependency}
    (hx : x ∈ c.dependencies.values) :
    ∃ e ∈ (draft.dependencies.getD .empty).entries, built (dependency e.1 e.2) = some x := by
  rw [contract, built_clean] at h
  split at h
  · simp only [built_bind, built_pure, Option.some.injEq] at h
    rw [← h] at hx
    -- The walk starts with no dependency.
    exact (mem_values_built_dependencies hx).resolve_left List.not_mem_nil
  · cases h

/-- The blocks that are opened by hand are those of the draft. -/
theorem extraEgress_of_built_contract {draft : Contract} {c : WorkflowPolicy.Contract}
    (h : built (contract draft) = some c) :
    c.extraEgress = (draft.override.getD []).map fun e => ⟨e.cidr, e.ports, nonEmpty e.reason⟩ := by
  rw [contract, built_clean] at h
  split at h
  · simp only [built_bind, built_pure, Option.some.injEq] at h
    rw [← h]
    unfold policySection
    cases draft.override <;> simp [Contract.extraEgress, built_egressFrom]
  · cases h

/-- **A contract that is built is sound.** It is built only if nothing is found in it, so its draft
is acceptable. -/
theorem sound_of_built_contract {draft : Contract} {c : WorkflowPolicy.Contract}
    (h : built (contract draft) = some c) : c.Sound where
  readable e he := by
    rw [extraEgress_of_built_contract h] at he
    -- Its texts are those of the draft, and there they can be read.
    obtain ⟨written, hwritten, rfl⟩ := List.mem_map.mp he
    cases hoverride : draft.override with
    | none => simp [hoverride] at hwritten
    | some es =>
      have hegress := (acceptable_of_built_contract h).override es hoverride written
        (by simpa [hoverride] using hwritten)
      exact ⟨hegress.block, hegress.ports⟩
  numbered x hx := by
    obtain ⟨e, -, hbuilt⟩ := exists_built_dependency h hx
    exact numbered_of_built_dependency hbuilt

theorem built_contract_of_validate {draft : Contract} {c : WorkflowPolicy.Contract}
    (h : draft.validate = .ok c) : built (contract draft) = some c := by
  unfold Contract.validate at h
  split at h
  · next accepted log hrun =>
    split at h
    · obtain rfl := Except.ok.inj h
      exact congrArg Prod.fst hrun
    · cases h
  · cases h

/-- The contract of a workflow is the one that is built of its draft. -/
theorem contract_built_workflow (draft : Workflow) :
    (built (workflow draft)).contract = draft.contract.bind fun c => built (contract c) := by
  unfold workflow
  cases draft.contract <;> simp

end Draft.Check

/-- A workflow that is read has been built of a draft in which nothing has been found. -/
theorem exists_draft_of_parse {text : String} {w : Workflow} (h : Workflow.parse text = .ok w) :
    ∃ draft, Reading.fromYaml Draft.Workflow.read text = .ok draft ∧
      Draft.Check.findings (Draft.Check.workflow draft) = [] ∧
      w = Draft.Check.built (Draft.Check.workflow draft) := by
  unfold Workflow.parse at h
  split at h
  · cases h
  · next draft hread =>
    rw [Draft.Workflow.validate, Draft.Check.accept_eq] at h
    split at h
    · next hfindings => exact ⟨draft, hread, hfindings, (Except.ok.inj h).symm⟩
    · cases h

/-- An accepted contract has been built of a draft. -/
theorem exists_built_of_accepted {c : Contract} (h : c.Accepted) :
    ∃ draft, Draft.Check.built (Draft.Check.contract draft) = some c := by
  -- By itself or in a workflow, the contract has been built by the same check.
  rcases h with ⟨draft, hdraft⟩ | ⟨text, w, hparse, hcontract⟩
  · exact ⟨draft, Draft.Check.built_contract_of_validate hdraft⟩
  · obtain ⟨draft, -, -, rfl⟩ := exists_draft_of_parse hparse
    rw [Draft.Check.contract_built_workflow, Option.bind_eq_some_iff] at hcontract
    obtain ⟨written, -, hbuilt⟩ := hcontract
    exact ⟨written, hbuilt⟩

/-- **Accepted contracts are sound.** -/
theorem sound_of_accepted {c : Contract} (h : c.Accepted) : c.Sound := by
  obtain ⟨draft, hbuilt⟩ := exists_built_of_accepted h
  exact Draft.Check.sound_of_built_contract hbuilt

/-- A result that passes a test is a result. -/
theorem exists_ok_of_any {ε α : Type} {r : Except ε α} {P : α → Prop} [DecidablePred P]
    (h : r.toOption.any (fun a => decide (P a)) = true) : ∃ a, r = .ok a ∧ P a := by
  cases r with
  | error failure => cases h
  | ok a => exact ⟨a, rfl, of_decide_eq_true h⟩

/-- A workflow that is read from a text and passes a test is found by reading the text. -/
theorem Workflow.exists_parse {text : String} {P : Workflow → Prop} [DecidablePred P]
    (h : (Workflow.parse text).toOption.any (fun w => decide (P w)) = true) :
    ∃ w, Workflow.parse text = .ok w ∧ P w := exists_ok_of_any h

end WorkflowPolicy
