import WorkflowPolicy.Proofs.Draft.Acceptance

/-!
# What a check remarks

Only a protocol without rules is remarked on, and only by the check of the dependency that names it.
All other checks are `Check.Silent`: they may find something but remark on nothing. So the remarks
about a contract can be read off its dependencies (`remarks_contract`), and a workflow has those of
its contract (`remarks_workflow`).
-/

namespace WorkflowPolicy.Draft.Check

variable {α β : Type}

/-- **A check without remarks.** -/
class Silent (walk : Check α) : Prop where
  remarks_eq : remarks walk = []

@[simp] theorem remarks_of_silent (walk : Check α) [silent : Silent walk] : remarks walk = [] :=
  silent.remarks_eq

/-! ### The steps that checks are made of -/

section Primitives

variable (walk walk' : Check α) (next : α → Check β) (f : α → β) (visit : α → Check PUnit)

instance silent_pure (a : α) : Silent (pure a : Check α) := ⟨remarks_pure a⟩

instance silent_report (f : Finding) : Silent (report f) := ⟨remarks_report f⟩

instance silent_bind [Steady walk] [∀ a, Steady (next a)] [Silent walk]
    [∀ a, Silent (next a)] : Silent (walk >>= next) := by
  constructor
  rw [remarks_bind, remarks_of_silent, remarks_of_silent, List.append_nil]

@[simp] theorem remarks_map [Steady walk] : remarks (f <$> walk) = remarks walk := by
  rw [map_eq_bind, remarks_bind, remarks_pure, List.append_nil]

instance silent_map [Steady walk] [Silent walk] : Silent (f <$> walk) := by
  constructor
  rw [remarks_map, remarks_of_silent]

instance silent_ite (c : Prop) [Decidable c] [Silent walk] [Silent walk'] :
    Silent (if c then walk else walk') := by
  split <;> infer_instance

instance silent_reportIf (c : Bool) (f : Finding) : Silent (reportIf c f) := by
  unfold reportIf
  infer_instance

instance silent_forM (xs : List α) [∀ x, Steady (visit x)] [∀ x, Silent (visit x)] :
    Silent (forM xs visit) := by
  induction xs with
  | nil => exact silent_pure PUnit.unit
  | cons x xs ih =>
    rw [List.forM_cons]
    infer_instance

instance silent_option_forM (o : Option α) [∀ x, Silent (visit x)] : Silent (forM o visit) := by
  cases o with
  | none => exact silent_pure PUnit.unit
  | some a => exact inferInstanceAs (Silent (visit a))

/-- What a check builds may be taken back, but not what it remarks. -/
@[simp] theorem remarks_clean (walk : Check (Option α)) [Steady walk] :
    remarks (clean walk) = remarks walk := by
  -- Going on with a value that is returned adds nothing.
  rw [remarks, run_clean]
  exact List.nil_append _

end Primitives

/-! ### Checks without remarks -/

section Silent

instance silent_needed (index : Nat) (kind field value : String) (event : String → Event) :
    Silent (needed index kind field value event) := by
  unfold needed
  infer_instance

instance silent_event (index : Nat) (t : Trigger) : Silent (event index t) := by
  unfold event
  infer_instance

instance silent_triggerName (index : Nat) (name : String) (taken : List String) :
    Silent (triggerName index name taken) := by
  unfold triggerName
  infer_instance

instance silent_triggersFrom (index : Nat) (taken : List String) (ts : List Trigger) :
    Silent (triggersFrom index taken ts) := by
  induction ts generalizing index taken with
  | nil => exact silent_pure []
  | cons t ts ih =>
    unfold triggersFrom
    infer_instance

instance silent_triggers (ts : List Trigger) : Silent (triggers ts) := by
  unfold triggers
  infer_instance

instance silent_node (name : String) (s : Step) : Silent (node name s) := by
  unfold node
  infer_instance

instance silent_nodes (ns : Table Step) : Silent (nodes ns) := by
  unfold nodes
  -- The loop is written with the class, and the instance above is about the function.
  rw [List.forM_eq_forM]
  infer_instance

instance silent_edge (names : List String) (index : Nat) (e : Edge) :
    Silent (edge names index e) := by
  unfold edge
  infer_instance

instance silent_edges (names : List String) (es : List Edge) : Silent (edges names es) := by
  unfold edges
  simp only [List.forM_eq_forM]
  infer_instance

instance silent_cidr (text : String) (missing malformed : Finding) :
    Silent (cidr text missing malformed) := by
  unfold cidr
  -- Whether the block can be read decides what is built, and neither way remarks on it.
  cases Net.Cidr.parse? text <;> infer_instance

instance silent_portsFrom (malformed : Nat → String → Finding) (index : Nat)
    (specs : List String) : Silent (portsFrom malformed index specs) := by
  induction specs generalizing index with
  | nil => exact silent_pure []
  | cons spec specs ih =>
    unfold portsFrom
    cases Net.PortSpec.parse? spec <;> infer_instance

instance silent_dynamicTarget (name : String) (d : Dependency) :
    Silent (dynamicTarget name d) := by
  unfold dynamicTarget
  infer_instance

instance silent_port (name : String) (declared : Option Int) : Silent (port name declared) := by
  unfold port
  cases declared <;> infer_instance

instance silent_require (name : String) (protocol : Protocol) (field value : String) :
    Silent (require name protocol field value) := by
  unfold require
  infer_instance

instance silent_knownTarget (name : String) (protocol : Protocol) (port : Option Net.Port)
    (d : Dependency) : Silent (knownTarget name protocol port d) := by
  unfold knownTarget
  -- Every protocol asks for its own fields, and asking is silent.
  cases protocol <;> infer_instance

instance silent_fixedTarget (name : String) (d : Dependency) : Silent (fixedTarget name d) := by
  unfold fixedTarget
  cases Protocol.ofName? d.protocol <;> infer_instance

instance silent_auth (name : String) (a : Auth) : Silent (auth name a) := by
  unfold auth
  infer_instance

instance silent_egress (index : Nat) (e : Egress) : Silent (egress index e) := by
  unfold egress
  infer_instance

instance silent_egressFrom (index : Nat) (es : List Egress) : Silent (egressFrom index es) := by
  induction es generalizing index with
  | nil => exact silent_pure []
  | cons e es ih =>
    unfold egressFrom
    infer_instance

instance silent_policySection (override : Option (List Egress)) :
    Silent (policySection override) := by
  cases override <;> (unfold policySection; infer_instance)

instance silent_contractVersion (version : String) : Silent (contractVersion version) := by
  unfold contractVersion
  infer_instance

instance silent_header (name version : String) : Silent (header name version) := by
  unfold header
  infer_instance

end Silent

/-! ### The remarks about a contract -/

/-- A dependency whose protocol is given but has no rules. -/
def IsUnknown (d : Dependency) : Prop := d.protocol ≠ "" ∧ Protocol.ofName? d.protocol = none

instance (d : Dependency) : Decidable (IsUnknown d) := inferInstanceAs (Decidable (_ ∧ _))

/-- **A dependency is remarked on once**, if its protocol is given and has no rules. -/
theorem remarks_dependency (name : String) (d : Dependency) :
    remarks (dependency name d) = if IsUnknown d then [⟨name, d.protocol⟩] else [] := by
  by_cases hempty : d.protocol = ""
  · -- Without a protocol the check reports that and goes no further.
    simp [dependency, IsUnknown, hempty]
  · cases hprotocol : Protocol.ofName? d.protocol <;>
      simp [dependency, dependencyWithProtocol, Option.forM_eq_forM, IsUnknown, hempty, hprotocol]

/-- The remarks about dependencies are in their order. -/
theorem remarks_dependencies (entries : List (String × Dependency))
    (start : Roster WorkflowPolicy.Dependency) :
    remarks (dependencies entries start) =
      (entries.filter fun e => IsUnknown e.2).map fun e => ⟨e.1, e.2.protocol⟩ := by
  induction entries generalizing start with
  | nil => rfl
  | cons e entries ih =>
    rw [dependencies_cons, remarks_bind, remarks_dependency, ih]
    -- A remark of the first dependency is in front of those of the others.
    by_cases h : IsUnknown e.2 <;> simp [h]

/-- **The remarks about a contract**: one for every dependency whose protocol has no rules. -/
theorem remarks_contract (c : Contract) : remarks (contract c) =
    ((c.dependencies.getD .empty).entries.filter fun e => IsUnknown e.2).map
      fun e => ⟨e.1, e.2.protocol⟩ := by
  rw [contract, remarks_clean]
  -- Only the loop over the dependencies remarks on anything.
  simp only [remarks_bind, remarks_of_silent, remarks_dependencies, List.nil_append,
    List.append_nil]

/-- **A workflow has the remarks of its contract.** -/
theorem remarks_workflow (w : Workflow) :
    remarks (workflow w) = w.contract.toList.flatMap fun c => remarks (contract c) := by
  unfold workflow
  cases w.contract <;> simp

end WorkflowPolicy.Draft.Check
