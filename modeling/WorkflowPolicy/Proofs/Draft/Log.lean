import WorkflowPolicy.Draft.Check

/-!
# What a check writes down

A check of `Draft.Check` is a state monad over the log, but it only ever adds to the log, and what
it adds does not depend on what is there. This is `Check.Steady`: on any log, a check builds
`Check.built` and appends `Check.findings` and `Check.remarks`, which are read off a run on the
empty log. `count` alone looks at the log; it is used by `clean` only, which is steady again
(`steady_clean`).

With every check steady, the findings of a check are those of its parts one after the other
(`findings_bind`), and the laws about checks are laws about lists. `AllFound` says that every
finding of a check has a property, and the last sections say which part of a draft the findings of
each check are about: those of the check of a dependency name it (`allFound_dependency`).
-/

namespace WorkflowPolicy.Draft

/-- Is the fault one of credentials, and not of the dependency that needs them? -/
def DependencyFault.isOnCredentials : DependencyFault → Bool
  | .authKindMissing | .secretMissing | .secretMalformed _ => true
  | _ => false

namespace Check

variable {α β : Type}

/-! ### Outcomes -/

/-- What a check builds. -/
def built (walk : Check α) : α := (walk.run {}).1

/-- What a check finds. -/
def findings (walk : Check α) : List Finding := (walk.run {}).2.findings

/-- What a check remarks. -/
def remarks (walk : Check α) : List Unknown := (walk.run {}).2.remarks

/-- **A check that only adds to the log**, and does the same on every log. -/
class Steady (walk : Check α) : Prop where
  /-- The outcome on a log is the one on the empty log, put after it. -/
  appends : ∀ log : Log, walk.run log =
    (built walk, ⟨log.findings ++ findings walk, log.remarks ++ remarks walk⟩)

/-- **A steady check on any log.** -/
theorem run_eq (walk : Check α) [steady : Steady walk] (log : Log) : walk.run log =
    (built walk, ⟨log.findings ++ findings walk, log.remarks ++ remarks walk⟩) :=
  steady.appends log

/-- A check is steady if it appends the same to every log. -/
theorem steady_of_run {walk : Check α} (a : α) (fs : List Finding) (us : List Unknown)
    (h : ∀ log : Log, walk.run log = (a, ⟨log.findings ++ fs, log.remarks ++ us⟩)) :
    Steady walk := by
  constructor
  intro log
  -- The empty log is the case in which nothing stands before.
  simp only [built, findings, remarks, h, List.nil_append]

/-! ### The steps that checks are made of -/

section Primitives

variable (a : α) (f : Finding) (u : Unknown)

instance steady_pure : Steady (pure a : Check α) :=
  steady_of_run a [] [] fun log => by
    simp only [List.append_nil]
    rfl

@[simp] theorem built_pure : built (pure a : Check α) = a := rfl

@[simp] theorem findings_pure : findings (pure a : Check α) = [] := rfl

@[simp] theorem remarks_pure : remarks (pure a : Check α) = [] := rfl

instance steady_report : Steady (report f) :=
  steady_of_run () [f] [] fun log => by
    simp only [List.append_nil]
    rfl

@[simp] theorem findings_report : findings (report f) = [f] := rfl

@[simp] theorem remarks_report : remarks (report f) = [] := rfl

instance steady_remark : Steady (remark u) :=
  steady_of_run () [] [u] fun log => by
    simp only [List.append_nil]
    rfl

@[simp] theorem findings_remark : findings (remark u) = [] := rfl

@[simp] theorem remarks_remark : remarks (remark u) = [u] := rfl

end Primitives

section Sequence

variable (walk : Check α) (next : α → Check β) [Steady walk] [∀ a, Steady (next a)]

/-- One check after the other, on any log. -/
theorem run_bind (log : Log) : (walk >>= next).run log =
    (built (next (built walk)),
      ⟨log.findings ++ (findings walk ++ findings (next (built walk))),
        log.remarks ++ (remarks walk ++ remarks (next (built walk)))⟩) := by
  -- The second check runs on the log that the first one leaves, and is steady there.
  rw [StateT.run_bind, run_eq walk]
  change (next (built walk)).run _ = _
  rw [run_eq (next (built walk)), List.append_assoc, List.append_assoc]

instance steady_bind : Steady (walk >>= next) := steady_of_run _ _ _ (run_bind walk next)

@[simp] theorem built_bind : built (walk >>= next) = built (next (built walk)) := by
  rw [built, run_bind]

/-- **The findings of two checks**, one after the other. -/
@[simp] theorem findings_bind :
    findings (walk >>= next) = findings walk ++ findings (next (built walk)) := by
  rw [findings, run_bind]
  exact List.nil_append _

@[simp] theorem remarks_bind :
    remarks (walk >>= next) = remarks walk ++ remarks (next (built walk)) := by
  rw [remarks, run_bind]
  exact List.nil_append _

end Sequence

section Map

variable (walk : Check α) (f : α → β) [Steady walk]

omit [Steady walk] in
theorem map_eq_bind : f <$> walk = walk >>= fun a => pure (f a) := rfl

instance steady_map : Steady (f <$> walk) := by
  rw [map_eq_bind]
  infer_instance

@[simp] theorem built_map : built (f <$> walk) = f (built walk) := by
  rw [map_eq_bind, built_bind, built_pure]

@[simp] theorem findings_map : findings (f <$> walk) = findings walk := by
  rw [map_eq_bind, findings_bind, findings_pure, List.append_nil]

end Map

section Choice

variable (c : Prop) [Decidable c] (walk walk' : Check α)

instance steady_ite [Steady walk] [Steady walk'] : Steady (if c then walk else walk') := by
  split <;> infer_instance

@[simp] theorem built_ite :
    built (if c then walk else walk') = if c then built walk else built walk' := by
  split <;> rfl

@[simp] theorem findings_ite :
    findings (if c then walk else walk') = if c then findings walk else findings walk' := by
  split <;> rfl

@[simp] theorem remarks_ite :
    remarks (if c then walk else walk') = if c then remarks walk else remarks walk' := by
  split <;> rfl

end Choice

instance steady_reportIf (c : Bool) (f : Finding) : Steady (reportIf c f) := by
  unfold reportIf
  infer_instance

@[simp] theorem findings_reportIf (c : Bool) (f : Finding) :
    findings (reportIf c f) = if c then [f] else [] := by
  simp [reportIf]

/-! ### Checks along a list -/

section Lists

variable (visit : α → Check PUnit)

instance steady_forM (xs : List α) [∀ x, Steady (visit x)] : Steady (forM xs visit) := by
  induction xs with
  | nil => exact steady_pure PUnit.unit
  | cons x xs ih =>
    rw [List.forM_cons]
    infer_instance

/-- The findings along a list are those of its elements in their order. -/
@[simp] theorem findings_forM (xs : List α) [∀ x, Steady (visit x)] :
    findings (forM xs visit) = xs.flatMap fun x => findings (visit x) := by
  induction xs with
  | nil => rfl
  | cons x xs ih => rw [List.forM_cons, findings_bind, ih, List.flatMap_cons]

instance steady_option_forM (o : Option α) [∀ x, Steady (visit x)] : Steady (forM o visit) := by
  cases o with
  | none => exact steady_pure PUnit.unit
  | some a => exact inferInstanceAs (Steady (visit a))

@[simp] theorem findings_option_forM (o : Option α) :
    findings (forM o visit) = o.toList.flatMap fun x => findings (visit x) := by
  cases o with
  | none => rfl
  | some a => simp

end Lists

/-! ### Checks that hand out what they build only if they find nothing -/

section Clean

variable (walk : Check (Option α)) [Steady walk]

/-- Looking at the length of the log before and after tells whether something has been added. -/
theorem run_clean (log : Log) : (clean walk).run log =
    (if findings walk = [] then built walk else none,
      ⟨log.findings ++ findings walk, log.remarks ++ remarks walk⟩) := by
  have hrun : (clean walk).run log =
      (if log.findings.length < (walk.run log).2.findings.length then none else (walk.run log).1,
        (walk.run log).2) := rfl
  -- The log has become longer exactly if the walk has found something.
  rw [hrun, run_eq walk, List.length_append]
  cases hfindings : findings walk with
  | nil => simp
  | cons f fs => simp

instance steady_clean : Steady (clean walk) := steady_of_run _ _ _ (run_clean walk)

@[simp] theorem built_clean :
    built (clean walk) = if findings walk = [] then built walk else none := by
  rw [built, run_clean]

@[simp] theorem findings_clean : findings (clean walk) = findings walk := by
  rw [findings, run_clean, List.nil_append]

end Clean

/-! ### Properties of all findings -/

section AllFound

variable {P : Finding → Prop}

/-- **Every finding of a check has the property.** -/
def AllFound (P : Finding → Prop) (walk : Check α) : Prop := ∀ f ∈ findings walk, P f

@[simp] theorem allFound_pure (a : α) : AllFound P (pure a : Check α) := by
  simp [AllFound]

@[simp] theorem allFound_report (f : Finding) : AllFound P (report f) ↔ P f := by
  simp [AllFound]

@[simp] theorem allFound_remark (u : Unknown) : AllFound P (remark u) := by
  simp [AllFound]

@[simp] theorem allFound_bind (walk : Check α) (next : α → Check β) [Steady walk]
    [∀ a, Steady (next a)] :
    AllFound P (walk >>= next) ↔ AllFound P walk ∧ AllFound P (next (built walk)) := by
  simp only [AllFound, findings_bind, List.mem_append, or_imp, forall_and]

@[simp] theorem allFound_map (walk : Check α) (f : α → β) [Steady walk] :
    AllFound P (f <$> walk) ↔ AllFound P walk := by
  simp only [AllFound, findings_map]

@[simp] theorem allFound_ite (c : Prop) [Decidable c] (walk walk' : Check α) :
    AllFound P (if c then walk else walk') ↔ (c → AllFound P walk) ∧ (¬c → AllFound P walk') := by
  by_cases h : c <;> simp [h]

@[simp] theorem allFound_reportIf (c : Bool) (f : Finding) :
    AllFound P (reportIf c f) ↔ (c → P f) := by
  cases c <;> simp [AllFound]

@[simp] theorem allFound_forM (visit : α → Check PUnit) [∀ x, Steady (visit x)] (xs : List α) :
    AllFound P (forM xs visit) ↔ ∀ x ∈ xs, AllFound P (visit x) := by
  simp only [AllFound, findings_forM, List.mem_flatMap]
  exact ⟨fun h x hx f hf => h f ⟨x, hx, hf⟩, fun h f ⟨x, hx, hf⟩ => h x hx f hf⟩

@[simp] theorem allFound_option_forM (visit : α → Check PUnit) (o : Option α) :
    AllFound P (forM o visit) ↔ ∀ a ∈ o, AllFound P (visit a) := by
  cases o <;> simp [AllFound]

@[simp] theorem allFound_clean (walk : Check (Option α)) [Steady walk] :
    AllFound P (clean walk) ↔ AllFound P walk := by
  simp only [AllFound, findings_clean]

end AllFound

/-! ### All checks are steady -/

section Steady

instance steady_needed (index : Nat) (kind field value : String) (event : String → Event) :
    Steady (needed index kind field value event) := by
  unfold needed
  infer_instance

instance steady_event (index : Nat) (t : Trigger) : Steady (event index t) := by
  unfold event
  infer_instance

instance steady_triggerName (index : Nat) (name : String) (taken : List String) :
    Steady (triggerName index name taken) := by
  unfold triggerName
  infer_instance

instance steady_triggersFrom (index : Nat) (taken : List String) (ts : List Trigger) :
    Steady (triggersFrom index taken ts) := by
  -- The triggers know their index and the names taken so far, so both are general.
  induction ts generalizing index taken with
  | nil => exact steady_pure []
  | cons t ts ih =>
    unfold triggersFrom
    infer_instance

instance steady_triggers (ts : List Trigger) : Steady (triggers ts) := by
  unfold triggers
  infer_instance

instance steady_node (name : String) (s : Step) : Steady (node name s) := by
  unfold node
  infer_instance

instance steady_nodes (ns : Table Step) : Steady (nodes ns) := by
  unfold nodes
  rw [List.forM_eq_forM]
  infer_instance

instance steady_edge (names : List String) (index : Nat) (e : Edge) :
    Steady (edge names index e) := by
  unfold edge
  infer_instance

instance steady_edges (names : List String) (es : List Edge) : Steady (edges names es) := by
  unfold edges
  simp only [List.forM_eq_forM]
  infer_instance

instance steady_cidr (text : String) (missing malformed : Finding) :
    Steady (cidr text missing malformed) := by
  unfold cidr
  cases Net.Cidr.parse? text <;> infer_instance

instance steady_portsFrom (malformed : Nat → String → Finding) (index : Nat)
    (specs : List String) : Steady (portsFrom malformed index specs) := by
  induction specs generalizing index with
  | nil => exact steady_pure []
  | cons spec specs ih =>
    unfold portsFrom
    cases Net.PortSpec.parse? spec <;> infer_instance

instance steady_dynamicTarget (name : String) (d : Dependency) :
    Steady (dynamicTarget name d) := by
  unfold dynamicTarget
  infer_instance

instance steady_port (name : String) (declared : Option Int) : Steady (port name declared) := by
  unfold port
  cases declared <;> infer_instance

instance steady_require (name : String) (protocol : Protocol) (field value : String) :
    Steady (require name protocol field value) := by
  unfold require
  infer_instance

instance steady_knownTarget (name : String) (protocol : Protocol) (port : Option Net.Port)
    (d : Dependency) : Steady (knownTarget name protocol port d) := by
  unfold knownTarget
  cases protocol <;> infer_instance

instance steady_fixedTarget (name : String) (d : Dependency) : Steady (fixedTarget name d) := by
  unfold fixedTarget
  cases Protocol.ofName? d.protocol <;> infer_instance

instance steady_auth (name : String) (a : Auth) : Steady (auth name a) := by
  unfold auth
  infer_instance

instance steady_dependencyWithProtocol (name : String) (d : Dependency) :
    Steady (dependencyWithProtocol name d) := by
  unfold dependencyWithProtocol
  simp only [Option.forM_eq_forM]
  infer_instance

instance steady_dependency (name : String) (d : Dependency) : Steady (dependency name d) := by
  unfold dependency
  infer_instance

/-- A roster with one more entry, if there is one. -/
def putBuilt (name : String) (start : Roster WorkflowPolicy.Dependency) :
    Option WorkflowPolicy.Dependency → Roster WorkflowPolicy.Dependency
  | some d => start.put name d
  | none => start

theorem dependencies_cons (name : String) (d : Dependency) (entries : List (String × Dependency))
    (start : Roster WorkflowPolicy.Dependency) :
    dependencies ((name, d) :: entries) start =
      dependency name d >>= fun built => dependencies entries (putBuilt name start built) := by
  -- The two branches of the match differ only in the roster with which they go on.
  rw [dependencies]
  congr 1
  funext built
  cases built <;> rfl

instance steady_dependencies (entries : List (String × Dependency))
    (start : Roster WorkflowPolicy.Dependency) : Steady (dependencies entries start) := by
  induction entries generalizing start with
  | nil => exact steady_pure start
  | cons e entries ih =>
    rw [dependencies_cons]
    infer_instance

instance steady_egress (index : Nat) (e : Egress) : Steady (egress index e) := by
  unfold egress
  infer_instance

instance steady_egressFrom (index : Nat) (es : List Egress) : Steady (egressFrom index es) := by
  induction es generalizing index with
  | nil => exact steady_pure []
  | cons e es ih =>
    unfold egressFrom
    infer_instance

instance steady_policySection (override : Option (List Egress)) :
    Steady (policySection override) := by
  cases override <;> (unfold policySection; infer_instance)

instance steady_contractVersion (version : String) : Steady (contractVersion version) := by
  unfold contractVersion
  infer_instance

instance steady_contract (c : Contract) : Steady (contract c) := by
  unfold contract
  infer_instance

instance steady_header (name version : String) : Steady (header name version) := by
  unfold header
  infer_instance

instance steady_workflow (w : Workflow) : Steady (workflow w) := by
  unfold workflow
  cases w.contract <;> infer_instance

end Steady

/-! ### What is found in a dependency -/

section Dependencies

variable {P : Finding → Prop} {name : String}

theorem allFound_cidr {missing malformed : Finding} (h : P missing) (h' : P malformed)
    (text : String) : AllFound P (cidr text missing malformed) := by
  unfold cidr
  cases Net.Cidr.parse? text <;> simp [h, h']

theorem allFound_portsFrom {malformed : Nat → String → Finding}
    (h : ∀ j spec, P (malformed j spec)) (index : Nat) (specs : List String) :
    AllFound P (portsFrom malformed index specs) := by
  induction specs generalizing index with
  | nil => simp [portsFrom]
  | cons spec specs ih =>
    unfold portsFrom
    cases Net.PortSpec.parse? spec <;> simp [h, ih]

/-- The check of a target looks at no credentials. -/
theorem allFound_dynamicTarget
    (h : ∀ fault, fault.isOnCredentials = false → P (.dependency name fault)) (d : Dependency) :
    AllFound P (dynamicTarget name d) := by
  have hcidr := allFound_cidr (h .cidrMissing rfl) (h (.cidrMalformed d.cidr) rfl) d.cidr
  -- The check is put together from the two of its fields and the test that there are ports at all.
  have hports := allFound_portsFrom (fun j spec => h (.dynPortMalformed j spec) rfl) 0 d.dynPorts
  simp [dynamicTarget, hcidr, hports, h .dynPortsMissing rfl]

theorem allFound_fixedTarget
    (h : ∀ fault, fault.isOnCredentials = false → P (.dependency name fault)) (d : Dependency) :
    AllFound P (fixedTarget name d) := by
  have hport : AllFound P (port name d.port) := by
    unfold port
    cases d.port with
    | none => simp
    | some p => simp [h (.portOutOfRange p) rfl]
  have hknown : ∀ protocol port, AllFound P (knownTarget name protocol port d) := by
    intro protocol port
    have hfield := fun field => h (.fieldMissing protocol field) rfl
    -- Which fields a protocol asks for is a matter of cases, but each finding is that a field is
    -- missing.
    cases protocol <;> simp [knownTarget, require, hfield]
  unfold fixedTarget
  cases Protocol.ofName? d.protocol <;> simp [hport, hknown]

/-- **Whatever is found in a dependency names it.** -/
theorem allFound_dependency (h : ∀ fault, P (.dependency name fault)) (d : Dependency) :
    AllFound P (dependency name d) := by
  have hdynamic := allFound_dynamicTarget (fun fault _ => h fault) d
  have hfixed := allFound_fixedTarget (fun fault _ => h fault) d
  have hauth : ∀ a, AllFound P (auth name a) := fun a => by simp [auth, h]
  simp [dependency, dependencyWithProtocol, hdynamic, hfixed, hauth, h]

end Dependencies

/-! ### The parts of a workflow -/

/-- **The findings of a workflow**: those of its header, its triggers, its nodes, its edges, and its
contract if it has one. -/
theorem findings_workflow (w : Workflow) : findings (workflow w) =
    findings (header w.name w.version) ++ (findings (triggers w.triggers) ++
      (findings (nodes w.nodes) ++ (findings (edges w.nodes.keys w.edges) ++
        w.contract.toList.flatMap fun c => findings (contract c)))) := by
  unfold workflow
  cases w.contract <;> simp

end Check

end WorkflowPolicy.Draft
