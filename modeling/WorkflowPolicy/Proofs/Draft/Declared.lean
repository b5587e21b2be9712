import WorkflowPolicy.Proofs.Draft.Accepted
import WorkflowPolicy.Proofs.Reading.Entries

/-!
# What becomes of the declared entries

The nodes of a workflow and the dependencies of its contract are mappings, and they are read as
tables, so of two entries with one key the later counts. Neither the reading nor the check says
anything about it. `Declares` says what is left: the names are those that are declared, the last
entry of each name is the one that counts, and there are as many names as entries exactly if no key
is repeated.
-/

namespace WorkflowPolicy

open Yaml (Node Document)
open Reading (Place Yields Read)
open Reading.Place (EntryRead PartRead OwnField setsPart_optional keepsPart_optional of_yields_table
  of_yields_option)

/-! ### Rosters -/

/-- A new name is put at the end. -/
theorem putEntry_of_not_mem {α : Type} {name : String} {v : α} {entries : List (String × α)}
    (h : name ∉ entries.map Prod.fst) : putEntry name v entries = entries ++ [(name, v)] := by
  induction entries with
  | nil => rfl
  | cons e entries ih =>
    rw [List.map_cons, List.mem_cons, not_or] at h
    rw [putEntry, if_neg h.1, ih h.2, List.cons_append]

theorem Roster.entries_foldl_put {α : Type} {entries : List (String × α)} (start : Roster α)
    (h : ((start.entries ++ entries).map Prod.fst).Nodup) :
    (entries.foldl (fun r e => r.put e.1 e.2) start).entries = start.entries ++ entries := by
  induction entries generalizing start with
  | nil => rw [List.foldl_nil, List.append_nil]
  | cons e entries ih =>
    -- The name is new to the roster, since it comes again nowhere in the two lists.
    have hnew : e.1 ∉ start.entries.map Prod.fst := by
      rw [List.map_append, List.nodup_append] at h
      exact fun hmem => h.2.2 e.1 hmem e.1 List.mem_cons_self rfl
    have hput : (start.put e.1 e.2).entries = start.entries ++ [e] := putEntry_of_not_mem hnew
    have hsplit : start.entries ++ e :: entries = (start.entries ++ [e]) ++ entries := by simp
    rw [List.foldl_cons, ih _ (by rwa [hput, ← hsplit]), hput, hsplit]

/-- A roster has all entries of a list in which no name is repeated. -/
theorem Roster.entries_ofList {α : Type} {entries : List (String × α)}
    (h : (entries.map Prod.fst).Nodup) : (Roster.ofList entries).entries = entries :=
  entries_foldl_put .empty h

/-- Names without repetitions are as many as the keys that they come from exactly if no key is
repeated. -/
theorem length_eq_iff_nodup {names keys : List String} (hnames : names.Nodup)
    (hmem : ∀ name, name ∈ names ↔ name ∈ keys) : names.length = keys.length ↔ keys.Nodup := by
  -- Both lists have the same elements once the keys are counted once, so they differ by their
  -- order.
  have hperm : names.Perm keys.dedup :=
    (List.perm_ext_iff_of_nodup hnames keys.nodup_dedup).mpr fun name => by
      rw [hmem, List.mem_dedup]
  rw [hperm.length_eq]
  constructor
  · intro hlength
    rw [← List.dedup_eq_self]
    exact (List.dedup_sublist keys).eq_of_length hlength
  · intro hkeys
    rw [List.dedup_eq_self.mpr hkeys]

/-! ### Lists that belong together -/

section Forall₂

variable {α β : Type} {R : α → β → Prop}

/-- What belongs to an element of the second list, and what belongs to those behind it. -/
theorem exists_of_forall₂_append_cons {xs : List α} {before after : List β} {b : β}
    (h : List.Forall₂ R xs (before ++ b :: after)) :
    ∃ xs' x xs'', xs = xs' ++ x :: xs'' ∧ R x b ∧ List.Forall₂ R xs'' after := by
  -- Going through what comes before, one element is left off on both sides.
  induction before generalizing xs with
  | nil =>
    obtain ⟨x, xs'', hx, hrest, rfl⟩ := List.forall₂_cons_right_iff.mp h
    exact ⟨[], x, xs'', rfl, hx, hrest⟩
  | cons b' before ih =>
    obtain ⟨y, ys, -, hrest, rfl⟩ := List.forall₂_cons_right_iff.mp h
    obtain ⟨xs', x, xs'', rfl, hx, hafter⟩ := ih hrest
    exact ⟨y :: xs', x, xs'', rfl, hx, hafter⟩

theorem exists_of_forall₂_mem {xs : List α} {ys : List β} (h : List.Forall₂ R xs ys) {b : β}
    (hb : b ∈ ys) : ∃ x ∈ xs, R x b := by
  obtain ⟨before, after, rfl⟩ := List.append_of_mem hb
  obtain ⟨xs', x, xs'', rfl, hx, -⟩ := exists_of_forall₂_append_cons h
  exact ⟨x, List.mem_append_right _ List.mem_cons_self, hx⟩

/-- Entries that belong together have the same names. -/
theorem map_fst_eq_of_forall₂ {made : String × α → String × β → Prop}
    (hname : ∀ e x, made e x → x.1 = e.1) {xs : List (String × α)} {ys : List (String × β)}
    (h : List.Forall₂ made xs ys) : ys.map Prod.fst = xs.map Prod.fst := by
  induction h with
  | nil => rfl
  | cons hex _ ih => rw [List.map_cons, List.map_cons, hname _ _ hex, ih]

end Forall₂

/-! ### What is left of the entries -/

/-- **What has been made of the entries** under some keys of a document. `made` says what has been
made of the node of a name. -/
structure Declares {α : Type} (d : Document) (path : List String)
    (made : String → Node Nat → α → Prop) (roster : Roster α) : Prop where
  /-- The keys are texts. -/
  texts : ∀ e ∈ d.under path d.root, (d.keyText e.1).isSome
  /-- The names are those that are declared. -/
  names : ∀ name, name ∈ roster.names ↔ ∃ e ∈ d.under path d.root, d.keyText e.1 = some name
  /-- There are as many as there are entries if no key is repeated, and fewer otherwise. -/
  count : roster.size = (d.under path d.root).length ↔
    ((d.under path d.root).map fun e => d.keyText e.1).Nodup
  /-- Of the entries of one name the last one counts. -/
  last : ∀ name a, (name, a) ∈ roster.entries → ∃ before e after,
    d.under path d.root = before ++ e :: after ∧ d.keyText e.1 = some name ∧
      (∀ e' ∈ after, d.keyText e'.1 ≠ some name) ∧ made name e.2 a

/-- The names of the values that have been read are the texts of the keys. -/
theorem keyTexts_eq {α : Type} {d : Document} {value : Place → Read α}
    {es : List (Node Nat × Node Nat)} {entries : List (String × α)}
    (h : List.Forall₂ (EntryRead d value) es entries) :
    (es.map fun e => d.keyText e.1) = (entries.map Prod.fst).map some := by
  induction h with
  | nil => rfl
  | cons hea _ ih => rw [List.map_cons, List.map_cons, List.map_cons, hea.1, ih]

/-- **A roster of what has been read**, with one thing for every entry of the table. -/
theorem declares_of_forall₂ {α β : Type} {d : Document} {path : List String}
    {value : Place → Read α} {made : String → α → β → Prop} {entries : List (String × α)}
    {roster : Roster β}
    (hread : List.Forall₂ (EntryRead d value) (d.under path d.root) entries)
    (hmade : List.Forall₂ (fun e x => x.1 = e.1 ∧ made e.1 e.2 x.2)
      (Table.ofList entries).entries roster.entries) :
    Declares d path
      (fun name node b => ∃ (p : Place) (a : α), p.node = node ∧ Yields d (value p) a ∧
        made name a b) roster := by
  have hkeys := keyTexts_eq hread
  have hnames : roster.names = (Table.ofList entries).keys :=
    -- Whatever was made of an entry kept its name.
    map_fst_eq_of_forall₂ (fun _ _ h => h.1) hmade
  have hmem : ∀ name, name ∈ roster.names ↔ name ∈ entries.map Prod.fst := fun name => by
    rw [hnames, Table.mem_keys_ofList]
  constructor
  · -- Each entry has been read with a name, and that is the text of its key.
    intro e he
    have hsome : d.keyText e.1 ∈ (entries.map Prod.fst).map some := by
      rw [← hkeys]
      exact List.mem_map_of_mem he
    obtain ⟨name, -, hname⟩ := List.mem_map.mp hsome
    rw [← hname]
    rfl
  · intro name
    rw [hmem]
    have hsome : name ∈ entries.map Prod.fst ↔ some name ∈ (entries.map Prod.fst).map some := by
      simp
    rw [hsome, ← hkeys, List.mem_map]
  · have hlength : (d.under path d.root).length = (entries.map Prod.fst).length := by
      rw [hread.length_eq, List.length_map]
    -- A roster has as many entries as names, and its names do not repeat.
    have hsize : roster.size = roster.names.length := (List.length_map ..).symm
    rw [hsize, hlength, hkeys, List.nodup_map_iff (Option.some_injective _)]
    exact length_eq_iff_nodup roster.nodup hmem
  · intro name b hb
    -- It has been made of an entry of the table, and that is the last one of the name.
    obtain ⟨⟨name, a⟩, ha, rfl, hab⟩ := exists_of_forall₂_mem hmade hb
    obtain ⟨before, after, rfl, hafter⟩ := Table.mem_ofList_iff.mp ha
    obtain ⟨es, e, es', hsplit, ⟨hkey, p, hnode, hvalue⟩, hbehind⟩ :=
      exists_of_forall₂_append_cons hread
    -- Had a later entry the same name, then it would be among what was read later.
    refine ⟨es, e, es', hsplit, hkey, fun e' he' hname => ?_, p, a, hnode, hvalue, hab⟩
    have hmem' : some name ∈ (after.map Prod.fst).map some := by
      rw [← keyTexts_eq hbehind, ← hname]
      exact List.mem_map_of_mem he'
    obtain ⟨name', hname', heq⟩ := List.mem_map.mp hmem'
    obtain ⟨x, hx, rfl⟩ := List.mem_map.mp hname'
    exact hafter x hx (Option.some.inj heq)

/-! ### What is read -/

namespace Draft

variable {d : Document} {p : Place}

theorem ownField_nodes (d : Document) :
    OwnField d Workflow.fields "nodes" Workflow.nodes (Place.table readStep) where
  present := by simp [Workflow.fields, Reading.Field.optional]
  each := by
    simp only [Workflow.fields, List.forall_mem_cons]
    -- The fifth field sets the nodes, and all others keep them.
    refine ⟨.inr ?_, .inr ?_, .inr ?_, .inr ?_, .inl ?_, .inr ?_, .inr ?_, .inr ?_, .inr ?_,
      .inr ?_, fun _ h => absurd h List.not_mem_nil⟩
    case refine_5 => exact setsPart_optional fun _ _ => rfl
    all_goals exact keepsPart_optional (by decide) fun _ _ => rfl

theorem ownField_contract (d : Document) :
    OwnField d Workflow.fields "contract" Workflow.contract (Place.option Contract.read) where
  present := by simp [Workflow.fields, Reading.Field.optional]
  each := by
    simp only [Workflow.fields, List.forall_mem_cons]
    -- The ninth field sets the contract, and all others keep it.
    refine ⟨.inr ?_, .inr ?_, .inr ?_, .inr ?_, .inr ?_, .inr ?_, .inr ?_, .inr ?_, .inl ?_,
      .inr ?_, fun _ h => absurd h List.not_mem_nil⟩
    case refine_9 => exact setsPart_optional fun _ _ => rfl
    all_goals exact keepsPart_optional (by decide) fun _ _ => rfl

theorem ownField_dependencies (d : Document) :
    OwnField d Contract.fields "dependencies" Contract.dependencies
      (Place.option (Place.table Dependency.read)) where
  present := by simp [Contract.fields, Reading.Field.optional]
  each := by
    simp only [Contract.fields, List.forall_mem_cons]
    refine ⟨.inr (keepsPart_optional (by decide) fun _ _ => rfl),
      .inl (setsPart_optional fun _ _ => rfl), .inr ⟨by decide, fun q change hchange c => ?_⟩,
      fun _ h => absurd h List.not_mem_nil⟩
    -- The policy section goes by two names, and neither is the one of the dependencies.
    obtain ⟨v, -, rfl⟩ := Reading.of_yields_map hchange
    rfl

/-- **The nodes of a draft** are read from all entries of their mapping. -/
theorem nodes_of_yields {draft : Workflow} (h : Yields d (Workflow.read p) draft) :
    ∃ steps, draft.nodes = .ofList steps ∧
      List.Forall₂ (EntryRead d readStep) (d.under ["nodes"] p.node) steps := by
  -- A draft has no nodes to begin with, and the field reads what stands under its name.
  have hpart := (ownField_nodes d).of_yields_record h
  cases hfound : d.valueOf? "nodes" (d.entries p.node) with
  | none =>
    rw [hfound] at hpart
    rw [Document.under_cons_of_none hfound]
    exact ⟨[], hpart, .nil⟩
  | some node =>
    rw [hfound] at hpart
    obtain ⟨q, rfl, hq⟩ := hpart
    rw [Document.under_cons_of_some hfound]
    exact of_yields_table hq

/-- The dependencies of a contract are read from all entries of their mapping. -/
theorem dependencies_of_yields_contract (hd : d.Settled) {c : Contract}
    (h : Yields d (Contract.read p) c) :
    ∃ deps, c.dependencies.getD .empty = .ofList deps ∧
      List.Forall₂ (EntryRead d Dependency.read) (d.under ["dependencies"] p.node) deps := by
  obtain ⟨⟨c', extensions⟩, hopen, h⟩ := Reading.of_yields_bind h
  obtain rfl := Reading.eq_of_yields_pure h
  have hpart := (ownField_dependencies d).of_yields_openRecord hopen
  cases hfound : d.valueOf? "dependencies" (d.entries p.node) with
  | none =>
    rw [hfound] at hpart
    -- Nothing stands under the name, so there are neither entries nor dependencies.
    have hnone : c'.dependencies = none := hpart
    rw [Document.under_cons_of_none hfound]
    exact ⟨[], by rw [hnone]; rfl, .nil⟩
  | some node =>
    rw [hfound] at hpart
    obtain ⟨q, rfl, hq⟩ := hpart
    rw [Document.under_cons_of_some hfound]
    rcases of_yields_option hq with ⟨hnone, hentries⟩ | ⟨t, hsome, ht⟩
    · have hnone : c'.dependencies = none := hnone
      -- Nothing was given for the value, and where that stands there are no entries.
      rw [Document.under_eq_nil hentries]
      exact ⟨[], by rw [hnone]; rfl, .nil⟩
    · have hsome : c'.dependencies = some t := hsome
      obtain ⟨deps, rfl, hdeps⟩ := of_yields_table ht
      refine ⟨deps, by rw [hsome]; rfl, ?_⟩
      -- The value may be an alias, and then the entries are those of what it stands for.
      rw [← hd.under_resolve]
      exact hdeps

/-- **The dependencies of a draft** are read from all entries of their mapping. -/
theorem dependencies_of_yields (hd : d.Settled) {draft : Workflow}
    (h : Yields d (Workflow.read p) draft) :
    ∃ deps, ((draft.contract.bind Contract.dependencies).getD .empty) = .ofList deps ∧
      List.Forall₂ (EntryRead d Dependency.read) (d.under ["contract", "dependencies"] p.node)
        deps := by
  have hpart := (ownField_contract d).of_yields_record h
  cases hfound : d.valueOf? "contract" (d.entries p.node) with
  | none =>
    rw [hfound] at hpart
    have hnone : draft.contract = none := hpart
    rw [Document.under_cons_of_none hfound]
    exact ⟨[], by rw [hnone]; rfl, .nil⟩
  | some node =>
    rw [hfound] at hpart
    obtain ⟨q, rfl, hq⟩ := hpart
    rw [Document.under_cons_of_some hfound]
    rcases of_yields_option hq with ⟨hnone, hentries⟩ | ⟨c, hsome, hc⟩
    · rw [Document.under_eq_nil hentries]
      exact ⟨[], by rw [hnone]; rfl, .nil⟩
    · obtain ⟨deps, hdeps, hread⟩ := dependencies_of_yields_contract hd hc
      rw [hd.under_resolve] at hread
      exact ⟨deps, by rw [hsome]; exact hdeps, hread⟩

/-! ### What is built -/

namespace Check

theorem isSome_built_cidr {text : String} {missing malformed : Finding}
    (h : findings (cidr text missing malformed) = []) :
    (built (cidr text missing malformed)).isSome := by
  unfold cidr at h ⊢
  -- A text is either missing, or read as a block, or malformed, and only the second finds nothing.
  by_cases hempty : text = ""
  · simp [hempty] at h
  · cases hparse : Net.Cidr.parse? text <;> simp [hempty, hparse] at h ⊢

/-- A target in which nothing is found is built. -/
theorem isSome_built_dynamicTarget {name : String} {dep : Dependency}
    (h : findings (dynamicTarget name dep) = []) : (built (dynamicTarget name dep)).isSome := by
  simp only [dynamicTarget, findings_bind, List.append_eq_nil_iff] at h
  simp only [dynamicTarget, built_bind, built_pure, Option.isSome_map]
  exact isSome_built_cidr h.1

theorem isSome_built_fixedTarget (name : String) (dep : Dependency) :
    (built (fixedTarget name dep)).isSome := by
  unfold fixedTarget
  cases Protocol.ofName? dep.protocol <;> simp

theorem isSome_built_dependencyWithProtocol {name : String} {dep : Dependency}
    (h : findings (dependencyWithProtocol name dep) = []) :
    (built (dependencyWithProtocol name dep)).isSome := by
  by_cases hkind : dep.kind = dynamicKind
  · have htarget : findings (dynamicTarget name dep) = [] := by
      simp [dependencyWithProtocol, hkind, Option.forM_eq_forM] at h
      exact h.1
    simpa [dependencyWithProtocol, hkind, Option.forM_eq_forM] using
      isSome_built_dynamicTarget htarget
  · simpa [dependencyWithProtocol, hkind, Option.forM_eq_forM] using
      isSome_built_fixedTarget name dep

/-- **A dependency in which nothing is found is built.** -/
theorem isSome_built_dependency {name : String} {dep : Dependency}
    (h : findings (dependency name dep) = []) : (built (dependency name dep)).isSome := by
  -- A dependency without a protocol has a finding, so there is one.
  by_cases hprotocol : dep.protocol = ""
  · simp [dependency, hprotocol] at h
  · rw [dependency, findings_clean] at h
    have hwith : findings (dependencyWithProtocol name dep) = [] := by
      simp [hprotocol] at h
      exact h.2
    rw [dependency, built_clean, if_pos h]
    simpa [hprotocol] using isSome_built_dependencyWithProtocol hwith

/-- **No dependency is left out** where nothing is found: there is one for every entry. -/
theorem built_dependencies {entries : List (String × Dependency)}
    {start : Roster WorkflowPolicy.Dependency}
    (h : findings (dependencies entries start) = []) :
    ∃ deps : List (String × WorkflowPolicy.Dependency),
      List.Forall₂ (fun e x => x.1 = e.1 ∧ built (dependency e.1 e.2) = some x.2) entries deps ∧
      built (dependencies entries start) = deps.foldl (fun r e => r.put e.1 e.2) start := by
  induction entries generalizing start with
  | nil => exact ⟨[], .nil, rfl⟩
  | cons e entries ih =>
    rw [dependencies_cons, findings_bind, List.append_eq_nil_iff] at h
    -- Nothing is found in the first entry, so it is built and put into the roster.
    obtain ⟨x, hx⟩ := Option.isSome_iff_exists.mp (isSome_built_dependency h.1)
    rw [hx] at h
    obtain ⟨deps, hdeps, hbuilt⟩ := ih h.2
    refine ⟨(e.1, x) :: deps, .cons ⟨rfl, hx⟩ hdeps, ?_⟩
    rw [dependencies_cons, built_bind, hx, hbuilt]
    rfl

/-- The dependencies of a contract in which nothing is found. -/
theorem dependencies_of_built_contract {c : Contract} (h : findings (contract c) = []) :
    ∃ accepted, built (contract c) = some accepted ∧
      accepted.dependencies = built (dependencies (c.dependencies.getD .empty).entries .empty) ∧
      findings (dependencies (c.dependencies.getD .empty).entries .empty) = [] := by
  rw [contract, findings_clean] at h
  -- The findings of a contract are those of its parts, and none of them has any.
  have hparts := h
  simp only [findings_bind, List.append_eq_nil_iff] at hparts
  rw [contract, built_clean, if_pos h]
  simp only [built_bind, built_pure]
  exact ⟨_, rfl, rfl, hparts.2.1⟩

theorem nodes_built_workflow (draft : Workflow) :
    (built (workflow draft)).nodes = .ofList draft.nodes.entries := by
  unfold workflow
  cases draft.contract <;> simp

/-- The dependencies of a workflow in which nothing is found: one for every entry of the draft. -/
theorem dependencies_built_workflow {draft : Workflow} (h : findings (workflow draft) = []) :
    List.Forall₂ (fun e x => x.1 = e.1 ∧ built (dependency e.1 e.2) = some x.2)
      ((draft.contract.bind Contract.dependencies).getD .empty).entries
      (built (workflow draft)).dependencies.entries := by
  have hcontract := contract_built_workflow draft
  rw [WorkflowPolicy.Workflow.dependencies, hcontract]
  -- Without a contract there is nothing on either side.
  cases hdraft : draft.contract with
  | none => exact .nil
  | some c =>
    have hfindings : findings (contract c) = [] := by
      rw [findings_workflow, hdraft] at h
      simp only [List.append_eq_nil_iff, Option.toList_some, List.flatMap_singleton] at h
      exact h.2.2.2.2
    obtain ⟨accepted, hbuilt, hdeps, hnone⟩ := dependencies_of_built_contract hfindings
    obtain ⟨deps, hall, hroster⟩ := built_dependencies hnone
    simp only [Option.bind_some, hbuilt]
    -- No name is repeated in a table, so the roster has all of them in their order.
    have hnodup : (deps.map Prod.fst).Nodup := by
      rw [map_fst_eq_of_forall₂ (fun _ _ h => h.1) hall]
      exact (c.dependencies.getD .empty).nodup_keys
    have hentries : accepted.dependencies.entries = deps := by
      rw [hdeps, hroster]
      exact Roster.entries_ofList hnodup
    change List.Forall₂ _ _ accepted.dependencies.entries
    rw [hentries]
    exact hall

end Check

end Draft

/-- What is read from a text is yielded by its document. -/
theorem exists_yields_of_fromYaml {α : Type} {read : Place → Read α} {text : String} {a : α}
    (h : Reading.fromYaml read text = .ok a) :
    ∃ d, Document.parse? text = some d ∧ Yields d (read { node := d.root }) a := by
  unfold Reading.fromYaml at h
  split at h
  · cases h
  · next d hd =>
    split at h
    · next b n hrun =>
      obtain rfl := Except.ok.inj h
      exact ⟨d, hd, 0, n, hrun⟩
    · cases h

/-- **What becomes of the declared entries** when a workflow is read: of the nodes, and of the
dependencies of the contract. Every key is a text, every name that is declared is there, the last
entry of a name is the one that counts, and there are as many nodes, or dependencies, as there are
entries exactly if no key is repeated. -/
theorem last_entry_counts {text : String} {w : Workflow} (h : Workflow.parse text = .ok w) :
    ∃ d, Document.parse? text = some d ∧
      Declares d ["nodes"]
        (fun _ node step => ∃ (p : Place) (s : Step), p.node = node ∧
          Yields d (Draft.readStep p) s ∧ s = step) w.nodes ∧
      Declares d ["contract", "dependencies"]
        (fun name node dependency => ∃ (p : Place) (draft : Draft.Dependency), p.node = node ∧
          Yields d (Draft.Dependency.read p) draft ∧
          Draft.Check.built (Draft.Check.dependency name draft) = some dependency)
        w.dependencies := by
  -- A workflow is parsed by reading a draft and finding nothing in it.
  obtain ⟨draft, hread, hfindings, rfl⟩ := exists_draft_of_parse h
  obtain ⟨d, hd, hyields⟩ := exists_yields_of_fromYaml hread
  refine ⟨d, hd, ?_, ?_⟩
  · obtain ⟨steps, hsteps, hall⟩ := Draft.nodes_of_yields hyields
    refine declares_of_forall₂ hall ?_
    -- A node is taken over as it is read, under the name of its entry.
    have hentries : (Draft.Check.built (Draft.Check.workflow draft)).nodes.entries =
        draft.nodes.entries := by
      rw [Draft.Check.nodes_built_workflow]
      exact Roster.entries_ofList draft.nodes.nodup_keys
    rw [hentries, ← hsteps]
    exact List.forall₂_same.mpr fun _ _ => ⟨rfl, rfl⟩
  · obtain ⟨deps, hdeps, hall⟩ :=
      Draft.dependencies_of_yields (Document.settled_of_parse? hd) hyields
    refine declares_of_forall₂ hall ?_
    rw [← hdeps]
    exact Draft.Check.dependencies_built_workflow hfindings

/-- A workflow with two nodes of one name, and two dependencies of one name. -/
def repeatedText : String :=
  "name: release\nversion: '1.0'\ntriggers:\n- type: manual\n" ++
    "nodes:\n  fetch:\n    path: fetch.ts\n" ++
    "  fetch:\n    path: other.ts\ncontract:\n  version: '1'\n  dependencies:\n" ++
    "    api:\n      protocol: https\n      host: a.example.com\n" ++
    "    api:\n      protocol: https\n      host: b.example.com\n"

/-- **Entries that are lost.** The text is read without a complaint, and of two nodes and two
dependencies one each is left, the second one. -/
theorem repeatedText_loses_entries : ∃ w d, Workflow.parse repeatedText = .ok w ∧
    Document.parse? repeatedText = some d ∧
    (d.under ["nodes"] d.root).length = 2 ∧
    w.nodes.entries.map (fun e => (e.1, e.2.path)) = [("fetch", "other.ts")] ∧
    (d.under ["contract", "dependencies"] d.root).length = 2 ∧
    w.dependencies.entries.map (fun e => (e.1, e.2.target)) =
      [("api", .fixed .https "b.example.com" none)] ∧
    ¬ ((d.under ["nodes"] d.root).map fun e => d.keyText e.1).Nodup ∧
    ¬ ((d.under ["contract", "dependencies"] d.root).map fun e => d.keyText e.1).Nodup := by
  obtain ⟨w, hw, hnodes, hdeps, hentries⟩ : ∃ w, Workflow.parse repeatedText = .ok w ∧
      w.nodes.entries.map (fun e => (e.1, e.2.path)) = [("fetch", "other.ts")] ∧
      w.dependencies.entries.map (fun e => (e.1, e.2.target)) =
        [("api", .fixed .https "b.example.com" none)] ∧
      (Document.parse? repeatedText).all (fun d => decide
        ((d.under ["nodes"] d.root).length = 2 ∧
          (d.under ["contract", "dependencies"] d.root).length = 2)) = true :=
    Workflow.exists_parse (by decide +kernel)
  obtain ⟨d, hd, hdeclaredNodes, hdeclaredDeps⟩ := last_entry_counts hw
  rw [hd, Option.all_some, decide_eq_true_iff] at hentries
  obtain ⟨htwoNodes, htwoDeps⟩ := hentries
  have honeNode : w.nodes.size = 1 := by
    rw [Roster.size, ← List.length_map, hnodes]
    rfl
  have honeDep : w.dependencies.size = 1 := by
    rw [Roster.size, ← List.length_map, hdeps]
    rfl
  -- One is not two, so a key is repeated.
  refine ⟨w, d, hw, hd, htwoNodes, hnodes, htwoDeps, hdeps, fun h => ?_, fun h => ?_⟩
  · have hcount := hdeclaredNodes.count.mpr h
    rw [honeNode, htwoNodes] at hcount
    cases hcount
  · have hcount := hdeclaredDeps.count.mpr h
    rw [honeDep, htwoDeps] at hcount
    cases hcount

end WorkflowPolicy
