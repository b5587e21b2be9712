import WorkflowPolicy.Proofs.Reading.Yaml
import WorkflowPolicy.Proofs.Table

/-!
# The entries of a document

What stands in a document under some keys: `Document.under` follows a way of keys from a node, and
aliases wherever they stand, and has the entries of the mapping at its end, as they are written.

A reader `Yields` a value in a document if it ends in it from some count of followed aliases. For
every reader there is a lemma that says what has been there if it yields a value: a table has been
read from all entries of a mapping (`yields_table`), and a part of a record that is set by one field
only has been read from the one entry of that name, or it has its default (`yields_record`,
`yields_openRecord`).
-/

namespace WorkflowPolicy.Yaml

namespace Node

/-- The entries of a mapping; other nodes have none. -/
def entries : Node Nat → List (Node Nat × Node Nat)
  | .mapping _ _ es => es
  | _ => []

/-- The text of a scalar. -/
def text? : Node Nat → Option String
  | .scalar _ s => some s.text
  | _ => none

mutual

/-- A node with an anchor is no alias. -/
theorem ne_alias_of_mem_anchored : ∀ {node : Node Nat} {e : Nat × Node Nat},
    e ∈ node.anchored → ∀ n, e.2 ≠ .alias n
  -- The anchors are collected along the tree, so the cases are those of the tree: a node with an
  -- anchor stands for itself, and below it the lists are gone through.
  | .scalar none _, e, h => absurd h List.not_mem_nil
  | .scalar (some n) s, e, h => by
    rw [anchored, List.mem_singleton] at h
    rw [h]
    exact fun _ => nofun
  | .sequence none _ items, e, h => ne_alias_of_mem_anchoredItems h
  | .sequence (some n) tag items, e, h => by
    rw [anchored, List.mem_cons] at h
    rcases h with rfl | h
    · exact fun _ => nofun
    · exact ne_alias_of_mem_anchoredItems h
  | .mapping none _ entries, e, h => ne_alias_of_mem_anchoredEntries h
  | .mapping (some n) tag entries, e, h => by
    rw [anchored, List.mem_cons] at h
    rcases h with rfl | h
    · exact fun _ => nofun
    · exact ne_alias_of_mem_anchoredEntries h
  | .alias _, e, h => absurd h List.not_mem_nil

theorem ne_alias_of_mem_anchoredItems : ∀ {items : List (Node Nat)} {e : Nat × Node Nat},
    e ∈ anchoredItems items → ∀ n, e.2 ≠ .alias n
  | [], e, h => absurd h List.not_mem_nil
  | item :: rest, e, h => by
    rw [anchoredItems, List.mem_append] at h
    rcases h with h | h
    · exact ne_alias_of_mem_anchored h
    · exact ne_alias_of_mem_anchoredItems h

theorem ne_alias_of_mem_anchoredEntries : ∀ {entries : List (Node Nat × Node Nat)}
    {e : Nat × Node Nat}, e ∈ anchoredEntries entries → ∀ n, e.2 ≠ .alias n
  | [], e, h => absurd h List.not_mem_nil
  | (key, value) :: rest, e, h => by
    rw [anchoredEntries, List.mem_append, List.mem_append] at h
    rcases h with (h | h) | h
    · exact ne_alias_of_mem_anchored h
    · exact ne_alias_of_mem_anchored h
    · exact ne_alias_of_mem_anchoredEntries h

end

end Node

namespace Document

variable {d : Document}

/-- The node itself or, for an alias, the node that it stands for. -/
def resolve (d : Document) (node : Node Nat) : Node Nat :=
  match node with
  | .alias n => (d.target? n).getD node
  | _ => node

/-- The entries of a mapping, which may be given by an alias. -/
def entries (d : Document) (node : Node Nat) : List (Node Nat × Node Nat) :=
  (d.resolve node).entries

/-- The text of a key, which may be given by an alias. -/
def keyText (d : Document) (key : Node Nat) : Option String := (d.resolve key).text?

/-- The value of the first entry of that name. -/
def valueOf? (d : Document) (name : String) (es : List (Node Nat × Node Nat)) :
    Option (Node Nat) :=
  (es.find? fun e => d.keyText e.1 == some name).map Prod.snd

/-- **The entries under a way of keys** from a node, as they are written. -/
def under (d : Document) : List String → Node Nat → List (Node Nat × Node Nat)
  | [], node => d.entries node
  | name :: path, node =>
    match d.valueOf? name (d.entries node) with
    | some value => d.under path value
    | none => []

/-- No alias of the document stands for another alias. -/
def Settled (d : Document) : Prop := ∀ n node, d.target? n = some node → ∀ k, node ≠ .alias k

theorem settled_of_parse? {text : String} (h : parse? text = some d) : d.Settled := by
  intro n node htarget
  -- A document that was parsed has been made of its root, and its anchors are those of the nodes in
  -- it.
  obtain ⟨root, rfl⟩ : ∃ root, d = ofRoot root := by
    simp only [parse?, Option.bind_eq_bind, Option.bind_eq_some_iff] at h
    obtain ⟨tokens, -, first, -, h⟩ := h
    split at h
    · obtain ⟨linked, -, h⟩ := Option.bind_eq_some_iff.mp h
      exact ⟨linked.1, (Option.some.inj h).symm⟩
    · cases h
  -- What a name stands for is the last node with that anchor, but it is some node with it.
  obtain ⟨before, after, hanchored, -⟩ := List.lookup_eq_some_iff.mp htarget
  have hmem : (n, node) ∈ root.anchored.reverse := by
    rw [show root.anchored.reverse = before ++ (n, node) :: after from hanchored]
    exact List.mem_append_right _ List.mem_cons_self
  exact Node.ne_alias_of_mem_anchored (List.mem_reverse.mp hmem)

/-- Following an alias once is enough. -/
theorem Settled.resolve_resolve (h : d.Settled) (node : Node Nat) :
    d.resolve (d.resolve node) = d.resolve node := by
  -- Only an alias is replaced, so resolving what is none does nothing.
  have hidle : ∀ other : Node Nat, (∀ k, other ≠ .alias k) → d.resolve other = other := by
    intro other hne
    unfold resolve
    split
    · next k => exact absurd rfl (hne k)
    · rfl
  match node with
  | .alias n =>
    cases htarget : d.target? n with
    | none => simp only [resolve, htarget, Option.getD_none]
    | some target =>
      -- The node that an alias stands for is no alias, since the document is settled.
      have hresolve : d.resolve (.alias n) = target := by
        simp only [resolve, htarget, Option.getD_some]
      rw [hresolve, hidle target (h n target htarget)]
  | .scalar .. | .sequence .. | .mapping .. => rfl

theorem valueOf?_cons_of_eq {name : String} {e : Node Nat × Node Nat}
    {es : List (Node Nat × Node Nat)} (h : d.keyText e.1 = some name) :
    d.valueOf? name (e :: es) = some e.2 := by
  simp [valueOf?, h]

theorem valueOf?_cons_of_ne {name : String} {e : Node Nat × Node Nat}
    {es : List (Node Nat × Node Nat)} (h : d.keyText e.1 ≠ some name) :
    d.valueOf? name (e :: es) = d.valueOf? name es := by
  simp [valueOf?, h]

theorem under_cons_of_some {name : String} {path : List String} {node value : Node Nat}
    (h : d.valueOf? name (d.entries node) = some value) :
    d.under (name :: path) node = d.under path value := by
  simp only [under, h]

theorem under_cons_of_none {name : String} {path : List String} {node : Node Nat}
    (h : d.valueOf? name (d.entries node) = none) : d.under (name :: path) node = [] := by
  simp only [under, h]

/-- What stands under an alias stands under the node that it stands for. -/
theorem Settled.under_resolve (h : d.Settled) (path : List String) (node : Node Nat) :
    d.under path (d.resolve node) = d.under path node := by
  -- Both the end of the way and its first step look at the entries only.
  have hentries : d.entries (d.resolve node) = d.entries node := by
    rw [entries, entries, h.resolve_resolve]
  cases path with
  | nil => exact hentries
  | cons name path => rw [under, under, hentries]

/-- Nothing stands under a node without entries. -/
theorem under_eq_nil {path : List String} {node : Node Nat} (h : d.entries node = []) :
    d.under path node = [] := by
  cases path with
  | nil => exact h
  | cons name path => exact under_cons_of_none (by rw [h]; rfl)

end Document

end WorkflowPolicy.Yaml

namespace WorkflowPolicy.Reading

open Yaml (Node Document)

variable {α β σ : Type} {d : Document}

/-! ### What a reader ends in -/

/-- **The reader ends in the value** in the document, from some count of followed aliases. -/
def Yields (d : Document) (x : Read α) (a : α) : Prop := ∃ n n', (x.run d).run n = .ok (a, n')

theorem of_yields_bind {x : Read α} {f : α → Read β} {b : β} (h : Yields d (x >>= f) b) :
    ∃ a, Yields d x a ∧ Yields d (f a) b := by
  -- The second reader goes on from the count with which the first one has ended.
  obtain ⟨n, n', hrun⟩ := h
  obtain ⟨a, k, hfirst, hsecond⟩ := Place.run_bind_eq_ok_iff.mp hrun
  exact ⟨a, ⟨n, k, hfirst⟩, ⟨k, n', hsecond⟩⟩

theorem eq_of_yields_pure {a b : α} (h : Yields d (pure a) b) : b = a := by
  obtain ⟨n, n', hrun⟩ := h
  exact (Prod.mk.inj (Except.ok.inj hrun)).1.symm

theorem of_yields_map {x : Read α} {f : α → β} {b : β} (h : Yields d (f <$> x) b) :
    ∃ a, Yields d x a ∧ b = f a := by
  rw [map_eq_pure_bind] at h
  obtain ⟨a, hx, hpure⟩ := of_yields_bind h
  exact ⟨a, hx, eq_of_yields_pure hpure⟩

theorem not_yields_refuse {cause : Cause} {a : α} : ¬ Yields d (refuse cause) a := by
  rintro ⟨n, n', hrun⟩
  cases hrun

theorem of_yields_mapM {f : α → Read β} {xs : List α} {ys : List β}
    (h : Yields d (xs.mapM f) ys) : List.Forall₂ (fun x y => Yields d (f x) y) xs ys := by
  induction xs generalizing ys with
  | nil =>
    rw [List.mapM_nil] at h
    rw [eq_of_yields_pure h]
    exact .nil
  | cons x xs ih =>
    rw [List.mapM_cons] at h
    obtain ⟨y, hy, h⟩ := of_yields_bind h
    obtain ⟨rest, hrest, h⟩ := of_yields_bind h
    rw [eq_of_yields_pure h]
    exact .cons hy (ih hrest)

namespace Place

theorem of_yields_locate {p : Place} {x : Read α} {a : α} (h : Yields d (p.locate x) a) :
    Yields d x a := by
  obtain ⟨n, n', hrun⟩ := h
  exact ⟨n, n', run_locate_eq_ok_iff.mp hrun⟩

theorem eq_of_yields_follow {p q : Place} (h : Yields d p.follow q) :
    q = { p with node := d.resolve p.node } := by
  unfold follow at h
  -- Here `p` stands at an alias. The count is read and set, and only what is found matters.
  split at h
  · next n hnode =>
    obtain ⟨document, hread, h⟩ := of_yields_bind h
    obtain ⟨count, -, h⟩ := of_yields_bind h
    obtain ⟨-, -, h⟩ := of_yields_bind h
    -- What is read is the document itself.
    obtain ⟨k, k', hrun⟩ := hread
    obtain rfl : document = d := (Prod.mk.inj (Except.ok.inj hrun)).1.symm
    split at h
    · exact absurd h not_yields_refuse
    · rw [eq_of_yields_pure h, hnode]
      rfl
  · next hnot =>
    rw [eq_of_yields_pure h]
    have hresolve : d.resolve p.node = p.node := by
      unfold Document.resolve
      -- Any other node is resolved to itself.
      split
      · next n hnode => exact absurd hnode (hnot n)
      · rfl
    rw [hresolve]

theorem not_yields_unexpected {node : Node Nat} {wanted : String} {a : α} :
    ¬ Yields d (unexpected node wanted) a := by
  intro h
  unfold unexpected at h
  split at h
  · obtain ⟨m, -, h⟩ := of_yields_bind h
    exact not_yields_refuse h
  · exact not_yields_refuse h
  · exact not_yields_refuse h

/-- The nodes of a pair of places. -/
def nodes (e : Place × Place) : Node Nat × Node Nat := (e.1.node, e.2.node)

/-- The places of the entries are those of all entries. -/
theorem nodes_of_yields_entriesOf {p : Place} {wanted : String} {es : List (Place × Place)}
    (h : Yields d (p.entriesOf wanted) es) : es.map nodes = p.node.entries := by
  unfold entriesOf at h
  split at h
  · next hnode =>
    -- The places are made of the entries, one for each, and they keep the nodes.
    obtain ⟨q, -, h⟩ := of_yields_bind h
    rw [eq_of_yields_pure h, hnode, List.map_map]
    exact List.map_id'' (fun _ => rfl) _
  · next hnode =>
    split at h
    · rw [eq_of_yields_pure h, hnode]
      rfl
    · exact absurd h not_yields_unexpected
  · exact absurd h not_yields_unexpected

theorem keyText_of_yields_scalarText {p : Place} {wanted s : String}
    (h : Yields d (p.scalarText wanted) s) : d.keyText p.node = some s := by
  obtain ⟨q, hfollow, h⟩ := of_yields_bind h
  obtain rfl := eq_of_yields_follow hfollow
  have h := of_yields_locate h
  rw [Document.keyText]
  split at h
  · next hnode =>
    rw [eq_of_yields_pure h, show d.resolve p.node = _ from hnode]
    rfl
  · exact absurd h not_yields_unexpected

/-! ### Tables and values that may be absent -/

/-- **An entry has been read** as a value with a name. -/
def EntryRead (d : Document) (value : Place → Read α) (e : Node Nat × Node Nat)
    (a : String × α) : Prop :=
  d.keyText e.1 = some a.1 ∧ ∃ p : Place, p.node = e.2 ∧ Yields d (value p) a.2

/-- **A table has been read from all entries**, one by one. -/
theorem of_yields_table {value : Place → Read α} {p : Place} {t : Table α}
    (h : Yields d (p.table value) t) : ∃ entries, t = .ofList entries ∧
      List.Forall₂ (EntryRead d value) (d.entries p.node) entries := by
  obtain ⟨q, hfollow, h⟩ := of_yields_bind h
  obtain rfl := eq_of_yields_follow hfollow
  -- The keys and values are read one after the other, so the entries match them one by one.
  obtain ⟨places, hplaces, h⟩ := of_yields_bind (of_yields_locate h)
  obtain ⟨entries, hentries, h⟩ := of_yields_bind h
  refine ⟨entries, eq_of_yields_pure h, ?_⟩
  have hnodes : places.map nodes = d.entries p.node := nodes_of_yields_entriesOf hplaces
  rw [← hnodes, List.forall₂_map_left_iff]
  refine (of_yields_mapM hentries).imp fun e a hea => ?_
  obtain ⟨name, hname, hea⟩ := of_yields_bind hea
  obtain ⟨v, hv, hea⟩ := of_yields_bind hea
  rw [eq_of_yields_pure hea]
  exact ⟨keyText_of_yields_scalarText hname, e.2, rfl, hv⟩

/-- A value that may be absent is absent only where a scalar stands. -/
theorem of_yields_option {value : Place → Read α} {p : Place} {o : Option α}
    (h : Yields d (p.option value) o) : o = none ∧ d.entries p.node = [] ∨
      ∃ a, o = some a ∧ Yields d (value { p with node := d.resolve p.node }) a := by
  obtain ⟨q, hfollow, h⟩ := of_yields_bind h
  obtain rfl := eq_of_yields_follow hfollow
  -- Wherever a value is asked for, it is read from the node that was found.
  have hsome : ∀ {q : Place}, Yields d (some <$> value q) o → ∃ a, o = some a ∧
      Yields d (value q) a := by
    intro q hmap
    obtain ⟨a, ha, rfl⟩ := of_yields_map hmap
    exact ⟨a, rfl, ha⟩
  split at h
  · next anchor s hnode =>
    -- A scalar has no entries, so nothing is lost where it means nothing.
    have hnone : d.entries p.node = [] := by
      rw [Document.entries, show d.resolve p.node = _ from hnode]
      rfl
    split at h
    · exact .inr (hsome h)
    · split at h
      · split at h
        · split at h
          · exact .inl ⟨eq_of_yields_pure h, hnone⟩
          · exact absurd h not_yields_refuse
        · exact .inr (hsome h)
      · split at h
        · exact .inl ⟨eq_of_yields_pure h, hnone⟩
        · exact .inr (hsome h)
  · exact .inr (hsome h)

/-! ### Records -/

/-- The field sets the part to its value, and goes by the one name only. -/
def SetsPart (d : Document) (name : String) (part : σ → β) (value : Place → Read β)
    (f : Field Read Place σ) : Prop :=
  f.name = name ∧ f.aliases = [] ∧
    ∀ p change, Yields d (f.read p) change → ∃ b, Yields d (value p) b ∧ ∀ s, part (change s) = b

/-- The field changes nothing in the part, and does not go by the name. -/
def KeepsPart (d : Document) (name : String) (part : σ → β) (f : Field Read Place σ) : Prop :=
  f.answers name = false ∧
    ∀ p change, Yields d (f.read p) change → ∀ s, part (change s) = part s

/-- **A part of a record with one field of its own**, which all other fields leave as it is. -/
structure OwnField (d : Document) (fields : List (Field Read Place σ)) (name : String)
    (part : σ → β) (value : Place → Read β) : Prop where
  present : ∃ f ∈ fields, f.name = name
  each : ∀ f ∈ fields, SetsPart d name part value f ∨ KeepsPart d name part f

theorem setsPart_optional {name : String} {part : σ → β} {value : Place → Read β}
    {set : β → σ → σ} (h : ∀ b s, part (set b s) = b) :
    SetsPart d name part value (.optional name value set) := by
  refine ⟨rfl, rfl, fun p change hchange => ?_⟩
  obtain ⟨b, hb, rfl⟩ := of_yields_map hchange
  exact ⟨b, hb, h b⟩

theorem keepsPart_optional {name field : String} {part : σ → β} {value : Place → Read α}
    {set : α → σ → σ} (hne : field ≠ name) (h : ∀ a s, part (set a s) = part s) :
    KeepsPart d name part (.optional field value set) := by
  refine ⟨by simp [Field.answers, Field.optional, hne], fun p change hchange s => ?_⟩
  obtain ⟨a, -, rfl⟩ := of_yields_map hchange
  exact h a s

/-- What a part of a record is, from the node that has been found for it. -/
def PartRead (d : Document) (value : Place → Read β) (found : Option (Node Nat)) (b init : β) :
    Prop :=
  match found with
  | some node => ∃ p : Place, p.node = node ∧ Yields d (value p) b
  | none => b = init

section OwnField

variable {fields : List (Field Read Place σ)} {name : String} {part : σ → β}
  {value : Place → Read β} {other : String → Place → Read α}

/-- The field that sets the part is found under its name only. -/
theorem OwnField.eq_of_setsPart {f : Field Read Place σ} {k : String}
    (hsets : SetsPart d name part value f) (hfind : fields.find? (·.answers k) = some f) :
    k = name := by
  obtain ⟨rfl, haliases, -⟩ := hsets
  -- It has no other names, so it was found under the one that it has.
  have hanswers := List.find?_some hfind
  have hname : f.name = k := by simpa [Field.answers, haliases] using hanswers
  exact hname.symm

theorem OwnField.ne_of_keepsPart {f : Field Read Place σ} {k : String}
    (hkeeps : KeepsPart d name part f) (hfind : fields.find? (·.answers k) = some f) :
    k ≠ name := by
  rintro rfl
  have hanswers := List.find?_some hfind
  rw [hkeeps.1] at hanswers
  cases hanswers

/-- A name that is no field's is not that of the part. -/
theorem OwnField.ne_of_find?_eq_none (h : OwnField d fields name part value) {k : String}
    (hfind : fields.find? (·.answers k) = none) : k ≠ name := by
  rintro rfl
  obtain ⟨f, hf, hname⟩ := h.present
  have hanswers := List.find?_eq_none.mp hfind f hf
  simp [Field.answers, hname] at hanswers

/-- A part whose field has been seen is not set again. -/
theorem OwnField.part_of_seen (h : OwnField d fields name part value)
    {es : List (Place × Place)} {seen seen' : List String} {draft draft' : σ}
    {others others' : List α} (hseen : name ∈ seen)
    (hyields : Yields d (fieldsOf fields other es seen draft others) (seen', draft', others')) :
    part draft' = part draft := by
  -- The part changes with its own field only. That one has been seen, and would be refused.
  induction es generalizing seen draft others with
  | nil =>
    have hend := eq_of_yields_pure hyields
    rw [(Prod.mk.inj (Prod.mk.inj hend).2).1]
  | cons e es ih =>
    -- The first entry is of some name, and either it is no field, or a field that keeps the part.
    obtain ⟨k, -, hyields⟩ := of_yields_bind hyields
    cases hfind : fields.find? (·.answers k) with
    | none =>
      rw [hfind] at hyields
      obtain ⟨more, -, hyields⟩ := of_yields_bind hyields
      exact ih hseen hyields
    | some f =>
      simp only [hfind] at hyields
      split at hyields
      · exact absurd hyields not_yields_refuse
      · next hnew =>
        obtain ⟨change, hchange, hyields⟩ := of_yields_bind hyields
        rw [ih (List.mem_cons_of_mem _ hseen) hyields]
        rcases h.each f (List.mem_of_find?_eq_some hfind) with hsets | hkeeps
        · -- The field that sets the part has been seen.
          rw [hsets.1] at hnew
          exact absurd (List.contains_iff_mem.mpr hseen) hnew
        · exact hkeeps.2 _ _ hchange draft

/-- **A part of a record is read from the first entry of its name**; there is no second one. -/
theorem OwnField.partRead (h : OwnField d fields name part value)
    {es : List (Place × Place)} {seen seen' : List String} {draft draft' : σ}
    {others others' : List α}
    (hyields : Yields d (fieldsOf fields other es seen draft others) (seen', draft', others')) :
    PartRead d value (d.valueOf? name (es.map nodes)) (part draft') (part draft) := by
  -- The induction is on the entries that are left. Up to the entry of the name, the part is what it
  -- was.
  induction es generalizing seen draft others with
  | nil =>
    have hend := eq_of_yields_pure hyields
    exact congrArg part (Prod.mk.inj (Prod.mk.inj hend).2).1
  | cons e es ih =>
    obtain ⟨k, hkey, hyields⟩ := of_yields_bind hyields
    have hkey : d.keyText e.1.node = some k := keyText_of_yields_scalarText hkey
    cases hfind : fields.find? (·.answers k) with
    | none =>
      simp only [hfind] at hyields
      obtain ⟨more, -, hyields⟩ := of_yields_bind hyields
      -- An entry that is no field has another name, and is passed over in the search as well.
      have hne : d.keyText e.1.node ≠ some name := fun heq =>
        h.ne_of_find?_eq_none hfind (Option.some.inj (hkey.symm.trans heq))
      rw [List.map_cons, Document.valueOf?_cons_of_ne (e := nodes e) hne]
      exact ih hyields
    | some f =>
      simp only [hfind] at hyields
      split at hyields
      · exact absurd hyields not_yields_refuse
      · obtain ⟨change, hchange, hyields⟩ := of_yields_bind hyields
        rcases h.each f (List.mem_of_find?_eq_some hfind) with hsets | hkeeps
        · -- This is the entry, and the rest does not change the part.
          have heq : d.keyText e.1.node = some name := by
            rw [hkey, OwnField.eq_of_setsPart hsets hfind]
          obtain ⟨hname, -, hset⟩ := hsets
          obtain ⟨b, hb, hset⟩ := hset _ _ hchange
          have hpart := h.part_of_seen (hname ▸ List.mem_cons_self) hyields
          rw [List.map_cons, Document.valueOf?_cons_of_eq (e := nodes e) heq, hpart, hset]
          exact ⟨e.2, rfl, hb⟩
        · -- A field that keeps the part does not go by its name, so the search passes over this
          -- entry, too.
          have hne : d.keyText e.1.node ≠ some name := fun heq =>
            OwnField.ne_of_keepsPart hkeeps hfind (Option.some.inj (hkey.symm.trans heq))
          rw [List.map_cons, Document.valueOf?_cons_of_ne (e := nodes e) hne,
            ← hkeeps.2 _ _ hchange draft]
          exact ih hyields

/-- **A part of a record is read from every entry of its name**, so there is one at most. -/
theorem OwnField.yields_of_mem (h : OwnField d fields name part value)
    {es : List (Place × Place)} {seen seen' : List String} {draft draft' : σ}
    {others others' : List α}
    (hyields : Yields d (fieldsOf fields other es seen draft others) (seen', draft', others'))
    {e : Place × Place} (hmem : e ∈ es) (hkey : d.keyText e.1.node = some name) :
    Yields d (value e.2) (part draft') := by
  induction es generalizing seen draft others with
  | nil => exact absurd hmem List.not_mem_nil
  | cons first es ih =>
    obtain ⟨k, hk, hyields⟩ := of_yields_bind hyields
    rcases List.mem_cons.mp hmem with rfl | hlater
    · -- The entry is the first one, and its field is found by the name of the part.
      obtain rfl : k = name :=
        Option.some.inj ((keyText_of_yields_scalarText hk).symm.trans hkey)
      cases hfind : fields.find? (·.answers k) with
      | none => exact absurd rfl (h.ne_of_find?_eq_none hfind)
      | some f =>
        simp only [hfind] at hyields
        split at hyields
        · exact absurd hyields not_yields_refuse
        · obtain ⟨change, hchange, hyields⟩ := of_yields_bind hyields
          rcases h.each f (List.mem_of_find?_eq_some hfind) with hsets | hkeeps
          · obtain ⟨hname, -, hset⟩ := hsets
            obtain ⟨b, hb, hset⟩ := hset _ _ hchange
            -- The field sets the part, and from then on it counts as seen.
            rwa [h.part_of_seen (hname ▸ List.mem_cons_self) hyields, hset]
          · exact absurd rfl (OwnField.ne_of_keepsPart hkeeps hfind)
    · -- Whatever becomes of the first entry, the others are read after it.
      cases hfind : fields.find? (·.answers k) with
      | none =>
        simp only [hfind] at hyields
        obtain ⟨more, -, hyields⟩ := of_yields_bind hyields
        exact ih hyields hlater
      | some f =>
        simp only [hfind] at hyields
        split at hyields
        · exact absurd hyields not_yields_refuse
        · obtain ⟨change, -, hyields⟩ := of_yields_bind hyields
          exact ih hyields hlater

/-- A record is what its fields end in, read from all entries. -/
theorem fieldsOf_of_yields_record {title : String} {p : Place} {draft s : σ}
    (h : Yields d (p.record title fields draft) s) : ∃ places seen others,
      places.map nodes = d.entries p.node ∧
        Yields d (fieldsOf fields (fun _ _ => return ()) places [] draft []) (seen, s, others) := by
  obtain ⟨q, hfollow, h⟩ := of_yields_bind h
  obtain rfl := eq_of_yields_follow hfollow
  obtain ⟨places, hplaces, h⟩ := of_yields_bind (of_yields_locate h)
  obtain ⟨⟨seen, last, others⟩, hfields, h⟩ := of_yields_bind h
  -- What is missing is refused, so where a record is read nothing is missing.
  dsimp only at h
  split at h
  · exact absurd h not_yields_refuse
  · obtain rfl := eq_of_yields_pure h
    exact ⟨places, seen, others, nodes_of_yields_entriesOf hplaces, hfields⟩

theorem OwnField.of_yields_record (h : OwnField d fields name part value) {title : String}
    {p : Place} {draft s : σ} (hyields : Yields d (p.record title fields draft) s) :
    PartRead d value (d.valueOf? name (d.entries p.node)) (part s) (part draft) := by
  obtain ⟨places, seen, others, hnodes, hfields⟩ := fieldsOf_of_yields_record hyields
  rw [← hnodes]
  exact h.partRead hfields

theorem OwnField.of_mem_of_yields_record (h : OwnField d fields name part value) {title : String}
    {p : Place} {draft s : σ} (hyields : Yields d (p.record title fields draft) s)
    {e : Node Nat × Node Nat} (hmem : e ∈ d.entries p.node) (hkey : d.keyText e.1 = some name) :
    ∃ q : Place, q.node = e.2 ∧ Yields d (value q) (part s) := by
  obtain ⟨places, seen, others, hnodes, hfields⟩ := fieldsOf_of_yields_record hyields
  rw [← hnodes] at hmem
  obtain ⟨place, hplace, rfl⟩ := List.mem_map.mp hmem
  exact ⟨place.2, rfl, h.yields_of_mem hfields hplace hkey⟩

theorem OwnField.of_yields_openRecord (h : OwnField d fields name part value) {title : String}
    {p : Place} {draft : σ} {r : σ × Table Json}
    (hyields : Yields d (p.openRecord title fields draft) r) :
    PartRead d value (d.valueOf? name (d.entries p.node)) (part r.1) (part draft) := by
  obtain ⟨q, hfollow, hyields⟩ := of_yields_bind hyields
  obtain rfl := eq_of_yields_follow hfollow
  obtain ⟨places, hplaces, hyields⟩ := of_yields_bind (of_yields_locate hyields)
  obtain ⟨⟨seen, last, others⟩, hfields, hyields⟩ := of_yields_bind hyields
  have hnodes : places.map nodes = d.entries p.node := nodes_of_yields_entriesOf hplaces
  rw [← hnodes]
  obtain ⟨extensions, -, hyields⟩ := of_yields_bind hyields
  rw [eq_of_yields_pure hyields]
  exact h.partRead hfields

end OwnField

end Place

end WorkflowPolicy.Reading
