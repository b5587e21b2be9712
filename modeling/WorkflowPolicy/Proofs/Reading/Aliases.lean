import WorkflowPolicy.Proofs.Reading.Yaml

/-!
# What a reader takes from the document

A reader is given the place at which it reads, and looks at the document only where it meets an
alias: for the node that the alias stands for, and for the number of aliases that may be followed.
So it does the same in two documents that have this in common, whatever their roots are
(`rootFree`).

Two documents may then differ in the value of one entry of their roots. `run_record_congr` says that
a record is read alike from both if the field of that entry is.
-/

namespace WorkflowPolicy.Yaml

/-- **Aliases are the same in both documents**: they stand for the same nodes, and as many may be
followed. -/
structure Document.SameAliases (d d' : Document) : Prop where
  targets : d.targets = d'.targets
  size : d.size = d'.size

end WorkflowPolicy.Yaml

namespace WorkflowPolicy.Reading

open Yaml (Node Document Scalar)

variable {α β σ : Type}

/-- **The action does not look at the root**: it does the same in all documents with the same
aliases. -/
def RootFree (x : Read α) : Prop := ∀ d d' : Document, d.SameAliases d' → x.run d = x.run d'

/-! ### Actions -/

section Actions

variable {d d' : Document}

theorem run_bind_congr {x y : Read α} {f g : α → Read β} (h : x.run d = y.run d')
    (hnext : ∀ a, (f a).run d = (g a).run d') : (x >>= f).run d = (y >>= g).run d' := by
  rw [ReaderT.run_bind, ReaderT.run_bind, h]
  exact bind_congr hnext

theorem run_locate_congr {p q : Place} (hpath : p.path = q.path) {x y : Read α}
    (h : x.run d = y.run d') : (p.locate x).run d = (q.locate y).run d' := by
  have hrun : ∀ (p : Place) (x : Read α) (d : Document), (p.locate x).run d =
      tryCatch (x.run d) fun fault => throw (fault.located p.path) := fun _ _ _ => rfl
  rw [hrun, hrun, h, hpath]

end Actions

namespace Place

/-- **An alias is looked up in the document**, and in nothing but what documents with the same
aliases have in common. -/
theorem rootFree_follow (p : Place) : RootFree p.follow := by
  intro d d' same
  rw [follow]
  split
  · next n hnode =>
    have htarget : d.target? n = d'.target? n := by
      rw [Document.target?, Document.target?, same.targets]
    funext count
    -- Both sides are written out with the number of aliases met so far: the bound on it reads the
    -- size, and the step itself reads the target, and nothing else of the document is read.
    change ((if d.size * aliasFactor < count + 1 then refuse .tooManyAliases
        else pure { p with node := (d.target? n).getD p.node } : Read Place).run d).run
          (count + 1) =
      ((if d'.size * aliasFactor < count + 1 then refuse .tooManyAliases
        else pure { p with node := (d'.target? n).getD p.node } : Read Place).run d').run
          (count + 1)
    rw [same.size, htarget]
    split <;> rfl
  · rfl

end Place

/-- **No reader looks at the root.** -/
theorem rootFree : Compositional fun _ x => RootFree x where
  pure _ := fun _ _ _ => rfl
  refuse _ := fun _ _ _ => rfl
  bind hx hf := fun d d' same => run_bind_congr (hx d d' same) fun a => hf a d d' same
  locate hx _ := fun d d' same => run_locate_congr rfl (hx d d' same)
  follow := Place.rootFree_follow

namespace Place

/-! ### One entry replaced -/

section Replaced

variable {d d' : Document} {fields : List (Field Read Place σ)}

/-- **The value of one field is replaced** in the second document. If the field is read alike, so
are all of them, whether or not it has been there before. -/
theorem run_fieldsOf_congr (same : d.SameAliases d')
    (h : ∀ f ∈ fields, ∀ p, RootFree (f.read p)) {before after : List (Place × Place)}
    {key p q : Place} {name : String} {f : Field Read Place σ}
    (hkey : key.scalarText "field identifier" = pure name)
    (hfind : fields.find? (·.answers name) = some f) (hvalue : (f.read p).run d = (f.read q).run d')
    (seen : List String) (draft : σ) (others : List Unit) :
    (fieldsOf fields (fun _ _ => return ()) (before ++ (key, p) :: after) seen draft others).run d =
      (fieldsOf fields (fun _ _ => return ()) (before ++ (key, q) :: after) seen draft others).run
        d' := by
  have hother : ∀ (name : String) (p : Place), RootFree (pure () : Read Unit) :=
    fun _ _ => rootFree.pure ()
  -- The entries before the replaced one are read alike and leave some state, which is why the draft
  -- and the fields seen are general in the induction.
  induction before generalizing seen draft others with
  | nil =>
    simp only [List.nil_append, fieldsOf, hkey, pure_bind, hfind]
    -- A field met twice is refused with the same text on both sides, before its value is read.
    split
    · rfl
    · exact run_bind_congr hvalue fun change => rootFree.fieldsOf h hother after _ _ _ d d' same
  | cons e before ih =>
    simp only [List.cons_append, fieldsOf]
    refine run_bind_congr (rootFree.scalarText _ _ d d' same) fun name' => ?_
    split
    · next g hg =>
      split
      · rfl
      · exact run_bind_congr (h g (List.mem_of_find?_eq_some hg) _ d d' same) fun _ => ih _ _ _
    · -- The entry is of no field, so its value is skipped and never read.
      exact run_bind_congr rfl fun _ => ih _ _ _

/-- **A record in which the value of one entry is replaced** is read alike in documents with the
same aliases, if the field of that entry is. -/
theorem run_record_congr (same : d.SameAliases d') (h : ∀ f ∈ fields, ∀ p, RootFree (f.read p))
    {before after : List (Node Nat × Node Nat)} {anchor : Option Nat} {key : Scalar}
    {node node' : Node Nat} {f : Field Read Place σ}
    (hfind : fields.find? (·.answers key.text) = some f)
    (hvalue : ∀ path room, (f.read { node, path, room }).run d =
      (f.read { node := node', path, room }).run d')
    (rootAnchor : Option Nat) (tag : Option String) (path : Path) (room : Nat) (title : String)
    (draft : σ) :
    (record title fields draft
        ⟨.mapping rootAnchor tag (before ++ (.scalar anchor key, node) :: after), path, room⟩).run
          d =
      (record title fields draft
        ⟨.mapping rootAnchor tag (before ++ (.scalar anchor key, node') :: after), path, room⟩).run
          d' := by
  simp only [record, follow, pure_bind]
  refine run_locate_congr rfl ?_
  cases room with
  | zero => rfl
  | succ room =>
    simp only [entriesOf, enter, pure_bind, List.map_append, List.map_cons]
    -- The node is a mapping on both sides, so only the entries are left to compare. What is missing
    -- afterwards is reported from the draft alone.
    refine run_bind_congr (run_fieldsOf_congr same h ?_ hfind (hvalue _ _) [] draft [])
      fun r => rootFree.unless_missing fields r.1 r.2.1 d d' same
    exact scalarText_eq_pure rfl _

end Replaced

end Place

end WorkflowPolicy.Reading
