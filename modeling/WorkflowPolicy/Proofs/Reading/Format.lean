import Mathlib
import WorkflowPolicy.Proofs.Table
import WorkflowPolicy.Reading.Yaml

/-!
# Readers and formats

A reader over a `Source` is put together from the readers of the parts, and what is true of it in
one format is true in every other for the same reason. `Format` names what a format has to say of
its documents — which places are objects and arrays, when a place shows a value that has been
written — and of reading: what it means that a value comes out (`Gives`). `Format.Laws` are the
facts about a source that the rest of this module uses.

**The order of keys and unknown keys.** `Format.Reordered`, `Format.Itemwise` and `Format.Extended`
relate a place to one that differs from it in what should not matter: the order of the members, and
members that a record does not know. They follow the type that is read, so a relation for a type is
written down like its reader. `Format.Keeps` says that a reader gives the same for related places,
and there is one lemma for each kind of reader; that for records (`Laws.keeps_record`) is where the
changes of different fields have to commute.

**What has been written.** `Format.Written` describes the members with which a record is written,
field by field, some of them left out. `Laws.gives_record_of_written` says that the record is read
back from them.
-/

namespace WorkflowPolicy.Reading

namespace Field

variable {m : Type → Type} [Functor m] {ν σ α : Type} (name : String) (rd : ν → m α)
  (set : α → σ → σ)

@[simp] theorem name_optional : (optional name rd set).name = name := rfl

@[simp] theorem aliases_optional : (optional name rd set).aliases = [] := rfl

@[simp] theorem name_needed : (needed name rd set).name = name := rfl

@[simp] theorem aliases_needed : (needed name rd set).aliases = [] := rfl

end Field

/-- **A format of documents.** The places `ν` are those at which values are read by actions in
`m`. -/
structure Format (m : Type → Type) (ν : Type) where
  /-- The place is an object with these members. -/
  IsObject : ν → List (String × ν) → Prop
  /-- The place is an array of these items. -/
  IsArray : ν → List ν → Prop
  /-- The place shows a value that has been written, and from there this many levels of collections
  may be opened. -/
  Shows : Nat → Json → ν → Prop
  /-- The action gives a value, whatever has been done before. -/
  Gives : {α : Type} → m α → α → Prop
  /-- The action does not make up for what has been done before. -/
  Steady : {α : Type} → m α → Prop

namespace Format

variable {m : Type → Type} {ν : Type} (F : Format m ν)

/-! ### Differences that should not matter -/

/-- **Two tables with the same members**, in any order. -/
inductive Reordered : ν → ν → Prop where
  | same (v : ν) : Reordered v v
  | members {v v' : ν} {ms ms' : List (String × ν)} (left : F.IsObject v ms)
      (right : F.IsObject v' ms') (distinct : (ms.map Prod.fst).Nodup) (perm : ms.Perm ms') :
      Reordered v v'

/-- **Two lists with related items**, one by one. -/
inductive Itemwise (R : ν → ν → Prop) : ν → ν → Prop where
  | same (v : ν) : Itemwise R v v
  | items {v v' : ν} {vs vs' : List ν} (left : F.IsArray v vs) (right : F.IsArray v' vs')
      (related : List.Forall₂ R vs vs') : Itemwise R v v'

/-- The names that a record knows, each with the relation for its values. -/
abbrev Schema (ν : Type) := List (String × (ν → ν → Prop))

/-- Members of one name, with related values if the name is known. -/
def Changed (schema : Schema ν) (a b : String × ν) : Prop :=
  a.1 = b.1 ∧ ∀ R, (a.1, R) ∈ schema → R a.2 b.2

/-- **Two records with related values**, of which the second may have more members that are not
known, and all in any order. -/
inductive Extended (schema : Schema ν) : ν → ν → Prop where
  | same (v : ν) : Extended schema v v
  | members {v v' : ν} {ms kept more ms' : List (String × ν)} (left : F.IsObject v ms)
      (right : F.IsObject v' ms') (changed : List.Forall₂ (Changed schema) ms kept)
      (unknown : ∀ e ∈ more, e.1 ∉ schema.map Prod.fst) (perm : (kept ++ more).Perm ms') :
      Extended schema v v'

variable {F} in
/-- Members that are not known may be added, and all of them put in another order. -/
theorem Extended.of_perm {schema : Schema ν} (hrefl : ∀ e ∈ schema, ∀ v, e.2 v v) {v v' : ν}
    {ms more ms' : List (String × ν)} (left : F.IsObject v ms) (right : F.IsObject v' ms')
    (unknown : ∀ e ∈ more, e.1 ∉ schema.map Prod.fst) (perm : (ms ++ more).Perm ms') :
    F.Extended schema v v' := by
  have hsame : List.Forall₂ (Changed schema) ms ms :=
    List.forall₂_same.mpr fun e _ => ⟨rfl, fun R hR => hrefl (e.1, R) hR e.2⟩
  exact .members left right hsame unknown perm

/-! ### The members of a record -/

variable {σ : Type}

/-- **What reading the members of a record amounts to**: the changes that the values of its fields
make, with the names of the fields. Members that are no fields are passed over. -/
inductive Gathers (fields : List (Field m ν σ)) :
    List (String × ν) → List (String × (σ → σ)) → Prop where
  | nil : Gathers fields [] []
  | field {name : String} {v : ν} {rest : List (String × ν)} {f : Field m ν σ} {change : σ → σ}
      {changes : List (String × (σ → σ))} (found : fields.find? (·.answers name) = some f)
      (gives : F.Gives (f.read v) change) (tail : Gathers fields rest changes) :
      Gathers fields ((name, v) :: rest) ((f.name, change) :: changes)
  | other {name : String} {v : ν} {rest : List (String × ν)} {changes : List (String × (σ → σ))}
      (unknown : fields.find? (·.answers name) = none) (tail : Gathers fields rest changes) :
      Gathers fields ((name, v) :: rest) changes

/-- The draft after the changes, one by one. -/
def applied (changes : List (String × (σ → σ))) (draft : σ) : σ :=
  changes.foldl (fun s c => c.2 s) draft

/-- No field is changed twice, and none is missing. -/
structure Complete (fields : List (Field m ν σ)) (changes : List (String × (σ → σ))) : Prop where
  once : (changes.map Prod.fst).Nodup
  present : ∀ f ∈ fields, f.required = true → f.name ∈ changes.map Prod.fst

theorem missing_eq_none_iff {fields : List (Field m ν σ)}
    {seen : List String} : Place.missing fields seen = none ↔
      ∀ f ∈ fields, f.required = true → f.name ∈ seen := by
  simp [Place.missing]

/-- **The members make the draft into the record `a`.** -/
def Amounts (fields : List (Field m ν σ)) (draft : σ) (ms : List (String × ν)) (a : σ) : Prop :=
  ∃ changes, F.Gathers fields ms changes ∧ Complete fields changes ∧ a = applied changes draft

/-! ### The laws -/

/-- **What is true of actions**: of those that do nothing and of those that are done one after the
other. -/
structure Actions [Monad m] : Prop where
  steady_pure {α : Type} (a : α) : F.Steady (pure a : m α)
  steady_bind {α β : Type} {x : m α} {f : α → m β} (hx : F.Steady x) (hf : ∀ a, F.Steady (f a)) :
    F.Steady (x >>= f)
  gives_pure_iff {α : Type} {a b : α} : F.Gives (pure a : m α) b ↔ b = a
  exists_of_gives_map {α β : Type} {g : α → β} {x : m α} {b : β} (h : F.Gives (g <$> x) b) :
    ∃ a, b = g a
  gives_bind {α β : Type} {x : m α} {f : α → m β} {a : α} {b : β} (hx : F.Gives x a)
    (hf : F.Gives (f a) b) : F.Gives (x >>= f) b
  of_gives_bind {α β : Type} {x : m α} {f : α → m β} {b : β} (hx : F.Steady x)
    (hf : ∀ a, F.Steady (f a)) (h : F.Gives (x >>= f) b) : ∃ a, F.Gives x a ∧ F.Gives (f a) b

/-- **What is true of a source in its format.** -/
structure Laws [Monad m] (src : Source m ν) : Prop extends F.Actions where
  steady_text (v : ν) : F.Steady (src.text v)
  steady_port (v : ν) : F.Steady (src.port v)
  steady_name (names : List String) (v : ν) : F.Steady (src.name names v)
  steady_option {α : Type} {rd : ν → m α} (h : ∀ v, F.Steady (rd v)) (v : ν) :
    F.Steady (src.option rd v)
  steady_items {α : Type} {rd : ν → m α} (h : ∀ v, F.Steady (rd v)) (v : ν) :
    F.Steady (src.items rd v)
  steady_table {α : Type} {rd : ν → m α} (h : ∀ v, F.Steady (rd v)) (v : ν) :
    F.Steady (src.table rd v)
  steady_record {σ : Type} {title : String} {fields : List (Field m ν σ)} {draft : σ}
    (h : ∀ f ∈ fields, ∀ v, F.Steady (f.read v)) (v : ν) :
    F.Steady (src.record title fields draft v)
  /-- An object is something. -/
  option_object {α : Type} {rd : ν → m α} {v : ν} {ms : List (String × ν)}
    (h : F.IsObject v ms) : src.option rd v = some <$> rd v
  gives_items_iff {α : Type} {rd : ν → m α} {v : ν} {vs : List ν} {as : List α}
    (h : F.IsArray v vs) : F.Gives (src.items rd v) as ↔ F.Gives (vs.mapM rd) as
  gives_table_iff {α : Type} {rd : ν → m α} {v : ν} {ms : List (String × ν)} {t : Table α}
    (h : F.IsObject v ms) : F.Gives (src.table rd v) t ↔
      F.Gives (Table.ofList <$> ms.mapM fun e => Prod.mk e.1 <$> rd e.2) t
  gives_record {σ : Type} {title : String} {fields : List (Field m ν σ)} {draft a : σ} {v : ν}
    {ms : List (String × ν)} (h : F.IsObject v ms) (amounts : F.Amounts fields draft ms a) :
    F.Gives (src.record title fields draft v) a
  of_gives_record {σ : Type} {title : String} {fields : List (Field m ν σ)} {draft a : σ} {v : ν}
    {ms : List (String × ν)} (h : F.IsObject v ms)
    (steady : ∀ f ∈ fields, ∀ v, F.Steady (f.read v))
    (gives : F.Gives (src.record title fields draft v) a) : F.Amounts fields draft ms a
  isObject_of_shows {k : Nat} {members : List (String × Json)} {v : ν}
    (h : F.Shows (k + 1) (.object members) v) : ∃ ms, F.IsObject v ms ∧
      List.Forall₂ (fun a b => a.1 = b.1 ∧ F.Shows k a.2 b.2) members ms
  isArray_of_shows {k : Nat} {items : List Json} {v : ν} (h : F.Shows (k + 1) (.array items) v) :
    ∃ vs, F.IsArray v vs ∧ List.Forall₂ (F.Shows k) items vs
  gives_text {k : Nat} {s : String} {v : ν} (h : F.Shows k (.string s) v) : F.Gives (src.text v) s
  gives_name {k : Nat} {s : String} {v : ν} {names : List String} (h : F.Shows k (.string s) v)
    (known : s ∈ names) : F.Gives (src.name names v) s
  gives_port {k : Nat} {p : Net.Port} {v : ν} (h : F.Shows k (.int p.toNat) v) :
    F.Gives (src.port v) p
  /-- A number is something. -/
  option_port {α : Type} {rd : ν → m α} {k : Nat} {p : Net.Port} {v : ν}
    (h : F.Shows k (.int p.toNat) v) : src.option rd v = some <$> rd v

/-! ### Fields -/

theorem answers_eq {f : Field m ν σ} (h : f.aliases = []) (name : String) :
    f.answers name = (f.name == name) := by
  rw [Field.answers, h, List.contains_nil, Bool.or_false]

theorem name_of_find? {fields : List (Field m ν σ)} (haliases : ∀ f ∈ fields, f.aliases = [])
    {name : String} {f : Field m ν σ} (h : fields.find? (·.answers name) = some f) :
    f ∈ fields ∧ f.name = name := by
  have hmem : f ∈ fields := List.mem_of_find?_eq_some h
  have hanswers := List.find?_some h
  simp only [answers_eq (haliases f hmem), beq_iff_eq] at hanswers
  exact ⟨hmem, hanswers⟩

/-- Where all names differ, a field is found by its name. -/
theorem find?_name {fields : List (Field m ν σ)} (haliases : ∀ f ∈ fields, f.aliases = [])
    (hnames : (fields.map Field.name).Nodup) {f : Field m ν σ} (hf : f ∈ fields) :
    fields.find? (·.answers f.name) = some f := by
  -- On the fields, in the order in which they are searched.
  induction fields with
  | nil => cases hf
  | cons g fields ih =>
    rw [List.map_cons, List.nodup_cons] at hnames
    have hanswers : g.answers f.name = (g.name == f.name) :=
      answers_eq (haliases g List.mem_cons_self) f.name
    rcases List.mem_cons.mp hf with rfl | hmem
    · rw [List.find?_cons_of_pos (by simp [hanswers])]
    · -- The field at the head has another name.
      have hne : g.name ≠ f.name := fun heq => hnames.1 (heq ▸ List.mem_map_of_mem hmem)
      rw [List.find?_cons_of_neg (by simp [hanswers, hne])]
      exact ih (fun f' hf' => haliases f' (List.mem_cons_of_mem _ hf')) hnames.2 hmem

/-! ### Gathering -/

variable {F}

namespace Gathers

variable {fields : List (Field m ν σ)} {ms ms' : List (String × ν)}
  {changes changes' : List (String × (σ → σ))}

theorem exists_field (h : F.Gathers fields ms changes) {c : String × (σ → σ)} (hc : c ∈ changes) :
    ∃ f ∈ fields, f.name = c.1 ∧ ∃ v, F.Gives (f.read v) c.2 := by
  induction h with
  | nil => cases hc
  | field found gives _ ih =>
    rcases List.mem_cons.mp hc with rfl | hmem
    · exact ⟨_, List.mem_of_find?_eq_some found, rfl, _, gives⟩
    · exact ih hmem
  | other _ _ ih => exact ih hc

/-- **Members in another order make the same changes**, in another order. -/
theorem perm (h : F.Gathers fields ms changes) (hperm : ms.Perm ms') :
    ∃ changes', F.Gathers fields ms' changes' ∧ changes.Perm changes' := by
  -- A permutation is made of swaps of neighbours, and only that case looks at two members at once.
  induction hperm generalizing changes with
  | nil => exact ⟨changes, h, .refl _⟩
  | cons e _ ih =>
    cases h with
    | field found gives tail =>
      obtain ⟨changes', htail, hchanges⟩ := ih tail
      exact ⟨_, .field found gives htail, hchanges.cons _⟩
    | other unknown tail =>
      obtain ⟨changes', htail, hchanges⟩ := ih tail
      exact ⟨_, .other unknown htail, hchanges⟩
  | swap e e' rest =>
    -- Each of the two members is a field or none.
    cases h with
    | field found gives tail =>
      cases tail with
      | field found' gives' tail' =>
        exact ⟨_, .field found' gives' (.field found gives tail'), .swap _ _ _⟩
      | other unknown' tail' => exact ⟨_, .other unknown' (.field found gives tail'), .refl _⟩
    | other unknown tail =>
      cases tail with
      | field found' gives' tail' => exact ⟨_, .field found' gives' (.other unknown tail'), .refl _⟩
      | other unknown' tail' => exact ⟨_, .other unknown' (.other unknown tail'), .refl _⟩
  | trans _ _ ih ih' =>
    obtain ⟨_, hmiddle, hfirst⟩ := ih h
    obtain ⟨_, hlast, hsecond⟩ := ih' hmiddle
    exact ⟨_, hlast, hfirst.trans hsecond⟩

/-- **Members that are no fields make no changes.** -/
theorem append_iff {more : List (String × ν)}
    (hmore : ∀ e ∈ more, fields.find? (·.answers e.1) = none) :
    F.Gathers fields (ms ++ more) changes ↔ F.Gathers fields ms changes := by
  -- On the members in front of those that are no fields.
  induction ms generalizing changes with
  | nil =>
    rw [List.nil_append]
    induction more with
    | nil => rfl
    | cons e more ih =>
      have hunknown := hmore e List.mem_cons_self
      have hrest := ih fun e' he' => hmore e' (List.mem_cons_of_mem _ he')
      constructor
      · rintro (_ | ⟨found, -, -⟩ | ⟨-, tail⟩)
        · rw [hunknown] at found
          cases found
        · exact hrest.mp tail
      · exact fun h => .other hunknown (hrest.mpr h)
  | cons e ms ih =>
    -- Whether the member in front is a field does not depend on those behind it.
    constructor
    · rintro (_ | ⟨found, gives, tail⟩ | ⟨unknown, tail⟩)
      · exact .field found gives (ih.mp tail)
      · exact .other unknown (ih.mp tail)
    · rintro (_ | ⟨found, gives, tail⟩ | ⟨unknown, tail⟩)
      · exact .field found gives (ih.mpr tail)
      · exact .other unknown (ih.mpr tail)

/-- **Values that are read alike make the same changes.** -/
theorem congr_values (h : List.Forall₂ (fun a b : String × ν => a.1 = b.1 ∧
      ∀ f, fields.find? (·.answers a.1) = some f → ∀ c, F.Gives (f.read a.2) c ↔
        F.Gives (f.read b.2) c) ms ms') :
    F.Gathers fields ms changes ↔ F.Gathers fields ms' changes := by
  induction h generalizing changes with
  | nil => rfl
  | @cons a b _ _ hab _ ih =>
    obtain ⟨name, v⟩ := a
    obtain ⟨name', v'⟩ := b
    obtain ⟨rfl, hread⟩ : name = name' ∧ _ := hab
    constructor
    · rintro (_ | ⟨found, gives, tail⟩ | ⟨unknown, tail⟩)
      · exact .field found ((hread _ found _).mp gives) (ih.mp tail)
      · exact .other unknown (ih.mp tail)
    · rintro (_ | ⟨found, gives, tail⟩ | ⟨unknown, tail⟩)
      · exact .field found ((hread _ found _).mpr gives) (ih.mpr tail)
      · exact .other unknown (ih.mpr tail)

end Gathers

theorem Complete.perm {fields : List (Field m ν σ)} {changes changes' : List (String × (σ → σ))}
    (h : Complete fields changes) (hperm : changes.Perm changes') : Complete fields changes' where
  once := (hperm.map Prod.fst).nodup_iff.mp h.once
  present := fun f hf hrequired => (hperm.map Prod.fst).mem_iff.mp (h.present f hf hrequired)

/-! ### Readers that do not mind the differences -/

variable (F)

/-- **The reader gives the same for related places.** -/
structure Keeps {α : Type} (R : ν → ν → Prop) (rd : ν → m α) : Prop where
  steady : ∀ v, F.Steady (rd v)
  gives_iff : ∀ {v v' : ν}, R v v' → ∀ a, F.Gives (rd v) a ↔ F.Gives (rd v') a

/-- A field under its name in a schema, with the relation that its reader keeps. -/
structure KeepsField (f : Field m ν σ) (entry : String × (ν → ν → Prop)) : Prop where
  name : f.name = entry.1
  aliases : f.aliases = []
  keeps : F.Keeps entry.2 f.read

theorem Keeps.of_steady {α : Type} {rd : ν → m α} (hrd : ∀ v, F.Steady (rd v)) :
    F.Keeps Eq rd where
  steady := hrd
  gives_iff := by
    rintro v _ rfl a
    rfl

/-- **The changes that two fields make commute.** -/
def Commute (f g : Field m ν σ) : Prop :=
  ∀ v w c d, F.Gives (f.read v) c → F.Gives (g.read w) d → ∀ s, c (d s) = d (c s)

variable {F}

instance : Std.Symm (F.Commute (σ := σ)) where
  symm _ _ h v w c d hc hd s := (h w v d c hd hc s).symm

/-- **The order of changes does not matter** if those of different fields commute. -/
theorem Gathers.applied_eq_of_perm {fields : List (Field m ν σ)} {ms : List (String × ν)}
    {changes changes' : List (String × (σ → σ))} (h : F.Gathers fields ms changes)
    (hcommute : fields.Pairwise F.Commute) (honce : (changes.map Prod.fst).Nodup)
    (hperm : changes.Perm changes') (draft : σ) :
    applied changes draft = applied changes' draft := by
  -- Two neighbours may be swapped: they are the same change, or those of different fields.
  refine hperm.foldl_eq' (fun c hc d hd s => ?_) draft
  by_cases hcd : c = d
  · rw [hcd]
  · obtain ⟨f, hf, hfc, v, hv⟩ := h.exists_field hc
    obtain ⟨g, hg, hgd, w, hw⟩ := h.exists_field hd
    -- No name occurs twice, so the changes are those of different fields.
    have hnames : c.1 ≠ d.1 := fun heq => hcd (List.inj_on_of_nodup_map honce hc hd heq)
    have hfg : f ≠ g := fun heq => hnames (hfc.symm.trans ((congrArg Field.name heq).trans hgd))
    -- Each of the two changes was read somewhere, and from there they commute.
    exact (hcommute.forall hf hg hfg v w _ _ hv hw s).symm

/-- **The order of members does not matter.** -/
theorem Amounts.perm {fields : List (Field m ν σ)} {draft a : σ} {ms ms' : List (String × ν)}
    (h : F.Amounts fields draft ms a) (hcommute : fields.Pairwise F.Commute)
    (hms : ms.Perm ms') : F.Amounts fields draft ms' a := by
  obtain ⟨changes, hgathers, hcomplete, rfl⟩ := h
  obtain ⟨changes', hgathers', hsame⟩ := hgathers.perm hms
  exact ⟨changes', hgathers', hcomplete.perm hsame,
    hgathers.applied_eq_of_perm hcommute hcomplete.once hsame draft⟩

theorem KeepsField.exists_entry {fields : List (Field m ν σ)} {schema : Schema ν}
    (h : List.Forall₂ F.KeepsField fields schema) {f : Field m ν σ} (hf : f ∈ fields) :
    ∃ entry ∈ schema, F.KeepsField f entry := by
  induction h with
  | nil => cases hf
  | cons hkeeps _ ih =>
    rcases List.mem_cons.mp hf with rfl | hmem
    · exact ⟨_, List.mem_cons_self, hkeeps⟩
    · obtain ⟨entry, hentry, hkeeps⟩ := ih hmem
      exact ⟨entry, List.mem_cons_of_mem _ hentry, hkeeps⟩

/-! ### Actions one after the other -/

namespace Actions

variable [Monad m] [LawfulMonad m] (L : F.Actions) {α β : Type}

include L

theorem steady_map {x : m α} (hx : F.Steady x) (g : α → β) : F.Steady (g <$> x) := by
  rw [map_eq_pure_bind]
  exact L.steady_bind hx fun a => L.steady_pure (g a)

theorem gives_map {x : m α} {a : α} (hx : F.Gives x a) (g : α → β) : F.Gives (g <$> x) (g a) := by
  rw [map_eq_pure_bind]
  exact L.gives_bind hx (L.gives_pure_iff.mpr rfl)

theorem gives_map_iff {x : m α} (hx : F.Steady x) {g : α → β} {b : β} :
    F.Gives (g <$> x) b ↔ ∃ a, F.Gives x a ∧ b = g a := by
  constructor
  · intro h
    rw [map_eq_pure_bind] at h
    obtain ⟨a, ha, hb⟩ := L.of_gives_bind hx (fun a => L.steady_pure (g a)) h
    exact ⟨a, ha, L.gives_pure_iff.mp hb⟩
  · rintro ⟨a, ha, rfl⟩
    exact L.gives_map ha g

theorem steady_mapM {γ : Type} {rd : γ → m α} (hrd : ∀ v, F.Steady (rd v)) (vs : List γ) :
    F.Steady (vs.mapM rd) := by
  induction vs with
  | nil =>
    rw [List.mapM_nil]
    exact L.steady_pure []
  | cons v vs ih =>
    rw [List.mapM_cons]
    exact L.steady_bind (hrd v) fun a => L.steady_bind ih fun as => L.steady_pure (a :: as)

theorem gives_mapM {γ : Type} {rd : γ → m α} {vs : List γ} {as : List α}
    (h : List.Forall₂ (fun v a => F.Gives (rd v) a) vs as) : F.Gives (vs.mapM rd) as := by
  induction h with
  | nil =>
    rw [List.mapM_nil]
    exact L.gives_pure_iff.mpr rfl
  | cons ha _ ih =>
    rw [List.mapM_cons]
    exact L.gives_bind ha (L.gives_bind ih (L.gives_pure_iff.mpr rfl))

/-- **A list of actions gives the values one by one.** -/
theorem gives_mapM_iff {γ : Type} {rd : γ → m α} (hrd : ∀ v, F.Steady (rd v)) {vs : List γ}
    {as : List α} : F.Gives (vs.mapM rd) as ↔ List.Forall₂ (fun v a => F.Gives (rd v) a) vs as := by
  refine ⟨fun h => ?_, L.gives_mapM⟩
  -- One value after the other. The actions behind it are steady, so each gives a value of its own.
  induction vs generalizing as with
  | nil =>
    rw [List.mapM_nil, L.gives_pure_iff] at h
    exact List.forall₂_nil_left_iff.mpr h
  | cons v vs ih =>
    rw [List.mapM_cons] at h
    obtain ⟨a, ha, hrest⟩ := L.of_gives_bind (hrd v)
      (fun a => L.steady_bind (L.steady_mapM hrd vs) fun as => L.steady_pure (a :: as)) h
    obtain ⟨rest, hvs, hpure⟩ := L.of_gives_bind (L.steady_mapM hrd vs)
      (fun as => L.steady_pure (a :: as)) hrest
    obtain rfl := L.gives_pure_iff.mp hpure
    exact .cons ha (ih hvs)

end Actions

namespace Laws

variable [Monad m] [LawfulMonad m] {src : Source m ν} (L : F.Laws src) {α β : Type}

include L

/-- **What reading a table gives.** -/
theorem gives_table_iff_exists {rd : ν → m α} (hrd : ∀ v, F.Steady (rd v)) {v : ν}
    {ms : List (String × ν)} (hv : F.IsObject v ms) {t : Table α} :
    F.Gives (src.table rd v) t ↔ ∃ entries,
      List.Forall₂ (fun e a => a.1 = e.1 ∧ F.Gives (rd e.2) a.2) ms entries ∧
        t = .ofList entries := by
  have hentry : ∀ e : String × ν, F.Steady (Prod.mk e.1 <$> rd e.2) :=
    fun e => L.steady_map (hrd e.2) _
  have hgives : ∀ (e : String × ν) (a : String × α),
      F.Gives (Prod.mk e.1 <$> rd e.2) a ↔ a.1 = e.1 ∧ F.Gives (rd e.2) a.2 := by
    rintro e ⟨name, a⟩
    rw [L.gives_map_iff (hrd e.2)]
    constructor
    · rintro ⟨b, hb, heq⟩
      obtain ⟨rfl, rfl⟩ := Prod.mk.inj heq
      exact ⟨rfl, hb⟩
    · rintro ⟨rfl, ha⟩
      exact ⟨a, ha, rfl⟩
  rw [L.gives_table_iff hv, L.gives_map_iff (L.steady_mapM hentry ms)]
  simp only [L.gives_mapM_iff hentry, hgives]

/-! ### What readers keep -/

theorem keeps_map {R : ν → ν → Prop} {rd : ν → m α} (h : F.Keeps R rd) (g : α → β) :
    F.Keeps R fun v => g <$> rd v where
  steady := fun v => L.steady_map (h.steady v) g
  gives_iff := by
    intro v v' hv b
    rw [L.gives_map_iff (h.steady v), L.gives_map_iff (h.steady v')]
    simp only [h.gives_iff hv]

/-- **Lists** may differ in how their items do. -/
theorem keeps_items {R : ν → ν → Prop} {rd : ν → m α} (h : F.Keeps R rd) :
    F.Keeps (F.Itemwise R) (src.items rd) where
  steady := L.steady_items h.steady
  gives_iff := by
    intro v v' hv as
    cases hv with
    | same => rfl
    | items left right related =>
      -- Both arrays give what their items give, one by one.
      rw [L.gives_items_iff left, L.gives_items_iff right, L.gives_mapM_iff h.steady,
        L.gives_mapM_iff h.steady]
      clear left right
      induction related generalizing as with
      | nil => rfl
      | cons hv _ ih =>
        rw [List.forall₂_cons_left_iff, List.forall₂_cons_left_iff]
        simp only [h.gives_iff hv, ih]

/-- **Tables** may differ in the order of their members. -/
theorem keeps_table {rd : ν → m α} (hrd : ∀ v, F.Steady (rd v)) :
    F.Keeps F.Reordered (src.table rd) where
  steady := L.steady_table hrd
  gives_iff := by
    -- The entries follow the order of the members, and the table does not mind it.
    have hperm : ∀ {ms ms' : List (String × ν)} {t : Table α}, (ms.map Prod.fst).Nodup →
        ms.Perm ms' →
        (∃ entries, List.Forall₂ (fun e a => a.1 = e.1 ∧ F.Gives (rd e.2) a.2) ms entries ∧
          t = .ofList entries) →
        ∃ entries, List.Forall₂ (fun e a => a.1 = e.1 ∧ F.Gives (rd e.2) a.2) ms' entries ∧
          t = .ofList entries := by
      rintro ms ms' t hdistinct hms ⟨entries, hentries, rfl⟩
      obtain ⟨entries', hentries', hsame⟩ := List.perm_comp_forall₂ hms.symm hentries
      -- The keys are those of the members, so none occurs twice and the order is free.
      have hkeys : entries.map Prod.fst = ms.map Prod.fst := by
        clear hdistinct hms hentries' hsame
        induction hentries with
        | nil => rfl
        | cons hab _ ih => rw [List.map_cons, List.map_cons, hab.1, ih]
      exact ⟨entries', hentries', Table.ofList_eq_of_perm hsame.symm (hkeys ▸ hdistinct)⟩
    intro v v' hv t
    cases hv with
    | same => rfl
    | members left right distinct perm =>
      rw [L.gives_table_iff_exists hrd left, L.gives_table_iff_exists hrd right]
      exact ⟨hperm distinct perm, hperm ((perm.map Prod.fst).nodup_iff.mp distinct) perm.symm⟩

/-- **Records that may be absent** may differ in how records do. -/
theorem keeps_option {schema : Schema ν} {rd : ν → m α} (h : F.Keeps (F.Extended schema) rd) :
    F.Keeps (F.Extended schema) (src.option rd) where
  steady := L.steady_option h.steady
  gives_iff := by
    intro v v' hv a
    cases hv with
    | same => rfl
    | members left right changed unknown perm =>
      -- Both places are objects, so neither is read as absent.
      rw [L.option_object left, L.option_object right]
      exact (L.keeps_map h some).gives_iff (.members left right changed unknown perm) a

theorem keepsField_optional {R : ν → ν → Prop} {rd : ν → m α} (h : F.Keeps R rd) (name : String)
    (set : α → σ → σ) : F.KeepsField (.optional name rd set) (name, R) :=
  ⟨rfl, rfl, L.keeps_map h set⟩

theorem keepsField_needed {R : ν → ν → Prop} {rd : ν → m α} (h : F.Keeps R rd) (name : String)
    (set : α → σ → σ) : F.KeepsField (.needed name rd set) (name, R) :=
  ⟨rfl, rfl, L.keeps_map h set⟩

omit [LawfulMonad m] in
theorem commute {rd : ν → m α} {rd' : ν → m β} {set : α → σ → σ} {set' : β → σ → σ}
    {name name' : String} {aliases aliases' : List String} {required required' : Bool}
    (h : ∀ a b s, set a (set' b s) = set' b (set a s)) :
    F.Commute ⟨name, aliases, required, fun v => set <$> rd v⟩
      ⟨name', aliases', required', fun v => set' <$> rd' v⟩ := by
  intro v w c d hc hd s
  -- What a field reads is a value under its setter, so it is enough that the setters commute.
  obtain ⟨a, rfl⟩ := L.exists_of_gives_map hc
  obtain ⟨b, rfl⟩ := L.exists_of_gives_map hd
  exact h a b s

omit [LawfulMonad m] in
/-- **Records** may have more members that they do not know, in any order. -/
theorem keeps_record {title : String} {fields : List (Field m ν σ)} {draft : σ}
    {schema : Schema ν} (hfields : List.Forall₂ F.KeepsField fields schema)
    (hcommute : fields.Pairwise F.Commute) :
    F.Keeps (F.Extended schema) (src.record title fields draft) := by
  have hentry : ∀ f ∈ fields, ∃ entry ∈ schema, F.KeepsField f entry :=
    fun f hf => KeepsField.exists_entry hfields hf
  have haliases : ∀ f ∈ fields, f.aliases = [] := by
    intro f hf
    obtain ⟨_, -, hkeeps⟩ := hentry f hf
    exact hkeeps.aliases
  have hsteady : ∀ f ∈ fields, ∀ v, F.Steady (f.read v) := by
    intro f hf
    obtain ⟨_, -, hkeeps⟩ := hentry f hf
    exact hkeeps.keeps.steady
  refine ⟨L.steady_record hsteady, ?_⟩
  intro v v' hv a
  cases hv with
  | same => rfl
  | @members _ ms kept more ms' left right changed unknown perm =>
    -- A known name has one relation, and this is the one that its reader keeps.
    have hvalues : ∀ changes, F.Gathers fields ms changes ↔ F.Gathers fields kept changes := by
      intro changes
      refine Gathers.congr_values (changed.imp fun x y hxy => ⟨hxy.1, ?_⟩)
      intro f hf c
      obtain ⟨hmem, hname⟩ := name_of_find? haliases hf
      obtain ⟨⟨_, R⟩, hR, hkeeps⟩ := hentry f hmem
      refine hkeeps.keeps.gives_iff (hxy.2 R ?_) c
      rw [← hname, hkeeps.name]
      exact hR
    -- The fields have the names of the schema, so what is unknown to it is no field.
    have hmore : ∀ e ∈ more, fields.find? (·.answers e.1) = none := by
      intro e he
      rw [List.find?_eq_none]
      intro f hf hanswers
      rw [answers_eq (haliases f hf), beq_iff_eq] at hanswers
      obtain ⟨entry, hentry, hkeeps⟩ := hentry f hf
      refine unknown e he ?_
      rw [← hanswers, hkeeps.name]
      exact List.mem_map_of_mem hentry
    -- So both lists of members make the same changes.
    have hall : F.Amounts fields draft ms a ↔ F.Amounts fields draft (kept ++ more) a := by
      refine exists_congr fun changes => and_congr_left fun _ => ?_
      exact (hvalues changes).trans (Gathers.append_iff hmore).symm
    calc F.Gives (src.record title fields draft v) a
        ↔ F.Amounts fields draft ms a := ⟨L.of_gives_record left hsteady, L.gives_record left⟩
      _ ↔ F.Amounts fields draft (kept ++ more) a := hall
      _ ↔ F.Amounts fields draft ms' a :=
          ⟨fun h => h.perm hcommute perm, fun h => h.perm hcommute perm.symm⟩
      _ ↔ F.Gives (src.record title fields draft v') a :=
          ⟨L.gives_record right, L.of_gives_record right hsteady⟩

end Laws

/-! ### What has been written -/

/-- **The members with which the record `a` is written**, for the fields that are left and the draft
to which they are left. A field that need not be present may have been left out. -/
inductive Written (F : Format m ν) (k : Nat) (a : σ) :
    List (Field m ν σ) → List (String × Json) → σ → Prop where
  | nil : Written F k a [] [] a
  | absent {f : Field m ν σ} {fields : List (Field m ν σ)} {members : List (String × Json)}
      {draft : σ} (optional : f.required = false) (rest : Written F k a fields members draft) :
      Written F k a (f :: fields) members draft
  | present {f : Field m ν σ} {fields : List (Field m ν σ)} {members : List (String × Json)}
      {draft : σ} {change : σ → σ} {j : Json}
      (reads : ∀ v, F.Shows k j v → F.Gives (f.read v) change)
      (rest : Written F k a fields members (change draft)) :
      Written F k a (f :: fields) ((f.name, j) :: members) draft

/-- What has been written is gathered, each field at most once. -/
theorem Written.exists_gathers {k : Nat} {fields all : List (Field m ν σ)}
    {members : List (String × Json)} {draft a : σ} (h : Written F k a fields members draft)
    (hall : ∀ f ∈ fields, all.find? (·.answers f.name) = some f) {ms : List (String × ν)}
    (hms : List.Forall₂ (fun x y => x.1 = y.1 ∧ F.Shows k x.2 y.2) members ms) :
    ∃ changes, F.Gathers all ms changes ∧
      (changes.map Prod.fst).Sublist (fields.map Field.name) ∧
      (∀ f ∈ fields, f.required = true → f.name ∈ changes.map Prod.fst) ∧
      a = applied changes draft := by
  induction h generalizing ms with
  | nil =>
    cases hms
    exact ⟨[], .nil, .refl _, fun f hf => absurd hf List.not_mem_nil, rfl⟩
  | @absent f fields members draft optional _ ih =>
    obtain ⟨changes, hgathers, hsub, hrequired, happlied⟩ :=
      ih (fun g hg => hall g (List.mem_cons_of_mem _ hg)) hms
    refine ⟨changes, hgathers, hsub.cons _, ?_, happlied⟩
    -- What has been left out is not needed.
    intro g hg hneeded
    rcases List.mem_cons.mp hg with rfl | hmem
    · rw [optional] at hneeded
      cases hneeded
    · exact hrequired g hmem hneeded
  | @present f fields members draft change j reads _ ih =>
    cases hms with
    | @cons _ b _ ms hb hrest =>
      -- The member in front is found as this field, since no other field has its name.
      obtain ⟨name, v⟩ := b
      obtain ⟨rfl, hshows⟩ : f.name = name ∧ _ := hb
      obtain ⟨changes, hgathers, hsub, hrequired, happlied⟩ :=
        ih (fun g hg => hall g (List.mem_cons_of_mem _ hg)) hrest
      refine ⟨(f.name, change) :: changes, .field (hall f List.mem_cons_self) (reads v hshows)
        hgathers, hsub.cons_cons _, ?_, happlied⟩
      intro g hg hneeded
      rcases List.mem_cons.mp hg with rfl | hmem
      · exact List.mem_cons_self
      · exact List.mem_cons_of_mem _ (hrequired g hmem hneeded)

namespace Laws

variable [Monad m] {src : Source m ν} (L : F.Laws src) {α : Type} {k : Nat}

include L

/-- **A record is read as it has been written.** -/
theorem gives_record_of_written {title : String} {fields : List (Field m ν σ)} {draft a : σ}
    {members members' : List (String × Json)} (h : F.Written k a fields members' draft) {v : ν}
    (hv : F.Shows (k + 1) (.object members) v) (hmembers : members = members')
    (hnames : (fields.map Field.name).Nodup) (haliases : ∀ f ∈ fields, f.aliases = []) :
    F.Gives (src.record title fields draft v) a := by
  subst hmembers
  obtain ⟨ms, hobject, hms⟩ := L.isObject_of_shows hv
  obtain ⟨changes, hgathers, hsub, hrequired, happlied⟩ :=
    h.exists_gathers (fun f hf => find?_name haliases hnames hf) hms
  -- The names of the changes are among those of the fields, so none occurs twice.
  exact L.gives_record hobject ⟨changes, hgathers, ⟨hsub.nodup hnames, hrequired⟩, happlied⟩

variable [LawfulMonad m]

theorem written_needed {rd : ν → m α} {x : α} {j : Json} {name : String} {set : α → σ → σ}
    {fields : List (Field m ν σ)} {members : List (String × Json)} {draft a : σ}
    (hrd : ∀ v, F.Shows k j v → F.Gives (rd v) x)
    (rest : F.Written k a fields members (set x draft)) :
    F.Written k a (.needed name rd set :: fields) ((name, j) :: members) draft :=
  .present (fun v hv => L.gives_map (hrd v hv) set) rest

theorem written_optional {rd : ν → m α} {x : α} {j : Json} {name : String} {set : α → σ → σ}
    {fields : List (Field m ν σ)} {members : List (String × Json)} {draft a : σ}
    (hrd : ∀ v, F.Shows k j v → F.Gives (rd v) x)
    (rest : F.Written k a fields members (set x draft)) :
    F.Written k a (.optional name rd set :: fields) ((name, j) :: members) draft :=
  .present (fun v hv => L.gives_map (hrd v hv) set) rest

/-- **A list is read as it has been written**, if its items are. -/
theorem gives_items {rd : ν → m α} {toJson : α → Json}
    (hrd : ∀ x v, F.Shows k (toJson x) v → F.Gives (rd v) x) {xs : List α} {v : ν}
    (hv : F.Shows (k + 1) (.array (xs.map toJson)) v) : F.Gives (src.items rd v) xs := by
  obtain ⟨vs, harray, hvs⟩ := L.isArray_of_shows hv
  rw [L.gives_items_iff harray]
  refine L.gives_mapM ((List.forall₂_map_left_iff.mp hvs).flip.imp fun w x hw => ?_)
  exact hrd x w hw

/-- **A table of texts is read as it has been written.** -/
theorem gives_textTable {t : Table String} {v : ν} (hv : F.Shows (k + 1) (Json.textTable t) v) :
    F.Gives (src.table src.text v) t := by
  obtain ⟨ms, hobject, hms⟩ := L.isObject_of_shows hv
  rw [L.gives_table_iff hobject]
  have hentries : F.Gives (ms.mapM fun e => Prod.mk e.1 <$> src.text e.2) t.entries := by
    refine L.gives_mapM ((List.forall₂_map_left_iff.mp hms).flip.imp fun b e hb => ?_)
    obtain ⟨name, w⟩ := b
    obtain ⟨rfl, hshows⟩ : e.1 = name ∧ _ := hb
    exact L.gives_map (L.gives_text hshows) (Prod.mk e.1)
  -- The entries of a table are in order, so putting them in again gives the table back.
  have hlist := L.gives_map hentries Table.ofList
  rwa [Table.ofList_entries] at hlist

end Laws

end Format

end WorkflowPolicy.Reading
