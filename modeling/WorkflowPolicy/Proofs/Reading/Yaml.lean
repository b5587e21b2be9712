import WorkflowPolicy.Proofs.Net.Port
import WorkflowPolicy.Proofs.Reading.Format
import WorkflowPolicy.Proofs.Reading.Readers
import WorkflowPolicy.Yaml.Print

/-!
# YAML as a format

Reading YAML has a state, the number of aliases that have been followed, and it may depend on the
document in which aliases are looked up. Neither matters where no alias is met: an action *gives* a
value if it ends in it in every document and from every state, and leaves the state as it is.

That an action ends in a value and has not changed the state does not say in general that no part of
it has. Here it does, since the number never falls: every reader is *steady*, that is, if the number
is the same at the end, then no alias was met on the way, and the value is the same in every
document (`steady`).
-/

namespace WorkflowPolicy.Yaml.Node

mutual
/-- **The node shows the value**: texts in any style, whole numbers in plain style, and arrays and
objects of such, with or without anchors. -/
def shows : Json → Node Nat → Bool
  | .string s, .scalar _ t => t.text == s && t.tag.isNone
  | .number (.int n), .scalar _ t => t.text == toString n && t.style == .plain && t.tag.isNone
  | .array items, .sequence _ tag nodes => tag.isNone && showsItems items nodes
  | .object members, .mapping _ tag entries => tag.isNone && showsMembers members entries
  | _, _ => false

/-- The nodes show the items, one by one. -/
def showsItems : List Json → List (Node Nat) → Bool
  | [], [] => true
  | item :: items, node :: nodes => shows item node && showsItems items nodes
  | _, _ => false

/-- The entries show the members, one by one. -/
def showsMembers : List (String × Json) → List (Node Nat × Node Nat) → Bool
  | [], [] => true
  | (name, value) :: members, (.scalar _ t, node) :: entries =>
    t.text == name && shows value node && showsMembers members entries
  | _, _ => false
end

end WorkflowPolicy.Yaml.Node

namespace WorkflowPolicy.Yaml

/-- **The printed document can be read**: it is well formed, and it shows the value. -/
def Legible (j : Json) : Prop :=
  ∃ d, Document.parse? (print j) = some d ∧ d.root.shows j = true

instance (j : Json) : Decidable (Legible j) :=
  decidable_of_iff ((Document.parse? (print j)).any fun d => d.root.shows j)
    (Option.any_eq_true _ _)

end WorkflowPolicy.Yaml

namespace WorkflowPolicy.Reading.Place

open Yaml (Node Document Scalar)

variable {α β σ : Type}

/-- **YAML** as a format. -/
def format : Format Read Place where
  IsObject p ms := ∃ room anchor tag entries, p.room = room + 1 ∧
    p.node = .mapping anchor tag entries ∧
    List.Forall₂ (fun (e : Node Nat × Node Nat) (a : String × Place) =>
      (∃ anchor s, e.1 = .scalar anchor s ∧ s.text = a.1) ∧
        a.2 = (entryPlace { p with room } e).2) entries ms
  IsArray p ps := ∃ room anchor tag items, p.room = room + 1 ∧
    p.node = .sequence anchor tag items ∧ ps = itemPlaces { p with room } items
  Shows k j p := p.node.shows j = true ∧ k ≤ p.room
  Gives x a := ∀ d n, (x.run d).run n = .ok (a, n)
  Steady x := ∀ d n a n', (x.run d).run n = .ok (a, n') →
    n ≤ n' ∧ (n' = n → ∀ d' k, (x.run d').run k = .ok (a, k))

/-! ### Actions -/

theorem run_bind_eq_ok_iff {x : Read α} {f : α → Read β} {d : Document} {n : Nat}
    {r : β × Nat} : ((x >>= f).run d).run n = .ok r ↔
      ∃ a n', (x.run d).run n = .ok (a, n') ∧ ((f a).run d).run n' = .ok r := by
  -- The state of the first action is that in which the second one begins.
  have hrun : ((x >>= f).run d).run n = (x.run d).run n >>= fun s => ((f s.1).run d).run s.2 := rfl
  rw [hrun]
  cases (x.run d).run n with
  | error fault => exact ⟨fun h => (nomatch h), fun ⟨_, _, h, _⟩ => (nomatch h)⟩
  | ok s =>
    constructor
    · exact fun h => ⟨s.1, s.2, rfl, h⟩
    · rintro ⟨a, n', hs, h⟩
      obtain rfl := Except.ok.inj hs
      exact h

theorem run_locate_eq_ok_iff {p : Place} {x : Read α} {d : Document} {n : Nat} {r : α × Nat} :
    ((p.locate x).run d).run n = .ok r ↔ (x.run d).run n = .ok r := by
  have hrun : ((p.locate x).run d).run n =
      tryCatch ((x.run d).run n) fun fault => .error (fault.located p.path) := rfl
  rw [hrun]
  cases (x.run d).run n with
  | error fault => exact ⟨fun h => (nomatch h), fun h => (nomatch h)⟩
  | ok s => rfl

/-- **YAML has the laws of actions.** If the number has not risen in the end, it has risen in none
of the steps. -/
theorem actions : format.Actions where
  steady_pure a := by
    intro d n b n' h
    obtain ⟨rfl, rfl⟩ := Prod.mk.inj (Except.ok.inj h)
    exact ⟨Nat.le_refl _, fun _ _ _ => rfl⟩
  steady_bind {_ _ x f} hx hf := by
    intro d n b n'' h
    obtain ⟨a, n', hfirst, hsecond⟩ := run_bind_eq_ok_iff.mp h
    obtain ⟨hle, hgives⟩ := hx d n a n' hfirst
    obtain ⟨hle', hgives'⟩ := hf a d n' b n'' hsecond
    refine ⟨hle.trans hle', fun heq d' k => ?_⟩
    subst heq
    -- No step lowers the number, so if it ends where it began it was the same in between.
    obtain rfl : n' = n'' := Nat.le_antisymm hle' hle
    exact run_bind_eq_ok_iff.mpr ⟨a, k, hgives rfl d' k, hgives' rfl d' k⟩
  gives_pure_iff {_ a b} := by
    constructor
    · intro h
      -- An action that gives its value everywhere does so in the empty document.
      exact (Prod.mk.inj (Except.ok.inj (h ⟨.empty, [], 0⟩ 0))).1.symm
    · rintro rfl
      exact fun _ _ => rfl
  exists_of_gives_map {_ _ g x b} h := by
    have hrun := h ⟨.empty, [], 0⟩ 0
    rw [map_eq_pure_bind] at hrun
    obtain ⟨a, n', -, hpure⟩ := run_bind_eq_ok_iff.mp hrun
    exact ⟨a, (Prod.mk.inj (Except.ok.inj hpure)).1.symm⟩
  gives_bind hx hf := fun d n => run_bind_eq_ok_iff.mpr ⟨_, n, hx d n, hf d n⟩
  of_gives_bind {_ _ x f b} hx hf h := by
    obtain ⟨a, n', hfirst, hsecond⟩ := run_bind_eq_ok_iff.mp (h ⟨.empty, [], 0⟩ 0)
    obtain ⟨hle, hgives⟩ := hx _ _ a n' hfirst
    obtain ⟨hle', hgives'⟩ := hf a _ _ b 0 hsecond
    obtain rfl : n' = 0 := Nat.le_antisymm hle' hle
    exact ⟨a, hgives rfl, hgives' rfl⟩

theorem steady_refuse (cause : Cause) : format.Steady (refuse cause : Read α) := by
  intro d n a n' h
  cases h

theorem steady_locate {p : Place} {x : Read α} (hx : format.Steady x) :
    format.Steady (p.locate x) := by
  intro d n a n' h
  -- A place is given to faults only.
  obtain ⟨hle, hgives⟩ := hx d n a n' (run_locate_eq_ok_iff.mp h)
  exact ⟨hle, fun heq d' k => run_locate_eq_ok_iff.mpr (hgives heq d' k)⟩

/-- Where there is no alias there is nothing to follow. -/
theorem follow_eq_pure {p : Place} (h : ∀ k, p.node ≠ .alias k) : p.follow = pure p := by
  rw [follow]
  split
  · next k hnode => exact absurd hnode (h k)
  · rfl

/-- **Following an alias raises the number.** -/
theorem steady_follow (p : Place) : format.Steady p.follow := by
  by_cases halias : ∃ k, p.node = .alias k
  · obtain ⟨k, hnode⟩ := halias
    intro d n a n' h
    -- The step is written out. It either fails or ends with the number one higher.
    have hraised : n' = n + 1 := by
      have hrun : (p.follow.run d).run n =
          if d.size * aliasFactor < n + 1 then .error ⟨.tooManyAliases, none⟩
          else .ok ({ p with node := (d.target? k).getD p.node }, n + 1) := by
        rw [follow, hnode]
        change ((if d.size * aliasFactor < n + 1 then refuse .tooManyAliases
          else pure { p with node := (d.target? k).getD (.alias k) } : Read Place).run d).run
            (n + 1) = _
        split <;> rfl
      rw [hrun] at h
      split at h
      · cases h
      · exact (Prod.mk.inj (Except.ok.inj h)).2.symm
    subst hraised
    -- A number that has risen is not the same, so the second part is empty.
    exact ⟨Nat.le_succ n, fun heq => absurd heq (Nat.succ_ne_self n)⟩
  · rw [follow_eq_pure fun k hnode => halias ⟨k, hnode⟩]
    exact actions.steady_pure p

/-- **Every reader is steady.** -/
theorem steady : Compositional fun _ x => format.Steady x where
  pure := actions.steady_pure
  refuse := steady_refuse
  bind := actions.steady_bind
  locate h _ := steady_locate h
  follow := steady_follow

/-! ### Collections -/

theorem gives_locate_iff {p : Place} {x : Read α} {a : α} :
    format.Gives (p.locate x) a ↔ format.Gives x a :=
  forall_congr' fun _ => forall_congr' fun _ => run_locate_eq_ok_iff

/-- The text of a scalar is there at once. -/
theorem scalarText_eq_pure {p : Place} {anchor : Option Nat} {s : Scalar}
    (h : p.node = .scalar anchor s) (wanted : String) : p.scalarText wanted = pure s.text := by
  have hfollow : p.follow = pure p := follow_eq_pure fun k => by simp [h]
  rw [scalarText, hfollow, pure_bind, h]
  rfl

theorem enter_eq_pure {p : Place} {room : Nat} (h : p.room = room + 1) :
    p.enter = pure { p with room } := by
  rw [enter, h]

/-- The places of the keys and values of an object, and its members. -/
def PairsOf : List (Place × Place) → List (String × Place) → Prop :=
  List.Forall₂ fun e a => (∃ anchor s, e.1.node = .scalar anchor s ∧ s.text = a.1) ∧ e.2 = a.2

/-- **The entries of an object.** -/
theorem exists_entriesOf_eq_pure {p : Place} {ms : List (String × Place)}
    (h : format.IsObject p ms) (wanted : String) : ∃ entries, PairsOf entries ms ∧
      p.follow = pure p ∧ p.entriesOf wanted = pure entries := by
  obtain ⟨room, anchor, tag, entries, hroom, hnode, hentries⟩ := h
  refine ⟨entries.map (entryPlace { p with room }), ?_, follow_eq_pure fun k => by simp [hnode], ?_⟩
  · -- The place of an entry keeps the node of the key and the value, and only the path is new.
    rw [PairsOf, List.forall₂_map_left_iff]
    refine hentries.imp fun e a hea => ?_
    obtain ⟨⟨anchor, s, hkey, htext⟩, hvalue⟩ := hea
    exact ⟨⟨anchor, s, hkey, htext⟩, hvalue.symm⟩
  · rw [entriesOf, hnode]
    simp only [enter_eq_pure hroom, pure_bind, hnode]

theorem gives_items_iff {value : Place → Read α} {p : Place} {ps : List Place} {as : List α}
    (h : format.IsArray p ps) : format.Gives (p.items value) as ↔
      format.Gives (ps.mapM value) as := by
  obtain ⟨room, anchor, tag, items, hroom, hnode, rfl⟩ := h
  have hfollow : p.follow = pure p := follow_eq_pure fun k => by simp [hnode]
  have hitems : p.itemsOf "a sequence" = pure (itemPlaces { p with room } items) := by
    rw [itemsOf, hnode]
    simp only [enter_eq_pure hroom, pure_bind, hnode]
  rw [Place.items, hfollow, pure_bind, gives_locate_iff, hitems, pure_bind]

theorem mapM_congr {γ δ : Type} {f : γ → Read α} {g : δ → Read α} {xs : List γ} {ys : List δ}
    (h : List.Forall₂ (fun x y => f x = g y) xs ys) : xs.mapM f = ys.mapM g := by
  induction h with
  | nil => rfl
  | cons hxy _ ih => rw [List.mapM_cons, List.mapM_cons, hxy, ih]

theorem gives_table_iff {value : Place → Read α} {p : Place} {ms : List (String × Place)}
    {t : Table α} (h : format.IsObject p ms) : format.Gives (p.table value) t ↔
      format.Gives (Table.ofList <$> ms.mapM fun e => Prod.mk e.1 <$> value e.2) t := by
  obtain ⟨entries, hpairs, hfollow, hentries⟩ := exists_entriesOf_eq_pure h "a map"
  -- The keys are texts, and reading one gives its text and follows no alias.
  have hmembers : (entries.mapM fun e => do
      let name ← e.1.text
      return (name, ← value e.2)) = ms.mapM fun e => Prod.mk e.1 <$> value e.2 := by
    refine mapM_congr (hpairs.imp fun e a hea => ?_)
    obtain ⟨⟨anchor, s, hkey, htext⟩, hvalue⟩ := hea
    rw [Place.text, scalarText_eq_pure hkey, pure_bind, htext, hvalue, map_eq_pure_bind]
  rw [Place.table, hfollow, pure_bind, gives_locate_iff, hentries, pure_bind, hmembers,
    map_eq_pure_bind]

/-! ### Records -/

/-- The fields of a record from the members that are gathered. -/
theorem exists_gives_fieldsOf {fields : List (Field Read Place σ)} {ms : List (String × Place)}
    {changes : List (String × (σ → σ))} (h : format.Gathers fields ms changes)
    {entries : List (Place × Place)} (hpairs : PairsOf entries ms) {seen : List String}
    (honce : (changes.map Prod.fst).Nodup) (hnew : ∀ name ∈ changes.map Prod.fst, name ∉ seen)
    (draft : σ) (others : List Unit) : ∃ others', format.Gives
      (fieldsOf fields (fun _ _ => return ()) entries seen draft others)
      ((changes.map Prod.fst).reverse ++ seen, Format.applied changes draft, others') := by
  -- The induction is on the members that are gathered. The names seen so far are those in front,
  -- and none of them comes again.
  induction h generalizing entries seen draft others with
  | nil =>
    cases hpairs
    exact ⟨others.reverse, actions.gives_pure_iff.mpr rfl⟩
  | @field name v rest f change changes found gives _ ih =>
    obtain _ | ⟨⟨⟨anchor, s, hkey, htext⟩, rfl⟩, hpairs⟩ := hpairs
    obtain ⟨hfirst, hrest⟩ := List.nodup_cons.mp honce
    have hseen : ¬ f.name ∈ seen := hnew f.name List.mem_cons_self
    -- The name of this field is seen from now on, and it does not come again either.
    have hnext : ∀ name ∈ changes.map Prod.fst, name ∉ f.name :: seen := by
      intro name hname hold
      rcases List.mem_cons.mp hold with rfl | hold
      · exact hfirst hname
      · exact hnew name (List.mem_cons_of_mem _ hname) hold
    obtain ⟨others', hgives⟩ := ih hpairs hrest hnext (change draft) others
    refine ⟨others', ?_⟩
    rw [fieldsOf, scalarText_eq_pure hkey, pure_bind, htext]
    simp only [found]
    rw [if_neg (fun h => hseen (List.contains_iff_mem.mp h))]
    refine actions.gives_bind gives ?_
    simpa [Format.applied] using hgives
  | @other name v rest changes unknown _ ih =>
    obtain _ | ⟨⟨⟨anchor, s, hkey, htext⟩, rfl⟩, hpairs⟩ := hpairs
    obtain ⟨others', hgives⟩ := ih hpairs honce hnew draft (() :: others)
    refine ⟨others', ?_⟩
    rw [fieldsOf, scalarText_eq_pure hkey, pure_bind, htext]
    simp only [unknown, pure_bind]
    exact hgives

/-- **What reading the fields of a record ends in**, after those of the names `seen`. -/
theorem exists_gathers_of_fieldsOf {fields : List (Field Read Place σ)}
    (hsteady : ∀ f ∈ fields, ∀ p, format.Steady (f.read p)) {entries : List (Place × Place)}
    {ms : List (String × Place)} (hpairs : PairsOf entries ms) {seen seen' : List String}
    {draft draft' : σ} {others others' : List Unit}
    (h : format.Gives (fieldsOf fields (fun _ _ => return ()) entries seen draft others)
      (seen', draft', others')) :
    ∃ changes, format.Gathers fields ms changes ∧ (changes.map Prod.fst).Nodup ∧
      (∀ name ∈ changes.map Prod.fst, name ∉ seen) ∧
      seen' = (changes.map Prod.fst).reverse ++ seen ∧ draft' = Format.applied changes draft := by
  -- Going through the members, what was seen before is general, and the changes are gathered from
  -- the end.
  induction hpairs generalizing seen draft others with
  | nil =>
    have hend : (seen', draft', others') = (seen, draft, others.reverse) :=
      actions.gives_pure_iff.mp h
    obtain ⟨rfl, hrest⟩ := Prod.mk.inj hend
    obtain ⟨rfl, -⟩ := Prod.mk.inj hrest
    exact ⟨[], .nil, .nil, fun _ hname => absurd hname List.not_mem_nil, rfl, rfl⟩
  | @cons e a entries ms hea _ ih =>
    obtain ⟨name, p⟩ := a
    obtain ⟨⟨anchor, s, hkey, htext⟩, hvalue⟩ := hea
    rw [fieldsOf, scalarText_eq_pure hkey, pure_bind, htext] at h
    cases hfind : fields.find? (·.answers name) with
    | none =>
      -- A member that is no field changes nothing, and its value is skipped.
      simp only [hfind, pure_bind] at h
      obtain ⟨changes, hgathers, hrest⟩ := ih h
      exact ⟨changes, .other hfind hgathers, hrest⟩
    | some f =>
      simp only [hfind] at h
      have hread : ∀ p, format.Steady (f.read p) := hsteady f (List.mem_of_find?_eq_some hfind)
      split at h
      · -- The field has been there before.
        cases h ⟨.empty, [], 0⟩ 0
      · next hseen =>
        obtain ⟨change, hchange, hnext⟩ := actions.of_gives_bind (hread _)
          (fun _ => steady.fieldsOf hsteady (fun _ _ => actions.steady_pure ()) _ _ _ _) h
        obtain ⟨changes, hgathers, honce, hnew, rfl, rfl⟩ := ih hnext
        rw [hvalue] at hchange
        refine ⟨(f.name, change) :: changes, .field hfind hchange hgathers, ?_, ?_, ?_, rfl⟩
        · refine List.nodup_cons.mpr ⟨fun hmem => ?_, honce⟩
          exact hnew f.name hmem List.mem_cons_self
        · intro name' hname'
          rcases List.mem_cons.mp hname' with rfl | hmem
          · exact fun hold => hseen (List.contains_iff_mem.mpr hold)
          · exact fun hold => hnew name' hmem (List.mem_cons_of_mem _ hold)
        · simp

/-- **What reading a record gives**, if it is an object. -/
theorem gives_record {title : String} {fields : List (Field Read Place σ)} {draft a : σ}
    {p : Place} {ms : List (String × Place)} (h : format.IsObject p ms)
    (amounts : format.Amounts fields draft ms a) :
    format.Gives (p.record title fields draft) a := by
  obtain ⟨entries, hpairs, hfollow, hentries⟩ :=
    exists_entriesOf_eq_pure h ("struct " ++ title)
  obtain ⟨changes, hgathers, hcomplete, rfl⟩ := amounts
  -- Nothing was seen before the first entry.
  obtain ⟨others, hfields⟩ := exists_gives_fieldsOf hgathers hpairs hcomplete.once
    (fun _ _ => List.not_mem_nil) draft []
  have hmissing : missing fields ((changes.map Prod.fst).reverse ++ []) = none := by
    -- A needed field is among the changes, and the changes are what was seen.
    rw [Format.missing_eq_none_iff]
    intro f hf hrequired
    simpa using hcomplete.present f hf hrequired
  rw [record, hfollow, pure_bind, gives_locate_iff, hentries, pure_bind]
  refine actions.gives_bind hfields ?_
  simp only [hmissing]
  exact actions.gives_pure_iff.mpr rfl

theorem of_gives_record {title : String} {fields : List (Field Read Place σ)} {draft a : σ}
    {p : Place} {ms : List (String × Place)} (h : format.IsObject p ms)
    (hsteady : ∀ f ∈ fields, ∀ p, format.Steady (f.read p))
    (hgives : format.Gives (p.record title fields draft) a) :
    format.Amounts fields draft ms a := by
  obtain ⟨entries, hpairs, hfollow, hentries⟩ :=
    exists_entriesOf_eq_pure h ("struct " ++ title)
  rw [record, hfollow, pure_bind, gives_locate_iff, hentries, pure_bind] at hgives
  -- The run is taken apart into the fields and the end, since both are steady.
  obtain ⟨⟨seen, last, others⟩, hfields, hlast⟩ := actions.of_gives_bind
    (steady.fieldsOf hsteady (fun _ _ => actions.steady_pure ()) entries [] draft [])
    (fun r => steady.unless_missing fields r.1 r.2.1) hgives
  obtain ⟨changes, hgathers, honce, -, rfl, rfl⟩ :=
    exists_gathers_of_fieldsOf hsteady hpairs hfields
  dsimp only at hlast
  split at hlast
  · -- Something is missing, and then no value is given.
    cases hlast ⟨.empty, [], 0⟩ 0
  · next hmissing =>
    refine ⟨changes, hgathers, ⟨honce, fun f hf hrequired => ?_⟩,
      actions.gives_pure_iff.mp hlast⟩
    simpa using Format.missing_eq_none_iff.mp hmissing f hf hrequired

/-! ### Places that show a value -/

section Shows

variable {p : Place} {k : Nat}

theorem exists_scalar_of_shows_string {s : String} (h : format.Shows k (.string s) p) :
    ∃ anchor style, p.node = .scalar anchor ⟨s, style, none⟩ := by
  obtain ⟨hshows, -⟩ := h
  cases hnode : p.node with
  | scalar anchor t =>
    rw [hnode] at hshows
    simp only [Node.shows, Bool.and_eq_true, beq_iff_eq, Option.isNone_iff_eq_none] at hshows
    obtain ⟨text, style, tag⟩ := t
    obtain ⟨rfl, rfl⟩ := hshows
    exact ⟨anchor, style, rfl⟩
  | _ =>
    rw [hnode] at hshows
    cases hshows

theorem exists_scalar_of_shows_port {port : Net.Port} (h : format.Shows k (.int port.toNat) p) :
    ∃ anchor, p.node = .scalar anchor ⟨toString port.toNat, .plain, none⟩ := by
  obtain ⟨hshows, -⟩ := h
  cases hnode : p.node with
  | scalar anchor t =>
    rw [hnode] at hshows
    simp only [Json.int, Node.shows, Bool.and_eq_true, beq_iff_eq,
      Option.isNone_iff_eq_none] at hshows
    obtain ⟨text, style, tag⟩ := t
    obtain ⟨⟨rfl, rfl⟩, rfl⟩ := hshows
    exact ⟨anchor, rfl⟩
  | _ =>
    rw [hnode] at hshows
    cases hshows

theorem forall₂_of_showsItems {items : List Json} {nodes : List (Node Nat)}
    (h : Node.showsItems items nodes = true) (hroom : k ≤ p.room) (start : Nat) :
    List.Forall₂ (format.Shows k) items
      ((nodes.zipIdx start).map fun e => { p with node := e.1, path := .item p.path e.2 }) := by
  induction items generalizing nodes start with
  | nil =>
    cases nodes with
    | nil => exact .nil
    | cons node nodes => cases h
  | cons item items ih =>
    cases nodes with
    | nil => cases h
    | cons node nodes =>
      rw [Node.showsItems, Bool.and_eq_true] at h
      exact .cons ⟨h.1, hroom⟩ (ih h.2 (start + 1))

theorem isArray_of_shows {items : List Json} (h : format.Shows (k + 1) (.array items) p) :
    ∃ ps, format.IsArray p ps ∧ List.Forall₂ (format.Shows k) items ps := by
  -- One level is opened, so there has to be one left, and the items have one less.
  obtain ⟨hshows, hroom⟩ := h
  obtain ⟨room, hroom'⟩ := Nat.exists_eq_succ_of_ne_zero (by omega : p.room ≠ 0)
  cases hnode : p.node with
  | sequence anchor tag nodes =>
    rw [hnode, Node.shows, Bool.and_eq_true] at hshows
    have hle : k ≤ room := by omega
    exact ⟨_, ⟨room, anchor, tag, nodes, hroom', hnode, rfl⟩,
      forall₂_of_showsItems (p := { p with room }) hshows.2 hle 0⟩
  | _ =>
    rw [hnode] at hshows
    cases hshows

theorem exists_members_of_showsMembers {members : List (String × Json)}
    {entries : List (Node Nat × Node Nat)} (h : Node.showsMembers members entries = true)
    (hroom : k ≤ p.room) : ∃ ms, List.Forall₂ (fun (e : Node Nat × Node Nat) (a : String × Place) =>
        (∃ anchor s, e.1 = .scalar anchor s ∧ s.text = a.1) ∧ a.2 = (p.entryPlace e).2) entries ms ∧
      List.Forall₂ (fun a b => a.1 = b.1 ∧ format.Shows k a.2 b.2) members ms := by
  induction members generalizing entries with
  | nil =>
    cases entries with
    | nil => exact ⟨[], .nil, .nil⟩
    | cons e entries => cases h
  | cons member members ih =>
    obtain ⟨name, value⟩ := member
    cases entries with
    | nil => cases h
    | cons e entries =>
      obtain ⟨key, node⟩ := e
      cases key with
      | scalar anchor t =>
        rw [Node.showsMembers, Bool.and_eq_true, Bool.and_eq_true, beq_iff_eq] at h
        obtain ⟨⟨htext, hvalue⟩, hrest⟩ := h
        obtain ⟨ms, hentries, hms⟩ := ih hrest
        exact ⟨(name, (p.entryPlace (.scalar anchor t, node)).2) :: ms,
          .cons ⟨⟨anchor, t, rfl, htext⟩, rfl⟩ hentries, .cons ⟨rfl, hvalue, hroom⟩ hms⟩
      | _ => cases h

theorem isObject_of_shows {members : List (String × Json)}
    (h : format.Shows (k + 1) (.object members) p) : ∃ ms, format.IsObject p ms ∧
      List.Forall₂ (fun a b => a.1 = b.1 ∧ format.Shows k a.2 b.2) members ms := by
  obtain ⟨hshows, hroom⟩ := h
  obtain ⟨room, hroom'⟩ := Nat.exists_eq_succ_of_ne_zero (by omega : p.room ≠ 0)
  cases hnode : p.node with
  | mapping anchor tag entries =>
    rw [hnode, Node.shows, Bool.and_eq_true] at hshows
    -- As for arrays, the members have one level less.
    have hle : k ≤ room := by omega
    obtain ⟨ms, hentries, hms⟩ :=
      exists_members_of_showsMembers (p := { p with room }) hshows.2 hle
    exact ⟨ms, ⟨room, anchor, tag, entries, hroom', hnode, hentries⟩, hms⟩
  | _ =>
    rw [hnode] at hshows
    cases hshows

end Shows

/-! ### Numbers -/

/-- Digits that do not begin with a zero are read as a decimal number. -/
theorem readInteger?_of_isDigit {c : Char} {cs : List Char} (hdigit : c.isDigit = true)
    (hzero : c ≠ '0') :
    Yaml.readInteger? (c :: cs) = (Text.digits? 10 (c :: cs)).map fun n => (false, n) := by
  -- A digit is no sign, so all of the characters are digits of the number.
  have hminus : c ≠ '-' := fun h => absurd (h ▸ hdigit) (by decide)
  have hplus : c ≠ '+' := fun h => absurd (h ▸ hdigit) (by decide)
  have hsign : Decimal.takeSign (c :: cs) = (false, c :: cs) := by
    unfold Decimal.takeSign
    split <;> simp_all
  -- The first digit is not zero, so the number is not taken for one with a base.
  have hleading : Yaml.hasLeadingZero (c :: cs) = false := by
    unfold Yaml.hasLeadingZero
    split <;> simp_all
  rw [Yaml.readInteger?, hsign]
  simp only
  split <;> simp_all

/-- **A number without a sign is read as it is written.** -/
theorem readUnsigned?_toString {n : Nat} (h : n < 2 ^ 64) :
    Yaml.readUnsigned? (toString n).toList = some n := by
  have htext : (toString n).toList = Nat.toDigits 10 n := by
    rw [Nat.toString_eq_repr, Nat.toList_repr]
  -- Zero is the one number that does begin with a zero.
  by_cases hzero : n = 0
  · subst hzero
    decide
  · have hfirst := Text.head?_toDigits (Nat.pos_of_ne_zero hzero)
    have hdigits : Text.digits? 10 (toString n).toList = some n := by
      refine Text.digits?_eq_some_iff.mpr ⟨?_, fun c => Text.isDigit_of_mem_toString, ?_⟩
      · rw [htext]
        exact Nat.toDigits_ne_nil
      · rw [htext, Nat.ofDigitChars_ten_toDigits]
    rw [← htext] at hfirst
    cases hcons : (toString n).toList with
    | nil =>
      rw [hcons] at hdigits
      cases hdigits
    | cons c cs =>
      have hdigit : c.isDigit = true :=
        Text.isDigit_of_mem_toString (hcons ▸ List.mem_cons_self)
      rw [hcons] at hdigits hfirst
      have hne : c ≠ '0' := fun heq => hfirst (congrArg some heq)
      rw [Yaml.readUnsigned?, readInteger?_of_isDigit hdigit hne, hdigits]
      exact if_pos h

/-- A number is not what is written for nothing. -/
theorem isNull_toString (n : Nat) :
    ((toString n).isEmpty || Yaml.isNull (toString n)) = false := by
  -- Every word for nothing has a character that is no digit.
  have hword : ∀ word : String, word.toList.any (!·.isDigit) = true → toString n ≠ word := by
    intro word hany heq
    obtain ⟨c, hc, hdigit⟩ := List.any_eq_true.mp hany
    rw [← heq] at hc
    rw [Text.isDigit_of_mem_toString hc] at hdigit
    cases hdigit
  have hempty : (toString n).isEmpty = false := by
    rw [Nat.toString_eq_repr, String.isEmpty_eq_false_iff, ne_eq, ← String.toList_eq_nil_iff,
      Nat.toList_repr]
    exact Nat.toDigits_ne_nil
  simp only [Yaml.isNull, Bool.or_eq_false_iff, beq_eq_false_iff_ne]
  exact ⟨hempty, ⟨⟨hword "null" (by decide), hword "Null" (by decide)⟩, hword "NULL" (by decide)⟩,
    hword "~" (by decide)⟩

/-! ### The laws -/

theorem gives_text {s : String} {k : Nat} {p : Place} (h : format.Shows k (.string s) p) :
    format.Gives p.text s := by
  obtain ⟨anchor, style, hnode⟩ := exists_scalar_of_shows_string h
  rw [text, scalarText_eq_pure hnode]
  exact actions.gives_pure_iff.mpr rfl

theorem gives_name {s : String} {k : Nat} {p : Place} {names : List String}
    (h : format.Shows k (.string s) p) (known : s ∈ names) : format.Gives (p.name names) s := by
  obtain ⟨anchor, style, hnode⟩ := exists_scalar_of_shows_string h
  have hfollow : p.follow = pure p := follow_eq_pure fun k => by simp [hnode]
  have hfound : Place.known names s = pure s := if_pos (List.contains_iff_mem.mpr known)
  rw [name, hfollow, pure_bind, gives_locate_iff, hnode]
  -- Without a tag the name is the text.
  change format.Gives (Place.known names s) s
  rw [hfound]
  exact actions.gives_pure_iff.mpr rfl

theorem gives_port {k : Nat} {p : Place} {port : Net.Port}
    (h : format.Shows k (.int port.toNat) p) : format.Gives p.port port := by
  obtain ⟨anchor, hnode⟩ := exists_scalar_of_shows_port h
  have hfollow : p.follow = pure p := follow_eq_pure fun k => by simp [hnode]
  have hlt : port.toNat < 2 ^ 16 := port.toNat_lt
  have hform : (Yaml.readUnsigned? (toString port.toNat).toList).map Int.ofNat =
      some (port.toNat : Int) := by
    rw [readUnsigned?_toString (by omega)]
    rfl
  have hinteger : format.Gives (p.integer (fun s => (Yaml.readUnsigned? s).map Int.ofNat)
      (fun n => n < (Nat.pow 2 16 : Nat)) "u16") port.toNat := by
    -- A port is below the limit, so it is not out of range.
    have hrange : decide ((port.toNat : Int) < (Nat.pow 2 16 : Nat)) = true :=
      decide_eq_true (Int.ofNat_lt.mpr hlt)
    rw [integer, hfollow, pure_bind, gives_locate_iff, hnode]
    simp only [mayBeNumber, beq_self_eq_true, Bool.true_or, if_true, hform, hrange]
    exact actions.gives_pure_iff.mpr rfl
  have hport := actions.gives_map (actions.gives_map hinteger Int.toNat) (UInt16.ofNat)
  rw [Int.toNat_natCast, UInt16.ofNat_toNat] at hport
  exact hport

theorem option_object {value : Place → Read α} {p : Place} {ms : List (String × Place)}
    (h : format.IsObject p ms) : p.option value = some <$> value p := by
  obtain ⟨room, anchor, tag, entries, -, hnode, -⟩ := h
  have hfollow : p.follow = pure p := follow_eq_pure fun k => by simp [hnode]
  rw [option, hfollow, pure_bind, hnode]

theorem option_port {value : Place → Read α} {k : Nat} {p : Place} {port : Net.Port}
    (h : format.Shows k (.int port.toNat) p) : p.option value = some <$> value p := by
  obtain ⟨anchor, hnode⟩ := exists_scalar_of_shows_port h
  have hfollow : p.follow = pure p := follow_eq_pure fun k => by simp [hnode]
  rw [option, hfollow, pure_bind, hnode]
  simp only [isNull_toString]
  rfl

/-- **YAML has the laws of a format.** -/
theorem laws : format.Laws source where
  toActions := actions
  steady_text := steady.text
  steady_port := steady.port
  steady_name := steady.name
  steady_option := steady.option
  steady_items := steady.items
  steady_table := steady.table
  steady_record hfields := steady.record hfields _ _
  option_object := option_object
  gives_items_iff := gives_items_iff
  gives_table_iff := gives_table_iff
  gives_record := gives_record
  of_gives_record := of_gives_record
  isObject_of_shows := isObject_of_shows
  isArray_of_shows := isArray_of_shows
  gives_text := gives_text
  gives_name := gives_name
  gives_port := gives_port
  option_port := option_port

end WorkflowPolicy.Reading.Place
