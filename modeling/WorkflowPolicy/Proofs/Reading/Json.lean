import WorkflowPolicy.Proofs.Reading.Format
import WorkflowPolicy.Reading.Json

/-!
# JSON as a format

The places of a JSON document are its trees, so an object has the members that it has, if their
names are texts, and a place shows the value that it is. Reading has no state: an action gives a
value if it ends in it, and every action is steady.

What needs a proof is the record. Its reader takes the members one after the other and keeps the
names that it has seen; `fieldsOf_eq_ok_iff` says what has come of it at the end.
-/

namespace WorkflowPolicy.Reading.Member

open Reading (Format)
open Json (Node Quoted)

variable {α β σ : Type}

/-- Members whose names are texts. -/
def named (ms : List (String × Node)) : List (Quoted × Node) :=
  ms.map fun e => (.ok e.1, e.2)

/-- **JSON** as a format. -/
def format : Format Result Node where
  IsObject v ms := v = .object (named ms)
  IsArray v vs := v = .array vs
  Shows _ j v := v = .ofValue j
  Gives x a := x = .ok a
  Steady _ := True

theorem bind_eq_ok_iff {x : Result α} {f : α → Result β} {b : β} :
    x >>= f = .ok b ↔ ∃ a, x = .ok a ∧ f a = .ok b := by
  -- A fault on the left is none of the right, and a value is the one with which it goes on.
  cases x with
  | error fault => exact ⟨fun h => (nomatch h), fun ⟨_, h, _⟩ => (nomatch h)⟩
  | ok a => exact ⟨fun h => ⟨a, rfl, h⟩, fun ⟨_, ha, hb⟩ => Except.ok.inj ha ▸ hb⟩

/-- **What reading the members of an object ends in**, after those of the names `seen`. -/
theorem fieldsOf_eq_ok_iff {fields : List (Field Result Node σ)} {ms : List (String × Node)}
    {seen : List String} {draft : σ} {result : List String × σ} :
    fieldsOf fields (named ms) seen draft = .ok result ↔
      ∃ changes, format.Gathers fields ms changes ∧ (changes.map Prod.fst).Nodup ∧
        (∀ name ∈ changes.map Prod.fst, name ∉ seen) ∧
        result = ((changes.map Prod.fst).reverse ++ seen, Format.applied changes draft) := by
  -- The induction is on the members. The names seen so far and the draft are general, since each
  -- field adds to both.
  induction ms generalizing seen draft with
  | nil =>
    constructor
    · intro h
      exact ⟨[], .nil, .nil, fun _ hname => absurd hname List.not_mem_nil, (Except.ok.inj h).symm⟩
    · rintro ⟨changes, ⟨⟩, -, -, rfl⟩
      rfl
  -- What becomes of the member depends on the field that answers to its name, and then on whether
  -- that field has been seen.
  | cons e ms ih =>
    obtain ⟨name, v⟩ := e
    rw [named, List.map_cons, ← named, fieldsOf, quoted, pure_bind]
    cases hfind : fields.find? (·.answers name) with
    | none =>
      -- The member is no field, and changes nothing.
      refine ih.trans (exists_congr fun changes => and_congr_left fun _ => ?_)
      constructor
      · exact .other hfind
      · rintro (_ | ⟨found, -, -⟩ | ⟨-, tail⟩)
        · rw [hfind] at found
          cases found
        · exact tail
    | some f =>
      dsimp only
      by_cases hseen : f.name ∈ seen
      · rw [if_pos (List.contains_iff_mem.mpr hseen)]
        constructor
        · -- A field that was seen is refused, and no list of changes may have its name again.
          intro h
          cases h
        · rintro ⟨changes, _ | ⟨found, -, -⟩ | ⟨unknown, -⟩, -, hnew, -⟩
          · obtain rfl := Option.some.inj (hfind.symm.trans found)
            exact absurd hseen (hnew _ List.mem_cons_self)
          · rw [hfind] at unknown
            cases unknown
      · rw [if_neg (fun h => hseen (List.contains_iff_mem.mp h)), bind_eq_ok_iff]
        constructor
        · rintro ⟨change, hchange, hrest⟩
          obtain ⟨changes, hgathers, honce, hnew, rfl⟩ := ih.mp hrest
          -- The name is new to the rest as well, for there it counts as seen.
          refine ⟨(f.name, change) :: changes, .field hfind hchange hgathers, ?_, ?_, ?_⟩
          · refine List.nodup_cons.mpr ⟨fun hmem => ?_, honce⟩
            exact hnew f.name hmem List.mem_cons_self
          · intro name' hname'
            rcases List.mem_cons.mp hname' with rfl | hmem
            · exact hseen
            · exact fun hold => hnew name' hmem (List.mem_cons_of_mem _ hold)
          · simp [Format.applied]
        · rintro ⟨changes, _ | ⟨found, gives, tail⟩ | ⟨unknown, -⟩, honce, hnew, rfl⟩
          · obtain rfl := Option.some.inj (hfind.symm.trans found)
            -- The other way round the changes begin with this field, as no other one answers to the
            -- name.
            obtain ⟨hfirst, hrest⟩ := List.nodup_cons.mp honce
            refine ⟨_, gives, ih.mpr ⟨_, tail, hrest, ?_, by simp [Format.applied]⟩⟩
            intro name' hname' hold
            rcases List.mem_cons.mp hold with rfl | hold
            · exact hfirst hname'
            · exact hnew name' (List.mem_cons_of_mem _ hname') hold
          · rw [hfind] at unknown
            cases unknown

/-- **What reading a record gives.** -/
theorem record_eq_ok_iff {title : String} {fields : List (Field Result Node σ)} {draft a : σ}
    {ms : List (String × Node)} : record title fields draft (.object (named ms)) = .ok a ↔
      format.Amounts fields draft ms a := by
  rw [record, bind_eq_ok_iff]
  constructor
  · rintro ⟨⟨seen, last⟩, hfields, hlast⟩
    obtain ⟨changes, hgathers, honce, -, heq⟩ := fieldsOf_eq_ok_iff.mp hfields
    -- What was seen is the names of the changes, so what is missing is missing among them.
    obtain ⟨rfl, rfl⟩ := Prod.mk.inj heq
    dsimp only at hlast
    split at hlast
    · cases hlast
    · next hmissing =>
      obtain rfl := Except.ok.inj hlast
      refine ⟨changes, hgathers, ⟨honce, fun f hf hrequired => ?_⟩, rfl⟩
      simpa using Format.missing_eq_none_iff.mp hmissing f hf hrequired
  · rintro ⟨changes, hgathers, hcomplete, rfl⟩
    refine ⟨_, fieldsOf_eq_ok_iff.mpr
      ⟨changes, hgathers, hcomplete.once, fun _ _ => List.not_mem_nil, rfl⟩, ?_⟩
    -- Nothing is missing, and so the record ends with its draft.
    have hmissing : Place.missing fields ((changes.map Prod.fst).reverse ++ []) = none := by
      rw [Format.missing_eq_none_iff]
      intro f hf hrequired
      simpa using hcomplete.present f hf hrequired
    dsimp only
    rw [hmissing]
    rfl

/-- A table is read by reading its members and putting their names before the values. -/
theorem table_object {rd : Node → Result α} (ms : List (String × Node)) :
    table rd (.object (named ms)) = Table.ofList <$> ms.mapM fun e => Prod.mk e.1 <$> rd e.2 := by
  rw [table, named, List.mapM_map, map_eq_pure_bind]
  simp only [map_eq_pure_bind]
  rfl

/-- The number of a port is read as that port. -/
theorem port_int (p : Net.Port) : port (.ofValue (.int p.toNat)) = .ok p := by
  -- A port is in the range of numbers for which the reader asks.
  have hrange : (0 : Int) ≤ p.toNat ∧ (p.toNat : Int) < Nat.pow 2 16 :=
    ⟨Int.natCast_nonneg _, Int.ofNat_lt.mpr p.toNat_lt⟩
  simp only [port, Json.int, Node.ofValue]
  rw [if_pos hrange, Int.toNat_natCast, UInt16.ofNat_toNat]
  rfl

theorem ofMembers_eq_named (members : List (String × Json)) :
    Node.ofMembers members = named (members.map fun e => (e.1, .ofValue e.2)) := by
  induction members with
  | nil => rfl
  | cons e members ih => rw [Node.ofMembers, ih]; rfl

theorem ofItems_eq_map (items : List Json) : Node.ofItems items = items.map .ofValue := by
  induction items with
  | nil => rfl
  | cons item items ih => rw [Node.ofItems, ih]; rfl

/-- The tree of an object is an object. -/
theorem isObject_ofValue (members : List (String × Json)) :
    format.IsObject (.ofValue (.object members)) (members.map fun e => (e.1, .ofValue e.2)) :=
  congrArg Node.object (ofMembers_eq_named members)

/-- **JSON has the laws of a format.** -/
theorem laws : format.Laws source where
  steady_pure _ := trivial
  steady_bind _ _ := trivial
  gives_pure_iff := ⟨fun h => (Except.ok.inj h).symm, fun h => congrArg Except.ok h.symm⟩
  exists_of_gives_map {_ _ g x b} h := by
    cases x with
    | error fault => cases h
    | ok a => exact ⟨a, (Except.ok.inj h).symm⟩
  gives_bind hx hf := bind_eq_ok_iff.mpr ⟨_, hx, hf⟩
  of_gives_bind _ _ h := bind_eq_ok_iff.mp h
  steady_text _ := trivial
  steady_port _ := trivial
  steady_name _ _ := trivial
  steady_option _ _ := trivial
  steady_items _ _ := trivial
  steady_table _ _ := trivial
  steady_record _ _ := trivial
  option_object h := by
    obtain rfl := h
    rfl
  gives_items_iff h := by
    obtain rfl := h
    rfl
  gives_table_iff {_ rd _ ms t} h := by
    obtain rfl := h
    exact iff_of_eq (congrArg (· = Except.ok t) (table_object ms))
  gives_record {_ title fields draft a _ ms} h amounts := by
    obtain rfl := h
    exact (@record_eq_ok_iff _ title fields draft a ms).mpr amounts
  of_gives_record {_ title fields draft a _ ms} h _ gives := by
    obtain rfl := h
    exact (@record_eq_ok_iff _ title fields draft a ms).mp gives
  isObject_of_shows {_ members _} h := by
    obtain rfl := h
    refine ⟨_, isObject_ofValue members, ?_⟩
    rw [List.forall₂_map_right_iff]
    exact List.forall₂_same.mpr fun _ _ => ⟨rfl, rfl⟩
  isArray_of_shows {_ items _} h := by
    refine ⟨_, h.trans (congrArg Node.array (ofItems_eq_map items)), ?_⟩
    rw [List.forall₂_map_right_iff]
    exact List.forall₂_same.mpr fun _ _ => rfl
  gives_text h := by
    obtain rfl := h
    rfl
  gives_name {_ s _ names} h known := by
    obtain rfl := h
    -- The name is among the known ones, and it is given back.
    have hfound : Member.known names s = .ok s := by
      rw [Member.known, if_pos (List.contains_iff_mem.mpr known)]
      rfl
    exact hfound
  gives_port {_ p _} h := by
    obtain rfl := h
    simp only [format, source, port_int]
  option_port h := by
    obtain rfl := h
    rfl

end WorkflowPolicy.Reading.Member
