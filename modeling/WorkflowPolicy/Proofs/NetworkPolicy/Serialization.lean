import WorkflowPolicy.NetworkPolicy.Reading
import WorkflowPolicy.Proofs.Json.RoundTrip
import WorkflowPolicy.Proofs.Reading.Json
import WorkflowPolicy.Proofs.Reading.Yaml
import WorkflowPolicy.Yaml.Print

/-!
# Policies are read back as they are written

Writing leaves out what is empty, and reading fills in what is absent. Both go type by type, so
there are two lemmas for each type, and they are put together as the type is: `gives_read` says that
what has been written is read back, and `keeps_read` that documents are read alike which differ in
the order of keys and in unknown keys (`Variant`). They are proved over any `Source` with the laws
of its format, so JSON and YAML need no proofs of their own.

`survives_serialization` is about texts. What is printed as JSON is always read back as that tree
(`Json.Node.parse?_pretty`); for YAML this is an assumption, `Yaml.Legible`, that can be checked for
each policy.
-/

namespace WorkflowPolicy.NetworkPolicy

open Reading (Source Format Field)
open Reading.Format (Written)

variable {m : Type → Type} {ν : Type}

/-! ### Documents that are read alike -/

section Variants

variable (F : Format m ν)

/-- Selectors: the labels in any order. -/
def Selector.Variant : ν → ν → Prop := F.Extended [("matchLabels", F.Reordered)]

/-- Blocks of addresses. -/
def IpBlock.Variant : ν → ν → Prop := F.Extended [("cidr", Eq), ("except", Eq)]

/-- Peers. -/
def Peer.Variant : ν → ν → Prop :=
  F.Extended
    [ ("podSelector", Selector.Variant F), ("namespaceSelector", Selector.Variant F),
      ("ipBlock", IpBlock.Variant F) ]

/-- Ports. -/
def PortEntry.Variant : ν → ν → Prop := F.Extended [("protocol", Eq), ("port", Eq)]

/-- Rules; `side` names the list of the peers. -/
def Rule.Variant (side : String) : ν → ν → Prop :=
  F.Extended
    [(side, F.Itemwise (Peer.Variant F)), ("ports", F.Itemwise (PortEntry.Variant F))]

/-- Metadata: labels and annotations in any order. -/
def Metadata.Variant : ν → ν → Prop :=
  F.Extended
    [("name", Eq), ("namespace", Eq), ("labels", F.Reordered), ("annotations", F.Reordered)]

/-- The content of a policy. -/
def Spec.Variant : ν → ν → Prop :=
  F.Extended
    [ ("podSelector", Selector.Variant F), ("policyTypes", Eq),
      ("ingress", F.Itemwise (Rule.Variant F "from")),
      ("egress", F.Itemwise (Rule.Variant F "to")) ]

/-- **Documents that differ in the order of keys and in unknown keys only.** -/
def Variant : ν → ν → Prop :=
  F.Extended
    [("apiVersion", Eq), ("kind", Eq), ("metadata", Metadata.Variant F), ("spec", Spec.Variant F)]

variable {F} in
/-- For instance, more members at the top, and all of them in another order. -/
theorem variant_of_perm {v v' : ν} {ms more ms' : List (String × ν)} (left : F.IsObject v ms)
    (right : F.IsObject v' ms')
    (unknown : ∀ e ∈ more, e.1 ∉ ["apiVersion", "kind", "metadata", "spec"])
    (perm : (ms ++ more).Perm ms') : Variant F v v' := by
  -- The parts of the four fields stay as they are, and each relation between parts is reflexive.
  refine Format.Extended.of_perm ?_ left right unknown perm
  refine List.forall_mem_cons.mpr ⟨fun _ => rfl, List.forall_mem_cons.mpr ⟨fun _ => rfl, ?_⟩⟩
  exact List.forall_mem_cons.mpr ⟨.same, List.forall_mem_singleton.mpr .same⟩

end Variants

section Keeps

variable [Monad m] [LawfulMonad m] {F : Format m ν} {src : Source m ν} (L : F.Laws src)

include L

theorem Selector.keeps_read : F.Keeps (Selector.Variant F) (Selector.read src) := by
  -- A record is kept if each of its fields is, and if the fields can be taken in any order. The
  -- latter needs two of them, so it is trivial here.
  refine L.keeps_record (.cons ?_ .nil) (List.pairwise_singleton _ _)
  exact L.keepsField_optional (L.keeps_table L.steady_text) _ _

theorem IpBlock.keeps_read : F.Keeps (IpBlock.Variant F) (IpBlock.read src) := by
  refine L.keeps_record (.cons ?_ (.cons ?_ .nil)) ?_
  · exact L.keepsField_needed (.of_steady F L.steady_text) _ _
  · exact L.keepsField_optional (.of_steady F (L.steady_items L.steady_text)) _ _
  · -- The two fields set different parts of the block, so their order does not matter.
    exact List.pairwise_pair.mpr (L.commute fun _ _ _ => rfl)

theorem Peer.keeps_read : F.Keeps (Peer.Variant F) (Peer.read src) := by
  have hselector := L.keeps_option (Selector.keeps_read L)
  refine L.keeps_record (.cons ?_ (.cons ?_ (.cons ?_ .nil))) ?_
  · exact L.keepsField_optional hselector _ _
  · exact L.keepsField_optional hselector _ _
  · exact L.keepsField_optional (L.keeps_option (IpBlock.keeps_read L)) _ _
  · -- Any two fields set different parts of the peer.
    simp only [List.pairwise_cons, List.forall_mem_cons, List.not_mem_nil]
    refine ⟨⟨?_, ?_, nofun⟩, ⟨?_, nofun⟩, nofun, .nil⟩
    all_goals exact L.commute fun _ _ _ => rfl

omit [LawfulMonad m] in
theorem steady_readTransport (v : ν) : F.Steady (readTransport src v) :=
  L.steady_bind (L.steady_name _ v) fun _ => L.steady_pure _

theorem PortEntry.keeps_read : F.Keeps (PortEntry.Variant F) (PortEntry.read src) := by
  refine L.keeps_record (.cons ?_ (.cons ?_ .nil)) ?_
  · exact L.keepsField_optional (.of_steady F (steady_readTransport L)) _ _
  · exact L.keepsField_optional (.of_steady F (L.steady_option L.steady_port)) _ _
  · exact List.pairwise_pair.mpr (L.commute fun _ _ _ => rfl)

theorem Rule.keeps_read (title side : String) :
    F.Keeps (Rule.Variant F side) (Rule.read src title side) := by
  refine L.keeps_record (.cons ?_ (.cons ?_ .nil)) ?_
  · exact L.keepsField_optional (L.keeps_items (Peer.keeps_read L)) _ _
  · exact L.keepsField_optional (L.keeps_items (PortEntry.keeps_read L)) _ _
  · exact List.pairwise_pair.mpr (L.commute fun _ _ _ => rfl)

theorem Metadata.keeps_read : F.Keeps (Metadata.Variant F) (Metadata.read src) := by
  have htable := L.keeps_table L.steady_text
  refine L.keeps_record (.cons ?_ (.cons ?_ (.cons ?_ (.cons ?_ .nil)))) ?_
  · exact L.keepsField_needed (.of_steady F L.steady_text) _ _
  · exact L.keepsField_optional (.of_steady F L.steady_text) _ _
  · exact L.keepsField_optional htable _ _
  · exact L.keepsField_optional htable _ _
  · -- Here and below, the pairs of fields are written out, and each sets two different parts.
    simp only [List.pairwise_cons, List.forall_mem_cons, List.not_mem_nil]
    refine ⟨⟨?_, ?_, ?_, nofun⟩, ⟨?_, ?_, nofun⟩, ⟨?_, nofun⟩, nofun, .nil⟩
    all_goals exact L.commute fun _ _ _ => rfl

omit [LawfulMonad m] in
theorem steady_readDirection (v : ν) : F.Steady (Direction.read src v) :=
  L.steady_bind (L.steady_name _ v) fun _ => L.steady_pure _

theorem Spec.keeps_read : F.Keeps (Spec.Variant F) (Spec.read src) := by
  refine L.keeps_record (.cons ?_ (.cons ?_ (.cons ?_ (.cons ?_ .nil)))) ?_
  · exact L.keepsField_optional (Selector.keeps_read L) _ _
  · exact L.keepsField_optional (.of_steady F (L.steady_items (steady_readDirection L))) _ _
  · exact L.keepsField_optional (L.keeps_items (Rule.keeps_read L _ _)) _ _
  · exact L.keepsField_optional (L.keeps_items (Rule.keeps_read L _ _)) _ _
  · simp only [List.pairwise_cons, List.forall_mem_cons, List.not_mem_nil]
    refine ⟨⟨?_, ?_, ?_, nofun⟩, ⟨?_, ?_, nofun⟩, ⟨?_, nofun⟩, nofun, .nil⟩
    all_goals exact L.commute fun _ _ _ => rfl

/-- **The order of keys and unknown keys make no difference** to what policy is read. -/
theorem keeps_read : F.Keeps (Variant F) (read src) := by
  refine L.keeps_record (.cons ?_ (.cons ?_ (.cons ?_ (.cons ?_ .nil)))) ?_
  · exact L.keepsField_needed (.of_steady F L.steady_text) _ _
  · exact L.keepsField_needed (.of_steady F L.steady_text) _ _
  · exact L.keepsField_needed (Metadata.keeps_read L) _ _
  · exact L.keepsField_needed (Spec.keeps_read L) _ _
  · simp only [List.pairwise_cons, List.forall_mem_cons, List.not_mem_nil]
    refine ⟨⟨?_, ?_, ?_, nofun⟩, ⟨?_, ?_, nofun⟩, ⟨?_, nofun⟩, nofun, .nil⟩
    all_goals exact L.commute fun _ _ _ => rfl

end Keeps

theorem append_pieces {β : Type} (front first second : List β) :
    front ++ first ++ second = front ++ (first ++ (second ++ [])) := by
  rw [List.append_nil, List.append_assoc]

section Gives

variable [Monad m] [LawfulMonad m] {F : Format m ν} {src : Source m ν} (L : F.Laws src)
  {α σ : Type} {k : Nat}

include L

/-! ### What is left out and what is absent -/

/-- A member may be left out if reading it would not change the draft. -/
theorem written_memberUnless {b : Bool} {rd : ν → m α} {x : α} {j : Json} {name : String}
    {set : α → σ → σ} {fields : List (Field m ν σ)} {members : List (String × Json)}
    {draft a : σ} (hrd : ∀ v, F.Shows k j v → F.Gives (rd v) x)
    (hempty : b = true → set x draft = draft)
    (rest : F.Written k a fields members (set x draft)) :
    F.Written k a (.optional name rd set :: fields) (memberUnless b name j ++ members) draft := by
  cases b with
  | false => exact L.written_optional hrd rest
  | true =>
    -- What is left out is what the draft has, so the rest begins with the same draft.
    rw [hempty rfl] at rest
    exact .absent rfl rest

/-- A value that may be absent: none is what the draft has. -/
theorem written_optionalMember {rd : ν → m α} {toJson : α → Json} {o : Option α} {name : String}
    {set : Option α → σ → σ} {fields : List (Field m ν σ)} {members : List (String × Json)}
    {draft a : σ}
    (hrd : ∀ x v, F.Shows k (toJson x) v → F.Gives (src.option rd v) (some x))
    (hnone : set none draft = draft) (rest : F.Written k a fields members (set o draft)) :
    F.Written k a (.optional name (src.option rd) set :: fields)
      (optionalMember name toJson o ++ members) draft := by
  cases o with
  | some x => exact L.written_optional (hrd x) rest
  | none =>
    rw [hnone] at rest
    exact .absent rfl rest

theorem written_labelsMember {labels : Table String} {name : String} {set : Table String → σ → σ}
    {fields : List (Field m ν σ)} {members : List (String × Json)} {draft a : σ}
    (hempty : set .empty draft = draft)
    (rest : F.Written (k + 1) a fields members (set labels draft)) :
    F.Written (k + 1) a (.optional name (src.table src.text) set :: fields)
      (labelsMember name labels ++ members) draft := by
  refine written_memberUnless L (fun v hv => L.gives_textTable hv) (fun hnone => ?_) rest
  -- Only an empty table is left out.
  rwa [show labels = .empty from Table.ext (List.isEmpty_iff.mp hnone)]

/-! ### Documents that have been written -/

theorem gives_strings {texts : List String} {v : ν}
    (hv : F.Shows (k + 1) (Json.strings texts) v) : F.Gives (src.items src.text v) texts :=
  L.gives_items (fun _ _ hw => L.gives_text hw) hv

theorem Selector.gives_read {s : Selector} {v : ν} (hv : F.Shows (k + 2) s.toJson v) :
    F.Gives (Selector.read src v) s := by
  -- The fields are gone through in the order in which they are written, from the empty draft.
  refine L.gives_record_of_written ?_ hv (List.append_nil _).symm (by simp) (by simp)
  exact written_labelsMember L rfl .nil

theorem IpBlock.gives_read {b : IpBlock} {v : ν} (hv : F.Shows (k + 2) b.toJson v) :
    F.Gives (IpBlock.read src v) b := by
  refine L.gives_record_of_written ?_ hv (congrArg _ (List.append_nil _).symm) (by simp) (by simp)
  refine L.written_needed (fun _ => L.gives_text) ?_
  refine written_memberUnless L (fun _ => gives_strings L) (fun hnone => ?_) .nil
  rw [List.isEmpty_iff.mp hnone]

/-- A selector that is there is one without labels, too: it is an object. -/
theorem Selector.gives_option {s : Selector} {v : ν} (hv : F.Shows (k + 2) s.toJson v) :
    F.Gives (src.option (Selector.read src) v) (some s) := by
  obtain ⟨ms, hobject, -⟩ := L.isObject_of_shows hv
  rw [L.option_object hobject]
  exact L.gives_map (Selector.gives_read L hv) some

theorem IpBlock.gives_option {b : IpBlock} {v : ν} (hv : F.Shows (k + 2) b.toJson v) :
    F.Gives (src.option (IpBlock.read src) v) (some b) := by
  obtain ⟨ms, hobject, -⟩ := L.isObject_of_shows hv
  rw [L.option_object hobject]
  exact L.gives_map (IpBlock.gives_read L hv) some

theorem Peer.gives_read {p : Peer} {v : ν} (hv : F.Shows (k + 3) p.toJson v) :
    F.Gives (Peer.read src v) p := by
  refine L.gives_record_of_written ?_ hv (append_pieces _ _ _) (by simp) (by simp)
  refine written_optionalMember L (fun _ _ => Selector.gives_option L) rfl ?_
  refine written_optionalMember L (fun _ _ => Selector.gives_option L) rfl ?_
  exact written_optionalMember L (fun _ _ => IpBlock.gives_option L) rfl .nil

omit [LawfulMonad m] in
theorem gives_readTransport {t : Net.Transport} {v : ν} (hv : F.Shows k (.string t.name) v) :
    F.Gives (readTransport src v) t := by
  have hname : F.Gives (src.name ["TCP", "UDP"] v) t.name :=
    L.gives_name hv (by cases t <;> decide)
  -- The name tells the two kinds apart, so what it was made of is found again.
  refine L.gives_bind hname (L.gives_pure_iff.mpr ?_)
  cases t <;> rfl

theorem PortEntry.gives_read {e : PortEntry} {v : ν} (hv : F.Shows (k + 1) e.toJson v) :
    F.Gives (PortEntry.read src v) e := by
  have hport : ∀ (port : Net.Port) (v : ν), F.Shows k (.int port.toNat) v →
      F.Gives (src.option src.port v) (some port) := by
    intro port v hv
    -- A port is a number, so it is not taken for nothing.
    rw [L.option_port hv]
    exact L.gives_map (L.gives_port hv) some
  refine L.gives_record_of_written ?_ hv (congrArg _ (List.append_nil _).symm) (by simp) (by simp)
  refine L.written_optional (fun _ => gives_readTransport L) ?_
  exact written_optionalMember L hport rfl .nil

theorem Rule.gives_read {r : Rule} {title side : String} (hside : side ≠ "ports") {v : ν}
    (hv : F.Shows (k + 5) (r.toJson side) v) : F.Gives (Rule.read src title side v) r := by
  refine L.gives_record_of_written ?_ hv (congrArg _ (List.append_nil _).symm)
    (by simpa using hside) (by simp)
  refine L.written_optional (fun _ => L.gives_items fun _ _ => Peer.gives_read L) ?_
  refine written_memberUnless L (fun _ => L.gives_items fun _ _ => PortEntry.gives_read L)
    (fun hnone => ?_) .nil
  rw [List.isEmpty_iff.mp hnone]

theorem Metadata.gives_read {d : Metadata} {v : ν} (hv : F.Shows (k + 2) d.toJson v) :
    F.Gives (Metadata.read src v) d := by
  refine L.gives_record_of_written ?_ hv (append_pieces _ _ _) (by simp) (by simp)
  refine L.written_needed (fun _ => L.gives_text) ?_
  refine L.written_optional (fun _ => L.gives_text) ?_
  refine written_labelsMember L rfl ?_
  exact written_labelsMember L rfl .nil

omit [LawfulMonad m] in
theorem Direction.gives_read {d : Direction} {v : ν} (hv : F.Shows k (.string d.name) v) :
    F.Gives (Direction.read src v) d := by
  have hname : F.Gives (src.name ["Ingress", "Egress"] v) d.name :=
    L.gives_name hv (by cases d <;> decide)
  refine L.gives_bind hname (L.gives_pure_iff.mpr ?_)
  cases d <;> rfl

theorem Spec.gives_read {s : Spec} {v : ν} (hv : F.Shows (k + 7) s.toJson v) :
    F.Gives (Spec.read src v) s := by
  have hdirections : ∀ v, F.Shows (k + 6) (Json.strings (s.directions.map Direction.name)) v →
      F.Gives (src.items (Direction.read src) v) s.directions := by
    intro v hv
    -- The directions are written by their names, one by one.
    rw [Json.strings, List.map_map] at hv
    exact L.gives_items (fun _ _ => Direction.gives_read L) hv
  refine L.gives_record_of_written ?_ hv (append_pieces _ _ _) (by simp) (by simp)
  refine L.written_optional (fun _ => Selector.gives_read L) ?_
  refine L.written_optional hdirections ?_
  refine written_memberUnless L
    (fun _ => L.gives_items fun _ _ => Rule.gives_read L (by decide)) (fun hnone => ?_) ?_
  · -- A list without rules is left out, and so it is empty in the draft.
    rw [List.isEmpty_iff.mp hnone]
  refine written_memberUnless L
    (fun _ => L.gives_items fun _ _ => Rule.gives_read L (by decide)) (fun hnone => ?_) .nil
  rw [List.isEmpty_iff.mp hnone]

/-- **A policy is read as it has been written**, wherever eight levels may be opened. -/
theorem gives_read {p : NetworkPolicy} {v : ν} (hv : F.Shows (k + 8) p.toJson v) :
    F.Gives (read src v) p := by
  -- All four members are written always, so none is left to the draft.
  refine L.gives_record_of_written ?_ hv rfl (by simp) (by simp)
  refine L.written_needed (fun _ => L.gives_text) ?_
  refine L.written_needed (fun _ => L.gives_text) ?_
  refine L.written_needed (fun _ => Metadata.gives_read L) ?_
  exact L.written_needed (fun _ => Spec.gives_read L) .nil

end Gives

/-! ### Whole numbers only -/

section Whole

theorem whole_memberUnless {b : Bool} {name : String} {j : Json} (h : j.Whole) :
    ∀ member ∈ memberUnless b name j, member.2.Whole := by
  cases b with
  | false => exact List.forall_mem_singleton.mpr h
  | true => exact List.forall_mem_nil _

theorem whole_optionalMember {α : Type} {name : String} {toJson : α → Json}
    (h : ∀ a, (toJson a).Whole) (o : Option α) :
    ∀ member ∈ optionalMember name toJson o, member.2.Whole := by
  cases o with
  | some a => exact List.forall_mem_singleton.mpr (h a)
  | none => exact List.forall_mem_nil _

theorem whole_items {α : Type} {toJson : α → Json} (h : ∀ a, (toJson a).Whole) (as : List α) :
    (Json.array (as.map toJson)).Whole :=
  .array (List.forall_mem_map.mpr fun a _ => h a)

theorem whole_strings (texts : List String) : (Json.strings texts).Whole :=
  whole_items .string texts

theorem whole_labelsMember {name : String} (labels : Table String) :
    ∀ member ∈ labelsMember name labels, member.2.Whole :=
  whole_memberUnless (.object (List.forall_mem_map.mpr fun e _ => .string e.2))

theorem Selector.whole_toJson (s : Selector) : s.toJson.Whole := .object (whole_labelsMember _)

theorem IpBlock.whole_toJson (b : IpBlock) : b.toJson.Whole :=
  .object (List.forall_mem_cons.mpr ⟨.string _, whole_memberUnless (whole_strings _)⟩)

theorem Peer.whole_toJson (p : Peer) : p.toJson.Whole := by
  refine .object (List.forall_mem_append.mpr ⟨List.forall_mem_append.mpr ⟨?_, ?_⟩, ?_⟩)
  · exact whole_optionalMember Selector.whole_toJson _
  · exact whole_optionalMember Selector.whole_toJson _
  · exact whole_optionalMember IpBlock.whole_toJson _

theorem PortEntry.whole_toJson (e : PortEntry) : e.toJson.Whole := by
  refine .object (List.forall_mem_cons.mpr ⟨.string _, whole_optionalMember (fun port => ?_) _⟩)
  -- A port is below the limit up to which whole numbers are written as such.
  have hlt : port.toNat < 2 ^ 16 := port.toNat_lt
  exact .int (by omega)

theorem Rule.whole_toJson (side : String) (r : Rule) : (r.toJson side).Whole := by
  refine .object (List.forall_mem_cons.mpr ⟨whole_items Peer.whole_toJson _, ?_⟩)
  exact whole_memberUnless (whole_items PortEntry.whole_toJson _)

theorem Metadata.whole_toJson (d : Metadata) : d.toJson.Whole := by
  refine .object (List.forall_mem_append.mpr ⟨List.forall_mem_append.mpr ⟨?_, ?_⟩, ?_⟩)
  · exact List.forall_mem_cons.mpr ⟨.string _, List.forall_mem_singleton.mpr (.string _)⟩
  · exact whole_labelsMember _
  · exact whole_labelsMember _

theorem Spec.whole_toJson (s : Spec) : s.toJson.Whole := by
  refine .object (List.forall_mem_append.mpr ⟨List.forall_mem_append.mpr ⟨?_, ?_⟩, ?_⟩)
  · exact List.forall_mem_cons.mpr
      ⟨s.pods.whole_toJson, List.forall_mem_singleton.mpr (whole_strings _)⟩
  · exact whole_memberUnless (whole_items (Rule.whole_toJson "from") _)
  · exact whole_memberUnless (whole_items (Rule.whole_toJson "to") _)

theorem whole_toJson (p : NetworkPolicy) : p.toJson.Whole := by
  refine .object (List.forall_mem_cons.mpr ⟨.string _, List.forall_mem_cons.mpr ⟨.string _, ?_⟩⟩)
  exact List.forall_mem_cons.mpr
    ⟨p.metadata.whole_toJson, List.forall_mem_singleton.mpr p.spec.whole_toJson⟩

end Whole

/-! ### Texts -/

section Texts

open Reading

/-- The policy of a JSON text is that of its tree. -/
theorem fromJson_eq_ok_iff {text : String} {t : Json.Node} (h : Json.Node.parse? text = some t)
    {p : NetworkPolicy} : fromJson text = .ok p ↔ read Member.source t = .ok p := by
  -- The text is given its tree first, and the reader sees nothing but the tree.
  simp only [fromJson, Reading.fromJson, h]
  cases read Member.source t with
  | error fault => exact ⟨fun h => (nomatch h), fun h => (nomatch h)⟩
  | ok q => exact ⟨fun h => congrArg _ (Except.ok.inj h), fun h => congrArg _ (Except.ok.inj h)⟩

/-- The policy of a YAML text, if its root gives one. -/
theorem fromYaml_eq_ok {text : String} {d : Yaml.Document}
    (h : Yaml.Document.parse? text = some d) {p : NetworkPolicy}
    (hgives : Place.format.Gives (read Place.source { node := d.root }) p) :
    fromYaml text = .ok p := by
  simp only [fromYaml, Reading.fromYaml, h, hgives d 0]

/-- **Policies survive serialization.** -/
theorem survives_serialization (p : NetworkPolicy) (hlegible : Yaml.Legible p.toJson) :
    (fromJson p.toJson.pretty = .ok p ∧ fromYaml (Yaml.print p.toJson) = .ok p) ∧
    (∀ text text' t t', Json.Node.parse? text = some t → Json.Node.parse? text' = some t' →
      Variant Member.format t t' → ∀ q, fromJson text = .ok q ↔ fromJson text' = .ok q) ∧
    (∀ text d d', Yaml.Document.parse? (Yaml.print p.toJson) = some d →
      Yaml.Document.parse? text = some d' →
      Variant Place.format { node := d.root } { node := d'.root } → fromYaml text = .ok p) ∧
    ∀ v v', Variant Place.format v v' → ∀ q,
      Place.format.Gives (read Place.source v) q ↔ Place.format.Gives (read Place.source v') q := by
  obtain ⟨d, hprinted, hshows⟩ := hlegible
  -- JSON has no limit for the depth but that of its own text, and the tree is the value itself.
  have hjson : read Member.source (.ofValue p.toJson) = .ok p :=
    gives_read (k := 0) Member.laws rfl
  have hyaml : Place.format.Gives (read Place.source { node := d.root }) p :=
    gives_read Place.laws ⟨hshows, (by decide : 0 + 8 ≤ maxDepth)⟩
  refine ⟨⟨?_, fromYaml_eq_ok hprinted hyaml⟩, ?_, ?_, ?_⟩
  · exact (fromJson_eq_ok_iff (Json.Node.parse?_pretty p.whole_toJson)).mpr hjson
  · intro text text' t t' ht ht' hvariant q
    rw [fromJson_eq_ok_iff ht, fromJson_eq_ok_iff ht']
    exact (keeps_read Member.laws).gives_iff hvariant q
  · intro text e e' he he' hvariant
    -- The printed text has one document, and it is the one that shows the policy.
    obtain rfl : d = e := Option.some.inj (hprinted.symm.trans he)
    exact fromYaml_eq_ok he' (((keeps_read Place.laws).gives_iff hvariant p).mp hyaml)
  · exact fun v v' hvariant => (keeps_read Place.laws).gives_iff hvariant

/-- A policy that opens one port to all pods of its namespace; its name has to be quoted. -/
def nullPolicy : NetworkPolicy where
  metadata := { name := "null" }
  spec := { ingress := [{ peers := [{ pods := some {} }], ports := [{ port := some 80 }] }] }

/-- The policy as YAML. -/
def nullPolicyYaml : String :=
"apiVersion: networking.k8s.io/v1
kind: NetworkPolicy
metadata:
  name: 'null'
  namespace: ''
spec:
  podSelector: {}
  policyTypes: []
  ingress:
  - from:
    - podSelector: {}
    ports:
    - protocol: TCP
      port: 80
"

/-- The policy as it may come from a cluster: with a status, and in another order. -/
def nullPolicyLive : Json :=
  .object [("status", .object []), ("spec", nullPolicy.spec.toJson),
    ("metadata", nullPolicy.metadata.toJson), ("kind", .string nullPolicy.kind),
    ("apiVersion", .string nullPolicy.apiVersion)]

theorem print_nullPolicy : Yaml.print nullPolicy.toJson = nullPolicyYaml := by
  have htree : nullPolicy.toJson = .object
      [("apiVersion", .string "networking.k8s.io/v1"), ("kind", .string "NetworkPolicy"),
        ("metadata", .object [("name", .string "null"), ("namespace", .string "")]),
        ("spec", .object [("podSelector", .object []), ("policyTypes", .array []),
          ("ingress", .array [.object
            [("from", .array [.object [("podSelector", .object [])]]),
              ("ports", .array [.object [("protocol", .string "TCP"), ("port", .int 80)]])]])])] :=
    rfl
  rw [htree]
  -- The printer goes down the tree by its equations; the scalars are left to be computed.
  simp only [Yaml.print, Yaml.entries, Yaml.below, Yaml.beside, Yaml.items, Json.int]
  decide +kernel

theorem legible_nullPolicy : Yaml.Legible nullPolicy.toJson := by
  have hread : (Yaml.Document.parse? nullPolicyYaml).any
      (fun d => d.root.shows nullPolicy.toJson) = true := by decide +kernel
  rw [← print_nullPolicy] at hread
  exact (Option.any_eq_true _ _).mp hread

theorem nullPolicy_survives : Yaml.Legible nullPolicy.toJson ∧
    fromJson nullPolicy.toJson.pretty = .ok nullPolicy ∧
    fromYaml nullPolicyYaml = .ok nullPolicy ∧
    fromJson nullPolicyLive.pretty = .ok nullPolicy := by
  obtain ⟨⟨hjson, hyaml⟩, hvariants, -⟩ := nullPolicy.survives_serialization legible_nullPolicy
  have hlive : nullPolicyLive.Whole := by
    refine .object (List.forall_mem_cons.mpr ⟨.object (List.forall_mem_nil _), ?_⟩)
    refine List.forall_mem_cons.mpr ⟨nullPolicy.spec.whole_toJson, ?_⟩
    refine List.forall_mem_cons.mpr ⟨nullPolicy.metadata.whole_toJson, ?_⟩
    exact List.forall_mem_cons.mpr ⟨.string _, List.forall_mem_singleton.mpr (.string _)⟩
  have hvariant : Variant Member.format (.ofValue nullPolicy.toJson) (.ofValue nullPolicyLive) := by
    have hstatus : ∀ e ∈ [("status", Json.Node.object [])],
        e.1 ∉ ["apiVersion", "kind", "metadata", "spec"] := by simp
    -- The live policy has the same members with a status, and in the opposite order.
    exact variant_of_perm (Member.isObject_ofValue _) (Member.isObject_ofValue _) hstatus
      (List.reverse_perm _).symm
  rw [print_nullPolicy] at hyaml
  refine ⟨legible_nullPolicy, hjson, hyaml, ?_⟩
  exact (hvariants _ _ _ _ (Json.Node.parse?_pretty nullPolicy.whole_toJson)
    (Json.Node.parse?_pretty hlive) hvariant _).mp hjson

end Texts

end WorkflowPolicy.NetworkPolicy
