import WorkflowPolicy.Proofs.Draft.Declared
import WorkflowPolicy.Proofs.Reading.Aliases
import WorkflowPolicy.Proofs.Yaml.Equality
import WorkflowPolicy.Proofs.Yaml.Plain

/-!
# Versions without quotes

The version of a workflow is a text of digits with a point, and such a text is a number if it stands
without quotes. A field for one text takes a number too, and writes it as a text. So the version
comes back as it is written only if the number is written in this way: `unquoted_version_iff`.

The entries around the version are a `Frame`, and the document is that of the frame with one scalar
or another. Two scalars that are read as the same text are exchanged without a difference
(`Frame.parse_congr`).
-/

namespace WorkflowPolicy

open Yaml (Node Document Scalar Style Kept pointedText rendered nearest)
open Decimal (IsDigits)
open Reading (Place Read Field)
open Reading.Place (OwnField setsPart_optional keepsPart_optional)

/-! ### A scalar as a text -/

namespace Reading.Place

variable {p : Place} {anchor : Option Nat} {text : String}

/-- The value of a scalar without a tag. -/
theorem value_scalar {s : Scalar} (h : p.node = .scalar anchor s) (htag : s.tag = none)
    (latitude : Latitude) :
    p.value latitude = p.locate (scalarValue latitude.wanted s false) := by
  have hfollow : p.follow = pure p := follow_eq_pure fun k => by simp [h]
  rw [value, valueWithin, hfollow, pure_bind, h]
  simp only [tagOf, htag, untaggedValue, h]
  rfl

/-- **A quoted scalar is its text.** -/
theorem scalar_quoted {style : Style} (hstyle : style ≠ .plain)
    (h : p.node = .scalar anchor ⟨text, style, none⟩) : p.scalar = pure text := by
  have hfollow : p.follow = pure p := follow_eq_pure fun k => by simp [h]
  have hvalue : p.value .any = pure (.text text) := by
    -- A style other than plain is asked for first, and then the text has no other meaning.
    rw [value_scalar h rfl, scalarValue, meaning, Scalar.meaning]
    simp only [Bool.false_eq_true, if_false, beq_iff_eq, hstyle]
    rfl
  -- For the same reason the text is not taken for nothing, even if it is `null` or empty.
  rw [scalar, option, hfollow, pure_bind, h]
  simp only [bne_iff_ne, ne_eq, hstyle, not_false_eq_true, if_true, hvalue]
  rfl

/-- **Digits with a point, without quotes**, are the text of the number. -/
theorem scalar_pointed {a b : List Char} (ha : IsDigits a) (hb : IsDigits b)
    (h : p.node = .scalar anchor ⟨pointedText a b, .plain, none⟩) :
    p.scalar = pure (rendered a b) := by
  have hfollow : p.follow = pure p := follow_eq_pure fun k => by simp [h]
  -- The digits mean a number, unless it is too large for one.
  have hvalue : p.value .any = pure (if (nearest a b).isFinite then
      .number (.real (nearest a b)) else .text (pointedText a b)) := by
    rw [value_scalar h rfl, scalarValue, meaning, Scalar.meaning]
    simp only [Bool.false_eq_true, if_false, beq_self_eq_true, if_true,
      Yaml.plainMeaning_pointedText ha hb]
    split <;> rfl
  rw [scalar, option, hfollow, pure_bind, h]
  -- Digits are neither nothing nor left out, so the value is what is there.
  simp only [bne_self_eq_false, Bool.false_eq_true, if_false, hvalue, rendered,
    Yaml.isNull_pointedText ha, Yaml.isEmpty_pointedText ha, Bool.or_false]
  split <;> rfl

end Reading.Place

/-! ### The readers of drafts -/

namespace Draft

open Reading (Compositional)

section Readers

variable {P : ∀ α : Type, Read α → Prop} {α σ : Type} (h : Compositional P)

include h

theorem holds_optional {name : String} {read : Place → Read α} {set : α → σ → σ}
    (hread : ∀ p, P α (read p)) (p : Place) : P _ ((Field.optional name read set).read p) :=
  h.map (hread p) set

theorem holds_scalarField (name : String) (set : String → σ → σ) (p : Place) :
    P _ ((scalarField name set).read p) := h.map (h.scalar p) set

theorem holds_readTrigger (p : Place) : P _ (Trigger.read p) := by
  refine h.record ?_ _ _ p
  simp only [Trigger.fields, List.forall_mem_cons]
  exact ⟨holds_scalarField h _ _, holds_scalarField h _ _, holds_scalarField h _ _,
    holds_scalarField h _ _, holds_scalarField h _ _, List.forall_mem_nil _⟩

theorem holds_readStep (p : Place) : P _ (readStep p) := by
  refine h.record ?_ _ _ p
  simp only [List.forall_mem_cons]
  exact ⟨holds_scalarField h _ _, holds_optional h (h.table h.text), List.forall_mem_nil _⟩

theorem holds_readEdge (p : Place) : P _ (readEdge p) := by
  refine h.record ?_ _ _ p
  simp only [List.forall_mem_cons]
  exact ⟨holds_scalarField h _ _, holds_scalarField h _ _, List.forall_mem_nil _⟩

theorem holds_readAuth (p : Place) : P _ (readAuth p) := by
  refine h.record ?_ _ _ p
  simp only [List.forall_mem_cons]
  exact ⟨holds_scalarField h _ _, holds_scalarField h _ _, List.forall_mem_nil _⟩

theorem holds_readDeployment (p : Place) : P _ (readDeployment p) := by
  refine h.record ?_ _ _ p
  simp only [List.forall_mem_cons]
  exact ⟨holds_scalarField h _ _, List.forall_mem_nil _⟩

theorem holds_readExecution (p : Place) : P _ (Execution.read p) := by
  refine h.bind (h.openRecord ?_ _ _ p) fun _ => h.pure _
  simp only [Execution.fields, List.forall_mem_cons]
  exact ⟨holds_scalarField h _ _, holds_optional h (h.option (h.unsigned _ _)),
    List.forall_mem_nil _⟩

theorem holds_readEgress (p : Place) : P _ (Egress.read p) := by
  refine h.record ?_ _ _ p
  simp only [Egress.fields, List.forall_mem_cons]
  exact ⟨holds_scalarField h _ _, holds_optional h (h.items h.text), holds_scalarField h _ _,
    List.forall_mem_nil _⟩

theorem holds_readOverride (p : Place) : P _ (readOverride p) := by
  refine h.record ?_ _ _ p
  simp only [List.forall_mem_cons]
  exact ⟨holds_optional h (h.items (holds_readEgress h)), List.forall_mem_nil _⟩

theorem holds_readDependency (p : Place) : P _ (Dependency.read p) := by
  refine h.bind (h.openRecord ?_ _ _ p) fun _ => h.pure _
  simp only [Dependency.fields, List.forall_mem_cons]
  exact ⟨holds_scalarField h _ _, holds_scalarField h _ _,
    holds_optional h (h.option (holds_readAuth h)), holds_scalarField h _ _,
    holds_optional h (h.items h.text), holds_scalarField h _ _,
    holds_optional h (h.option h.signed), holds_scalarField h _ _, holds_scalarField h _ _,
    holds_scalarField h _ _, holds_scalarField h _ _, holds_scalarField h _ _,
    List.forall_mem_nil _⟩

theorem holds_readContract (p : Place) : P _ (Contract.read p) := by
  refine h.bind (h.openRecord ?_ _ _ p) fun _ => h.pure _
  simp only [Contract.fields, List.forall_mem_cons]
  exact ⟨holds_scalarField h _ _, holds_optional h (h.option (h.table (holds_readDependency h))),
    fun p => h.map (h.option (holds_readOverride h) p) _, List.forall_mem_nil _⟩

/-- What holds of every reader holds of those of the fields of a workflow. -/
theorem holds_fields : ∀ f ∈ Workflow.fields, ∀ p, P _ (f.read p) := by
  simp only [Workflow.fields, List.forall_mem_cons]
  exact ⟨holds_scalarField h _ _, holds_scalarField h _ _, holds_scalarField h _ _,
    holds_optional h (h.items (holds_readTrigger h)),
    holds_optional h (h.table (holds_readStep h)), holds_optional h (h.items (holds_readEdge h)),
    holds_optional h (holds_readExecution h), holds_optional h (holds_readDeployment h),
    holds_optional h (h.option (holds_readContract h)), holds_optional h (h.table h.json),
    List.forall_mem_nil _⟩

end Readers

theorem ownField_version (d : Document) :
    OwnField d Workflow.fields "version" Workflow.version Place.scalar where
  present := by simp [Workflow.fields, scalarField, Reading.Field.optional]
  each := by
    simp only [Workflow.fields, List.forall_mem_cons]
    -- Only the second field sets the version. Each of the others keeps it, whatever it reads.
    refine ⟨.inr ?_, .inl ?_, .inr ?_, .inr ?_, .inr ?_, .inr ?_, .inr ?_, .inr ?_, .inr ?_,
      .inr ?_, fun _ h => absurd h List.not_mem_nil⟩
    case refine_2 => exact setsPart_optional fun _ _ => rfl
    all_goals exact keepsPart_optional (by decide) fun _ _ => rfl

theorem Check.version_built_workflow (draft : Workflow) :
    (built (workflow draft)).version = draft.version := by
  unfold workflow
  -- The contract is checked in another record, and the version is kept with it and without.
  cases draft.contract <;> simp

/-! ### Documents that differ in the version -/

/-- **What stands around the version** in the document of a workflow. Neither the whole nor the
version has an anchor, so no alias stands for them. -/
structure Frame where
  /-- The tag of the whole. -/
  tag : Option String := none
  before : List (Node Nat × Node Nat) := []
  /-- The anchor, the style and the tag of the key. -/
  keyAnchor : Option Nat := none
  keyStyle : Style := .plain
  keyTag : Option String := none
  after : List (Node Nat × Node Nat) := []

namespace Frame

/-- The entry of the version. -/
def entry (f : Frame) (version : Scalar) : Node Nat × Node Nat :=
  (.scalar f.keyAnchor ⟨"version", f.keyStyle, f.keyTag⟩, .scalar none version)

/-- The document with the version. -/
def document (f : Frame) (version : Scalar) : Document :=
  .ofRoot (.mapping none f.tag (f.before ++ f.entry version :: f.after))

theorem anchoredEntries_append (es es' : List (Node Nat × Node Nat)) :
    Node.anchoredEntries (es ++ es') = Node.anchoredEntries es ++ Node.anchoredEntries es' := by
  induction es with
  | nil => rfl
  | cons e es ih =>
    rw [List.cons_append, Node.anchoredEntries, Node.anchoredEntries, ih]
    simp only [List.append_assoc]

theorem sizeEntries_append (es es' : List (Node Nat × Node Nat)) :
    Node.sizeEntries (es ++ es') = Node.sizeEntries es + Node.sizeEntries es' := by
  induction es with
  | nil => rw [List.nil_append, Node.sizeEntries, Nat.zero_add]
  | cons e es ih =>
    rw [List.cons_append, Node.sizeEntries, Node.sizeEntries, ih]
    simp only [Nat.add_assoc]

/-- Aliases do not stand for the version. -/
theorem sameAliases (f : Frame) (s s' : Scalar) : (f.document s).SameAliases (f.document s') where
  targets := by
    -- The entries before and after stay as they are, and the one between them has no anchor.
    have hnamed : ∀ s : Scalar, (f.document s).targets =
        (Node.anchoredEntries (f.before ++ f.entry s :: f.after)).reverse := fun _ => rfl
    rw [hnamed, hnamed, anchoredEntries_append, anchoredEntries_append]
    rfl
  size := by
    have hsize : ∀ s : Scalar, (f.document s).size =
        Node.sizeEntries (f.before ++ f.entry s :: f.after) + 2 := fun _ => rfl
    rw [hsize, hsize, sizeEntries_append, sizeEntries_append]
    rfl

end Frame

/-- The scalar is read as the text. -/
def ReadsAs (s : Scalar) (text : String) : Prop :=
  ∀ p : Place, p.node = .scalar none s → p.scalar = pure text

/-- **Scalars that are read as the same text** are exchanged without a difference. -/
theorem Frame.parse_congr (f : Frame) {s s' : Scalar} {version text text' : String}
    (h : ReadsAs s version) (h' : ReadsAs s' version)
    (htext : Document.parse? text = some (f.document s))
    (htext' : Document.parse? text' = some (f.document s')) :
    WorkflowPolicy.Workflow.parse text = WorkflowPolicy.Workflow.parse text' := by
  have hfind : Workflow.fields.find? (·.answers "version") =
      some (scalarField "version" fun v w => { w with version := v }) := rfl
  have hrun : (Workflow.read { node := (f.document s).root }).run (f.document s) =
      (Workflow.read { node := (f.document s').root }).run (f.document s') := by
    -- All fields but the version are the same entries, and their readers do not look at the root.
    refine Reading.Place.run_record_congr (f.sameAliases s s') (holds_fields Reading.rootFree) hfind
      (fun path room => ?_) none f.tag .root Reading.maxDepth "WorkflowDocument" {}
    -- Both scalars are read as one text, so the two readers of the version do the same.
    change (_ <$> Place.scalar ⟨.scalar none s, path, room⟩ : Read _).run (f.document s) =
      (_ <$> Place.scalar ⟨.scalar none s', path, room⟩ : Read _).run (f.document s')
    rw [h _ rfl, h' _ rfl]
    rfl
  unfold WorkflowPolicy.Workflow.parse Reading.fromYaml
  rw [htext, htext']
  simp only [hrun]

/-- **The version of a workflow** is the text as which its scalar is read. -/
theorem Frame.version_of_parse (f : Frame) {s : Scalar} {version text : String}
    {w : WorkflowPolicy.Workflow} (h : ReadsAs s version)
    (htext : Document.parse? text = some (f.document s))
    (hparse : WorkflowPolicy.Workflow.parse text = .ok w) : w.version = version := by
  obtain ⟨draft, hread, -, rfl⟩ := exists_draft_of_parse hparse
  obtain ⟨d, hd, hyields⟩ := exists_yields_of_fromYaml hread
  -- There is one document of the text, and it has the entry of the version.
  obtain rfl : f.document s = d := Option.some.inj (htext.symm.trans hd)
  have hmem : f.entry s ∈ (f.document s).entries (f.document s).root :=
    List.mem_append_right f.before List.mem_cons_self
  -- The version of the draft is what that entry is read as, and the check does not change it.
  obtain ⟨q, hq, hscalar⟩ := (ownField_version _).of_mem_of_yields_record hyields hmem rfl
  rw [h q hq] at hscalar
  rw [Check.version_built_workflow]
  exact Reading.eq_of_yields_pure hscalar

end Draft

namespace Workflow

open Draft (Frame ReadsAs)

/-- **Versions without quotes.** Two texts have the same document, but that the version stands
without quotes in the one and in quotes in the other, as digits `a` and `b` with a point between
them.

* If the text `a.b` is kept, both are read alike, whether or not there is something wrong with them.
* A workflow that is read from the second text has the version `a.b`, and the first text is read as
  the same workflow exactly if the text is kept.
* In any case the first text is read like the one with the rendered text in quotes.
* The text is kept if it has no needless zeros, no more than fifteen digits, and no five zeros right
  behind `0.`. -/
theorem unquoted_version_iff {a b : List Char} (ha : IsDigits a) (hb : IsDigits b) (f : Frame)
    {style : Style} (hstyle : style ≠ .plain) {plain quoted : String}
    (hplain : Document.parse? plain = some (f.document ⟨pointedText a b, .plain, none⟩))
    (hquoted : Document.parse? quoted = some (f.document ⟨pointedText a b, style, none⟩)) :
    (Kept a b → parse plain = parse quoted) ∧
    (∀ w, parse quoted = .ok w →
      w.version = pointedText a b ∧ (parse plain = .ok w ↔ Kept a b)) ∧
    (∀ text, Document.parse? text = some (f.document ⟨rendered a b, style, none⟩) →
      parse plain = parse text) ∧
    (Decimal.Plain a b → Decimal.Short a b → a.length + b.length ≤ 15 → Kept a b) := by
  have hread : ReadsAs ⟨pointedText a b, .plain, none⟩ (rendered a b) := fun _ =>
    Reading.Place.scalar_pointed ha hb
  have hreadQuoted : ∀ version, ReadsAs ⟨version, style, none⟩ version := fun _ _ =>
    Reading.Place.scalar_quoted hstyle
  have hkept : Kept a b → parse plain = parse quoted := by
    intro hkept
    rw [(Yaml.rendered_eq_iff ha hb).mpr hkept] at hread
    exact f.parse_congr hread (hreadQuoted _) hplain hquoted
  refine ⟨hkept, fun w hw => ⟨?_, fun hw' => ?_, fun h => (hkept h).trans hw⟩, fun text htext => ?_,
    Yaml.kept_of_digits ha hb⟩
  · exact f.version_of_parse (hreadQuoted _) hquoted hw
  · -- One workflow has one version.
    have hversion := f.version_of_parse hread hplain hw'
    rw [f.version_of_parse (hreadQuoted _) hquoted hw] at hversion
    exact (Yaml.rendered_eq_iff ha hb).mp hversion.symm
  · exact f.parse_congr hread (hreadQuoted _) hplain htext

/-- A workflow with the given version. -/
def versionedText (version : String) : String :=
  "name: release\nversion: " ++ version ++
    "\ntriggers:\n- type: manual\nnodes:\n  fetch:\n    path: fetch.ts\n"

/-- What stands around its version. -/
def versionedFrame : Frame where
  before := [(word "name", word "release")]
  after :=
    [(word "triggers", .sequence none none [.mapping none none [(word "type", word "manual")]]),
      (word "nodes", .mapping none none
        [(word "fetch", .mapping none none [(word "path", word "fetch.ts")])])]
where
  /-- A plain scalar. -/
  word (text : String) : Node Nat := .scalar none ⟨text, .plain, none⟩

/-- **Version 1.10 without quotes is version 1.1.** With quotes it is 1.10; version 1.2 is the same
with and without. -/
theorem release_versions :
    (∃ w, parse (versionedText "\"1.10\"") = .ok w ∧ w.version = "1.10" ∧
      parse (versionedText "1.10") ≠ .ok w) ∧
    (∃ w, parse (versionedText "1.10") = .ok w ∧ w.version = "1.1" ∧
      parse (versionedText "\"1.1\"") = .ok w) ∧
    ¬ Kept ['1'] ['1', '0'] ∧
    Kept ['1'] ['2'] ∧ parse (versionedText "1.2") = parse (versionedText "\"1.2\"") := by
  have hone : IsDigits ['1'] := by decide
  have hten : IsDigits ['1', '0'] := by decide
  have htwo : IsDigits ['2'] := by decide
  have hquotes : Style.doubleQuoted ≠ .plain := by decide
  have hparts : Document.parse? (versionedText "1.10") =
        some (versionedFrame.document ⟨pointedText ['1'] ['1', '0'], .plain, none⟩) ∧
      Document.parse? (versionedText "\"1.10\"") =
        some (versionedFrame.document ⟨pointedText ['1'] ['1', '0'], .doubleQuoted, none⟩) ∧
      Document.parse? (versionedText "\"1.1\"") =
        some (versionedFrame.document ⟨rendered ['1'] ['1', '0'], .doubleQuoted, none⟩) := by
    decide +kernel
  have hparts' : Document.parse? (versionedText "1.2") =
        some (versionedFrame.document ⟨pointedText ['1'] ['2'], .plain, none⟩) ∧
      Document.parse? (versionedText "\"1.2\"") =
        some (versionedFrame.document ⟨pointedText ['1'] ['2'], .doubleQuoted, none⟩) := by
    decide +kernel
  obtain ⟨-, hversion, hrendered, -⟩ :=
    unquoted_version_iff hone hten versionedFrame hquotes hparts.1 hparts.2.1
  obtain ⟨hsame, -, -, hkept⟩ :=
    unquoted_version_iff hone htwo versionedFrame hquotes hparts'.1 hparts'.2
  -- The rendered text of 1.10 is 1.1, and so the text is not kept.
  have hlost : ¬ Kept ['1'] ['1', '0'] := by
    rw [← Yaml.rendered_eq_iff hone hten]
    decide +kernel
  have htwoKept : Kept ['1'] ['2'] :=
    hkept ⟨.inr (by decide), .inr (by decide)⟩ ⟨by decide, by decide⟩ (by decide)
  -- So the text without quotes is read like the one with `1.1` in quotes.
  have hplain := hrendered _ hparts.2.2
  refine ⟨?_, ?_, hlost, htwoKept, hsame htwoKept⟩
  · obtain ⟨w, hw, -⟩ : ∃ w, parse (versionedText "\"1.10\"") = .ok w ∧ True :=
      exists_parse (by decide +kernel)
    exact ⟨w, hw, (hversion w hw).1, fun hw' => hlost ((hversion w hw).2.mp hw')⟩
  · obtain ⟨w, hw, hone⟩ : ∃ w, parse (versionedText "\"1.1\"") = .ok w ∧ w.version = "1.1" :=
      exists_parse (by decide +kernel)
    exact ⟨w, hplain.trans hw, hone, hw⟩

end Workflow

end WorkflowPolicy
