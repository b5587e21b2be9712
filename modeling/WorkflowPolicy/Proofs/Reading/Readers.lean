import WorkflowPolicy.Reading.Yaml

/-!
# What holds of every reader

The readers of YAML are put together from few things: a value or a fault at once, one action after
another, a place for faults that have none, and the node for which an alias stands. A property of
actions that holds of these and is kept by putting them together is `Compositional`, and then it
holds of every reader. The lemmas go through the readers in the order of their definitions.
-/

namespace WorkflowPolicy.Reading

open Yaml (Node Scalar Value)

/-- **A property of actions that is kept by putting them together.** -/
structure Compositional (P : ∀ α : Type, Read α → Prop) : Prop where
  pure {α : Type} (a : α) : P α (pure a)
  refuse {α : Type} (cause : Cause) : P α (refuse cause)
  bind {α β : Type} {x : Read α} {f : α → Read β} (hx : P α x) (hf : ∀ a, P β (f a)) :
    P β (x >>= f)
  locate {α : Type} {x : Read α} (hx : P α x) (p : Place) : P α (p.locate x)
  follow (p : Place) : P Place p.follow

variable {P : ∀ α : Type, Read α → Prop} {α β σ : Type}

section Basic

variable (h : Compositional P)

include h

/-! ### Parts of readers -/

theorem Compositional.map {x : Read α} (hx : P α x) (f : α → β) : P β (f <$> x) := by
  rw [map_eq_pure_bind]
  exact h.bind hx fun _ => h.pure _

theorem Compositional.mapM {f : α → Read β} (hf : ∀ a, P β (f a)) (as : List α) :
    P (List β) (as.mapM f) := by
  induction as with
  | nil =>
    rw [List.mapM_nil]
    exact h.pure _
  | cons a as ih =>
    rw [List.mapM_cons]
    exact h.bind (hf a) fun _ => h.bind ih fun _ => h.pure _

theorem Compositional.meaning (s : Scalar) (tagSeen : Bool) : P _ (Place.meaning s tagSeen) := by
  rw [Place.meaning]
  split
  · exact h.pure _
  · exact h.refuse _

theorem Compositional.unexpected (node : Node Nat) (wanted : String) :
    P α (Place.unexpected node wanted) := by
  unfold Place.unexpected
  split
  · exact h.bind (h.meaning _ false) fun _ => h.refuse _
  · exact h.refuse _
  · exact h.refuse _

theorem Compositional.enter (p : Place) : P _ p.enter := by
  rw [Place.enter]
  split
  · exact h.refuse _
  · exact h.pure _

theorem Compositional.itemsOf (wanted : String) (p : Place) : P _ (p.itemsOf wanted) := by
  rw [Place.itemsOf]
  split
  · exact h.bind (h.enter p) fun _ => h.pure _
  · -- An empty scalar stands for an empty collection, any other is refused.
    split
    · exact h.pure _
    · exact h.unexpected _ _
  · exact h.unexpected _ _

theorem Compositional.entriesOf (wanted : String) (p : Place) : P _ (p.entriesOf wanted) := by
  rw [Place.entriesOf]
  split
  · exact h.bind (h.enter p) fun _ => h.pure _
  · split
    · exact h.pure _
    · exact h.unexpected _ _
  · exact h.unexpected _ _

/-! ### Scalars and collections -/

theorem Compositional.scalarText (wanted : String) (p : Place) : P _ (p.scalarText wanted) := by
  rw [Place.scalarText]
  refine h.bind (h.follow p) fun p => h.locate ?_ p
  split
  · exact h.pure _
  · exact h.unexpected _ _

theorem Compositional.text (p : Place) : P _ p.text := h.scalarText "a string" p

theorem Compositional.integer (form : List Char → Option Int) (fits : Int → Bool)
    (wanted : String) (p : Place) : P _ (p.integer form fits wanted) := by
  rw [Place.integer]
  refine h.bind (h.follow p) fun p => h.locate ?_ p
  split
  · -- Only the form and the range of the number decide, and both are pure. What is left are the
    -- ways out.
    split
    · split
      · exact h.pure _
      · exact h.refuse _
    · exact h.unexpected _ _
  · exact h.unexpected _ _

theorem Compositional.signed (p : Place) : P _ p.signed := h.integer _ _ _ p

theorem Compositional.unsigned (limit : Nat) (wanted : String) (p : Place) :
    P _ (p.unsigned limit wanted) := h.map (h.integer _ _ _ p) _

theorem Compositional.port (p : Place) : P _ p.port := h.map (h.unsigned _ _ p) _

theorem Compositional.option {value : Place → Read α} (hvalue : ∀ p, P α (value p)) (p : Place) :
    P _ (p.option value) := by
  -- Every way to a value ends with the reader of the value, so it is stated for it once.
  have hsome : ∀ p, P _ (some <$> value p) := fun p => h.map (hvalue p) some
  rw [Place.option]
  refine h.bind (h.follow p) fun p => ?_
  split
  · split
    · exact hsome p
    · split
      · split
        · split
          · exact h.pure _
          · exact h.refuse _
        · exact hsome p
      · split
        · exact h.pure _
        · exact hsome p
  · exact hsome p

theorem Compositional.items {value : Place → Read α} (hvalue : ∀ p, P α (value p)) (p : Place) :
    P _ (p.items value) := by
  rw [Place.items]
  refine h.bind (h.follow p) fun p => h.locate ?_ p
  exact h.bind (h.itemsOf _ p) fun places => h.mapM hvalue places

theorem Compositional.table {value : Place → Read α} (hvalue : ∀ p, P α (value p)) (p : Place) :
    P _ (p.table value) := by
  rw [Place.table]
  refine h.bind (h.follow p) fun p => h.locate ?_ p
  refine h.bind (h.entriesOf _ p) fun entries => ?_
  refine h.bind (h.mapM (fun e => ?_) entries) fun _ => h.pure _
  exact h.bind (h.text _) fun _ => h.bind (hvalue _) fun _ => h.pure _

theorem Compositional.known (names : List String) (found : String) :
    P _ (Place.known names found) := by
  rw [Place.known]
  split
  · exact h.pure _
  · exact h.refuse _

theorem Compositional.nothing (p : Place) : P _ p.nothing := by
  rw [Place.nothing]
  split
  · split
    · exact h.pure _
    · exact h.bind (h.meaning _ true) fun _ => h.refuse _
  · exact h.unexpected _ _

theorem Compositional.name (names : List String) (p : Place) : P _ (p.name names) := by
  rw [Place.name]
  refine h.bind (h.follow p) fun p => h.locate ?_ p
  split
  · exact h.bind (h.known _ _) fun _ => h.bind (h.nothing p) fun _ => h.pure _
  · exact h.known _ _
  · exact h.unexpected _ _

/-! ### Records -/

theorem Compositional.fieldsOf {fields : List (Field Read Place σ)}
    {other : String → Place → Read β} (hfields : ∀ f ∈ fields, ∀ p, P _ (f.read p))
    (hother : ∀ name p, P β (other name p)) (entries : List (Place × Place)) (seen : List String)
    (draft : σ) (others : List β) :
    P _ (Place.fieldsOf fields other entries seen draft others) := by
  -- The names met so far and the draft change from entry to entry, so they are general.
  induction entries generalizing seen draft others with
  | nil => exact h.pure _
  | cons e entries ih =>
    rw [Place.fieldsOf]
    refine h.bind (h.scalarText _ _) fun name => ?_
    split
    · next f hfind =>
      split
      · exact h.refuse _
      · exact h.bind (hfields f (List.mem_of_find?_eq_some hfind) _) fun change => ih _ _ _
    · -- The entry is of no field, and is read or skipped by the reader for the others.
      exact h.bind (hother name _) fun _ => ih _ _ _

/-- The end of a record. -/
theorem Compositional.unless_missing (fields : List (Field Read Place σ)) (seen : List String)
    (draft : σ) : P σ (match Place.missing fields seen with
      | some cause => Reading.refuse cause
      | none => Pure.pure draft) := by
  split
  · exact h.refuse _
  · exact h.pure _

theorem Compositional.record {fields : List (Field Read Place σ)}
    (hfields : ∀ f ∈ fields, ∀ p, P _ (f.read p)) (title : String) (draft : σ) (p : Place) :
    P σ (p.record title fields draft) := by
  rw [Place.record]
  refine h.bind (h.follow p) fun p => h.locate ?_ p
  refine h.bind (h.entriesOf _ p) fun entries => ?_
  exact h.bind (h.fieldsOf hfields (fun _ _ => h.pure ()) entries [] draft [])
    fun r => h.unless_missing fields r.1 r.2.1

/-! ### Values of any type -/

theorem Compositional.scalarValue (wanted : String) (s : Scalar) (tagSeen : Bool) :
    P _ (Place.scalarValue wanted s tagSeen) := by
  rw [Place.scalarValue]
  refine h.bind (h.meaning s tagSeen) fun m => ?_
  cases m with
  -- The number out of range is the only meaning that is refused.
  | wide n => exact h.refuse _
  | _ => exact h.pure _

theorem Compositional.valueEntries (latitude : Place.Latitude) {value : Place → Read Value}
    (hvalue : ∀ p, P _ (value p)) (entries : List (Place × Place)) (done : List (Value × Value)) :
    P _ (Place.valueEntries latitude value entries done) := by
  induction entries generalizing done with
  | nil => exact h.pure _
  | cons e entries ih =>
    rw [Place.valueEntries]
    refine h.bind (hvalue _) fun key => ?_
    split
    · exact h.refuse _
    · exact h.bind (hvalue _) fun _ => ih _

theorem Compositional.untaggedValue (latitude : Place.Latitude) {value : Place → Read Value}
    (hvalue : ∀ p, P _ (value p)) (tagSeen : Bool) (p : Place) :
    P _ (Place.untaggedValue latitude value tagSeen p) := by
  unfold Place.untaggedValue
  split
  · exact h.scalarValue _ _ _
  · exact h.bind (h.itemsOf _ p) fun places => h.bind (h.mapM hvalue places) fun _ => h.pure _
  · exact h.bind (h.entriesOf _ p) fun entries =>
      h.bind (h.valueEntries latitude hvalue entries []) fun _ => h.pure _

theorem Compositional.valueWithin (latitude : Place.Latitude) (depth : Nat) (p : Place) :
    P _ (p.valueWithin latitude depth) := by
  -- One level of the value is a reader put together from the reader of the level below, and the
  -- hypothesis is for that.
  induction depth generalizing p with
  | zero => exact h.refuse _
  | succ depth ih =>
    rw [Place.valueWithin]
    refine h.bind (h.follow p) fun p => h.locate ?_ p
    split
    · exact h.untaggedValue latitude ih false p
    · split
      · exact h.map (h.untaggedValue latitude ih true p) _
      · -- Where tags are not kept, one is refused before its value is read.
        exact h.refuse _

theorem Compositional.scalar (p : Place) : P _ p.scalar := by
  -- A scalar is a value of any type that is tested afterwards.
  refine h.bind (h.option (fun p => h.valueWithin .any _ p) p) fun found => ?_
  split
  · exact h.pure _
  · exact h.pure _
  · exact h.pure _
  · exact h.pure _
  · exact h.pure _
  · exact h.refuse _

/-! ### Free-form values -/

theorem Compositional.scalarJson (s : Scalar) : P _ (Place.scalarJson s) := by
  rw [Place.scalarJson]
  refine h.bind (h.meaning s false) fun m => ?_
  cases m with
  | wide n => exact h.refuse _
  | _ => exact h.pure _

theorem Compositional.jsonWithin (depth : Nat) (p : Place) : P _ (p.jsonWithin depth) := by
  -- As for values of any type, the depth is the measure of the reader.
  induction depth generalizing p with
  | zero => exact h.refuse _
  | succ depth ih =>
    rw [Place.jsonWithin]
    refine h.bind (h.follow p) fun p => h.locate ?_ p
    split
    · exact h.refuse _
    · split
      · exact h.scalarJson _
      · exact h.bind (h.itemsOf _ p) fun places => h.bind (h.mapM ih places) fun _ => h.pure _
      · refine h.bind (h.entriesOf _ p) fun entries => ?_
        refine h.bind (h.mapM (fun e => ?_) _) fun _ => h.pure _
        exact h.bind (h.scalarText _ _) fun _ => h.bind (ih _) fun _ => h.pure _

theorem Compositional.json (p : Place) : P _ p.json := h.jsonWithin _ p

end Basic

mutual

theorem Compositional.jsonOf (h : Compositional P) : ∀ value : Value, P _ (Place.jsonOf value)
  | .null | .bool _ | .number (.int _) | .number (.real _) | .text _ => by
    unfold Place.jsonOf
    exact h.pure _
  | .sequence items => by
    unfold Place.jsonOf
    exact h.bind (Compositional.jsonItems h items) fun _ => h.pure _
  | .mapping entries => by
    unfold Place.jsonOf
    exact h.bind (Compositional.jsonMembers h true entries) fun _ => h.pure _
  | .tagged _ value => by
    unfold Place.jsonOf
    exact Compositional.jsonOf h value

theorem Compositional.jsonItems (h : Compositional P) :
    ∀ items : List Value, P _ (Place.jsonItems items)
  | [] => h.pure _
  | item :: rest => by
    unfold Place.jsonItems
    exact h.bind (Compositional.jsonOf h item) fun _ =>
      h.bind (Compositional.jsonItems h rest) fun _ => h.pure _

theorem Compositional.jsonMembers (h : Compositional P) :
    ∀ (isFirst : Bool) (entries : List (Value × Value)), P _ (Place.jsonMembers isFirst entries)
  | _, [] => h.pure _
  | _, (key, value) :: rest => by
    -- The rest is there for every key, but it is read only behind a key that is a text.
    have hvalue := Compositional.jsonOf h value
    have hrest := Compositional.jsonMembers h false rest
    cases key with
    | text name =>
      unfold Place.jsonMembers
      exact h.bind hvalue fun _ => h.bind hrest fun _ => h.pure _
    | _ =>
      unfold Place.jsonMembers
      exact h.refuse _

end

theorem Compositional.openRecord (h : Compositional P) {fields : List (Field Read Place σ)}
    (hfields : ∀ f ∈ fields, ∀ p, P _ (f.read p)) (title : String) (draft : σ) (p : Place) :
    P _ (p.openRecord title fields draft) := by
  rw [Place.openRecord]
  refine h.bind (h.follow p) fun p => h.locate ?_ p
  refine h.bind (h.entriesOf _ p) fun entries => ?_
  refine h.bind (h.fieldsOf hfields (fun _ _ => ?_) entries [] draft []) fun r => ?_
  · exact h.bind (h.valueWithin .aside _ _) fun _ => h.pure _
  · refine h.bind (h.mapM (fun e => ?_) r.2.2) fun _ => h.pure _
    exact h.bind (h.jsonOf _) fun _ => h.pure _

end WorkflowPolicy.Reading
