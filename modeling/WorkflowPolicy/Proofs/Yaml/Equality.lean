import WorkflowPolicy.Yaml.Document

/-!
# Equality of documents

Two trees are compared from the root, as values of JSON are: the same kind of node with the same
anchor, and what is below is compared in turn. So it can be tested whether a text has a given
document.
-/

namespace WorkflowPolicy.Yaml

namespace Node

variable {ν : Type} [DecidableEq ν]

mutual

/-- Are two trees equal? -/
def decEq (a b : Node ν) : Decidable (a = b) :=
  match a with
  | .scalar n s =>
    match b with
    | .scalar n' s' => decidable_of_iff (n = n' ∧ s = s') (Node.scalar.injEq n s n' s').to_iff.symm
    | .sequence .. | .mapping .. | .alias _ => isFalse nofun
  | .sequence n t items =>
    match b with
    | .sequence n' t' items' =>
      -- The instances for lists ask for this one, so that for the items is put in their place by
      -- hand.
      have := itemsDecEq items items'
      decidable_of_iff (n = n' ∧ t = t' ∧ items = items')
        (Node.sequence.injEq n t items n' t' items').to_iff.symm
    | .scalar .. | .mapping .. | .alias _ => isFalse nofun
  | .mapping n t entries =>
    match b with
    | .mapping n' t' entries' =>
      have := entriesDecEq entries entries'
      decidable_of_iff (n = n' ∧ t = t' ∧ entries = entries')
        (Node.mapping.injEq n t entries n' t' entries').to_iff.symm
    | .scalar .. | .sequence .. | .alias _ => isFalse nofun
  | .alias n =>
    match b with
    | .alias n' => decidable_of_iff (n = n') (Node.alias.injEq n n').to_iff.symm
    | .scalar .. | .sequence .. | .mapping .. => isFalse nofun

/-- Are the items of two sequences equal? -/
def itemsDecEq (xs ys : List (Node ν)) : Decidable (xs = ys) :=
  match xs, ys with
  | [], [] => isTrue rfl
  | [], _ :: _ | _ :: _, [] => isFalse nofun
  | x :: xs, y :: ys =>
    have := decEq x y
    have := itemsDecEq xs ys
    decidable_of_iff (x = y ∧ xs = ys) List.cons_eq_cons.symm

/-- Are the entries of two mappings equal? -/
def entriesDecEq (xs ys : List (Node ν × Node ν)) : Decidable (xs = ys) :=
  match xs, ys with
  | [], [] => isTrue rfl
  | [], _ :: _ | _ :: _, [] => isFalse nofun
  | (k, x) :: xs, (k', y) :: ys =>
    have := decEq k k'
    have := decEq x y
    have := entriesDecEq xs ys
    decidable_of_iff ((k = k' ∧ x = y) ∧ xs = ys) (by rw [List.cons_eq_cons, Prod.mk.injEq])

end

end Node

instance {ν : Type} [DecidableEq ν] : DecidableEq (Node ν) := Node.decEq

deriving instance DecidableEq for Document

end WorkflowPolicy.Yaml
