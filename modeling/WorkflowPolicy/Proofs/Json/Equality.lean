import WorkflowPolicy.Json.Basic

/-!
# Equality of JSON values

Two JSON values are compared from the root: they have the same constructor, and what is below is
compared in turn, item by item and member by member.
-/

namespace WorkflowPolicy.Json

mutual

/-- Are two values equal? -/
def decEq (a b : Json) : Decidable (a = b) :=
  match a with
  | .null =>
    match b with
    | .null => isTrue rfl
    | .bool _ | .number _ | .string _ | .array _ | .object _ => isFalse nofun
  | .bool x =>
    match b with
    | .bool y => decidable_of_iff (x = y) (Json.bool.injEq x y).to_iff.symm
    | .null | .number _ | .string _ | .array _ | .object _ => isFalse nofun
  | .number x =>
    match b with
    | .number y => decidable_of_iff (x = y) (Json.number.injEq x y).to_iff.symm
    | .null | .bool _ | .string _ | .array _ | .object _ => isFalse nofun
  | .string x =>
    match b with
    | .string y => decidable_of_iff (x = y) (Json.string.injEq x y).to_iff.symm
    | .null | .bool _ | .number _ | .array _ | .object _ => isFalse nofun
  | .array xs =>
    match b with
    | .array ys =>
      -- The instances for lists ask for this one, so that for the items is put in their place by
      -- hand.
      have := itemsDecEq xs ys
      decidable_of_iff (xs = ys) (Json.array.injEq xs ys).to_iff.symm
    | .null | .bool _ | .number _ | .string _ | .object _ => isFalse nofun
  | .object xs =>
    match b with
    | .object ys =>
      have := membersDecEq xs ys
      decidable_of_iff (xs = ys) (Json.object.injEq xs ys).to_iff.symm
    | .null | .bool _ | .number _ | .string _ | .array _ => isFalse nofun

/-- Are the items of two arrays equal? -/
def itemsDecEq (xs ys : List Json) : Decidable (xs = ys) :=
  match xs, ys with
  | [], [] => isTrue rfl
  | [], _ :: _ | _ :: _, [] => isFalse nofun
  | x :: xs, y :: ys =>
    have := decEq x y
    have := itemsDecEq xs ys
    decidable_of_iff (x = y ∧ xs = ys) List.cons_eq_cons.symm

/-- Are the members of two objects equal? -/
def membersDecEq (xs ys : List (String × Json)) : Decidable (xs = ys) :=
  match xs, ys with
  | [], [] => isTrue rfl
  | [], _ :: _ | _ :: _, [] => isFalse nofun
  | (k, x) :: xs, (k', y) :: ys =>
    have := decEq x y
    have := membersDecEq xs ys
    decidable_of_iff ((k = k' ∧ x = y) ∧ xs = ys) (by rw [List.cons_eq_cons, Prod.mk.injEq])

end

instance : DecidableEq Json := decEq

end WorkflowPolicy.Json
