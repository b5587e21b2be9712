/-!
# Sorted lists

* `sortBy le xs` has the elements of `xs` in the order of `le` (`sortBy_perm`,
  `pairwise_sortBy`); elements that `le` puts on one level keep their order.
* `dropRepeats xs` keeps of every run of equal neighbours the first one; what occurs in the list
  stays (`mem_dropRepeats`), and no two neighbours are equal.
* `distinct xs` keeps of every element the first occurrence, in the order of the list
  (`mem_distinct`).
* `ascending xs` is the first two together for texts: the set of the texts in `xs`, in ascending
  order.

Texts are ordered by their characters' code points.
-/

namespace WorkflowPolicy

variable {α : Type}

/-- The element before the first one that it may precede. -/
def insertBy (le : α → α → Bool) (x : α) : List α → List α
  | [] => [x]
  | y :: ys => if le x y then x :: y :: ys else y :: insertBy le x ys

/-- **Sorting** by insertion, so that elements on one level keep their order. -/
def sortBy (le : α → α → Bool) : List α → List α
  | [] => []
  | x :: xs => insertBy le x (sortBy le xs)

theorem insertBy_perm (le : α → α → Bool) (x : α) (ys : List α) :
    (insertBy le x ys).Perm (x :: ys) := by
  induction ys with
  | nil => exact .refl _
  | cons y ys ih =>
    by_cases h : le x y
    · simp [insertBy, h]
    · simp only [insertBy, h]
      exact (ih.cons y).trans (.swap x y ys)

/-- Sorting keeps the elements. -/
theorem sortBy_perm (le : α → α → Bool) (xs : List α) : (sortBy le xs).Perm xs := by
  induction xs with
  | nil => exact .refl _
  | cons x xs ih => exact (insertBy_perm le x _).trans (ih.cons x)

@[simp] theorem mem_sortBy {le : α → α → Bool} {x : α} {xs : List α} :
    x ∈ sortBy le xs ↔ x ∈ xs := (sortBy_perm le xs).mem_iff

theorem pairwise_insertBy {le : α → α → Bool}
    (trans : ∀ a b c, le a b → le b c → le a c) (total : ∀ a b, le a b ∨ le b a)
    (x : α) {ys : List α} (h : ys.Pairwise fun a b => le a b) :
    (insertBy le x ys).Pairwise fun a b => le a b := by
  induction ys with
  | nil => simp [insertBy]
  | cons y ys ih =>
    rw [List.pairwise_cons] at h
    by_cases hxy : le x y
    · simp only [insertBy, hxy, if_true, List.pairwise_cons]
      refine ⟨fun z hz => ?_, h.1, h.2⟩
      rcases List.mem_cons.1 hz with rfl | hz
      · exact hxy
      · exact trans _ _ _ hxy (h.1 z hz)
    · simp only [insertBy, hxy, Bool.false_eq_true, if_false, List.pairwise_cons]
      refine ⟨fun z hz => ?_, ih h.2⟩
      rcases List.mem_cons.1 ((insertBy_perm le x ys).mem_iff.1 hz) with rfl | hz
      · exact (total z y).resolve_left hxy
      · exact h.1 z hz

/-- Sorting by a total order gives a sorted list. -/
theorem pairwise_sortBy {le : α → α → Bool}
    (trans : ∀ a b c, le a b → le b c → le a c) (total : ∀ a b, le a b ∨ le b a)
    (xs : List α) : (sortBy le xs).Pairwise fun a b => le a b := by
  induction xs with
  | nil => exact .nil
  | cons x xs ih => exact pairwise_insertBy trans total x ih

/-- **Of every run of equal neighbours the first.** -/
def dropRepeats [DecidableEq α] : List α → List α
  | [] => []
  | [x] => [x]
  | x :: y :: rest => if x = y then dropRepeats (y :: rest) else x :: dropRepeats (y :: rest)

/-- Dropping repeats loses no element. -/
@[simp] theorem mem_dropRepeats [DecidableEq α] {x : α} {xs : List α} :
    x ∈ dropRepeats xs ↔ x ∈ xs := by
  fun_induction dropRepeats xs with
  | case1 => simp
  | case2 => simp
  | case3 y rest ih => rw [ih]; simp
  | case4 y z rest h ih => rw [List.mem_cons, ih]; simp

/-- **The elements of a list, each once**, in the order of their first occurrences. -/
def distinct [DecidableEq α] : List α → List α
  | [] => []
  | x :: xs => x :: (distinct xs).filter (· != x)

@[simp] theorem mem_distinct [DecidableEq α] {x : α} {xs : List α} :
    x ∈ distinct xs ↔ x ∈ xs := by
  induction xs with
  | nil => simp [distinct]
  | cons y ys ih => by_cases h : x = y <;> simp [distinct, h, ih]

/-- Texts in ascending order. -/
def sortTexts (xs : List String) : List String := sortBy (fun a b => decide (a ≤ b)) xs

/-- **The set of the texts**, each once, in ascending order. -/
def ascending (xs : List String) : List String := dropRepeats (sortTexts xs)

@[simp] theorem mem_ascending {x : String} {xs : List String} : x ∈ ascending xs ↔ x ∈ xs := by
  simp [ascending, sortTexts]

end WorkflowPolicy
