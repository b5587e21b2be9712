import WorkflowPolicy.Order

/-!
# Sorting and leaving out

Elements may be left out before or after a list is sorted, with the same result (`filter_sortBy`):
sorting keeps the order of elements on one level, and so does leaving some out. They may also be
replaced before or after, by elements that are in the same order (`sortBy_map`).

Dropping repeats is different. What stands between two equal elements keeps both of them in the
list, and after it has been left out they are neighbours and one of them goes. In a sorted list it
stands on one level with them, so there it is enough that the elements of one level stay or go
together (`filter_dropRepeats`).
-/

namespace WorkflowPolicy

variable {α : Type} {le : α → α → Bool}

/-! ### Sorting -/

/-- What may come before all elements is put at the front. -/
theorem insertBy_eq_cons {x : α} {ys : List α} (h : ∀ y ∈ ys, le x y) :
    insertBy le x ys = x :: ys := by
  cases ys with
  | nil => rfl
  | cons y ys => rw [insertBy, if_pos (h y List.mem_cons_self)]

/-- An element that is left out might as well not have been put in. -/
theorem filter_insertBy_of_neg {keep : α → Bool} {x : α} (hx : keep x = false) (ys : List α) :
    (insertBy le x ys).filter keep = ys.filter keep := by
  induction ys with
  | nil => simp [insertBy, hx]
  | cons y ys ih =>
    -- Wherever the element is put, the filter goes past it.
    unfold insertBy
    split
    · rw [List.filter_cons_of_neg (by simp [hx])]
    · rw [List.filter_cons, List.filter_cons, ih]

/-- An element that stays is put among those that stay. -/
theorem filter_insertBy_of_pos (trans : ∀ a b c, le a b → le b c → le a c) {keep : α → Bool}
    {x : α} (hx : keep x = true) {ys : List α} (sorted : ys.Pairwise fun a b => le a b) :
    (insertBy le x ys).filter keep = insertBy le x (ys.filter keep) := by
  induction ys with
  | nil => simp [insertBy, hx]
  | cons y ys ih =>
    obtain ⟨hy, hys⟩ := List.pairwise_cons.mp sorted
    by_cases hxy : le x y
    · -- All that follows comes after `x`, so `x` is at the front, whatever is left out behind it.
      have hfront : ∀ z ∈ (y :: ys).filter keep, le x z := by
        intro z hz
        rcases List.mem_cons.mp (List.mem_filter.mp hz).1 with rfl | hmem
        · exact hxy
        · exact trans x y z hxy (hy z hmem)
      rw [insertBy, if_pos hxy, List.filter_cons_of_pos hx, insertBy_eq_cons hfront]
    · rw [insertBy, if_neg hxy]
      cases hkeep : keep y with
      | true =>
        -- It stands behind `y` both with and without the others.
        rw [List.filter_cons_of_pos hkeep, List.filter_cons_of_pos hkeep, ih hys, insertBy,
          if_neg hxy]
      | false =>
        rw [List.filter_cons_of_neg (by simp [hkeep]), List.filter_cons_of_neg (by simp [hkeep]),
          ih hys]

/-- **Sorting and leaving out commute.** -/
theorem filter_sortBy (trans : ∀ a b c, le a b → le b c → le a c)
    (total : ∀ a b, le a b ∨ le b a) (keep : α → Bool) (xs : List α) :
    (sortBy le xs).filter keep = sortBy le (xs.filter keep) := by
  induction xs with
  | nil => rfl
  | cons x xs ih =>
    rw [sortBy]
    -- The first element is put into the sorted rest, where it stays or is left out.
    cases hx : keep x with
    | true =>
      rw [filter_insertBy_of_pos trans hx (pairwise_sortBy trans total xs), ih,
        List.filter_cons_of_pos hx, sortBy]
    | false =>
      rw [filter_insertBy_of_neg hx, ih, List.filter_cons_of_neg (by simp [hx])]

/-- **A list is sorted by what it is mapped to**, if the two orders agree. -/
theorem sortBy_map {β : Type} {le' : β → β → Bool} {f : α → β}
    (h : ∀ x y, le' (f x) (f y) = le x y) (xs : List α) :
    sortBy le' (xs.map f) = (sortBy le xs).map f := by
  -- Putting in one element compares it with the others, and the comparisons are the same.
  have hinsert : ∀ (x : α) (ys : List α),
      insertBy le' (f x) (ys.map f) = (insertBy le x ys).map f := by
    intro x ys
    induction ys with
    | nil => rfl
    | cons y ys ih =>
      rw [List.map_cons, insertBy, insertBy, h, ih]
      split <;> rfl
  induction xs with
  | nil => rfl
  | cons x xs ih => rw [List.map_cons, sortBy, sortBy, ih, hinsert]

/-! ### Dropping repeats -/

section Repeats

variable [DecidableEq α]

/-- Repeats stay repeats where different elements stay different. -/
theorem dropRepeats_map {β : Type} [DecidableEq β] {f : α → β} (h : Function.Injective f)
    (xs : List α) : dropRepeats (xs.map f) = (dropRepeats xs).map f := by
  fun_induction dropRepeats xs with
  | case1 => rfl
  | case2 x => rfl
  -- Two neighbours are equal after the map exactly if they were before.
  | case3 y rest ih => exact (if_pos rfl).trans ih
  | case4 x y rest hne ih => exact (if_neg (h.ne hne)).trans (congrArg (f x :: ·) ih)

theorem dropRepeats_cons_self (x : α) (xs : List α) :
    dropRepeats (x :: x :: xs) = dropRepeats (x :: xs) := by
  rw [dropRepeats, if_pos rfl]

theorem dropRepeats_cons_of_ne {x : α} {xs : List α} (h : ∀ y ∈ xs.head?, x ≠ y) :
    dropRepeats (x :: xs) = x :: dropRepeats xs := by
  cases xs with
  | nil => rfl
  | cons y ys => rw [dropRepeats, if_neg (h y rfl)]

/-- **In a sorted list dropping repeats and leaving out commute**, if the elements of one level stay
or go together. -/
theorem filter_dropRepeats {keep : α → Bool} (level : ∀ x y, le x y → le y x → keep x = keep y)
    {xs : List α} (sorted : xs.Pairwise fun a b => le a b) :
    (dropRepeats xs).filter keep = dropRepeats (xs.filter keep) := by
  fun_induction dropRepeats xs with
  | case1 => rfl
  | case2 x => cases hx : keep x <;> simp [hx, dropRepeats]
  | case3 y rest ih =>
    -- The repeat stays or goes with the element that it repeats.
    rw [ih (List.pairwise_cons.mp sorted).2]
    cases hy : keep y with
    | true => simp only [List.filter_cons_of_pos hy, dropRepeats_cons_self]
    | false => simp only [List.filter_cons, hy, Bool.false_eq_true, if_false]
  | case4 x y rest hne ih =>
    obtain ⟨hx, hrest⟩ := List.pairwise_cons.mp sorted
    cases hkeep : keep x with
    | false =>
      rw [List.filter_cons_of_neg (by simp [hkeep]), List.filter_cons_of_neg (by simp [hkeep]),
        ih hrest]
    | true =>
      -- The first of the rest that stays is not `x` again, or `y` between the two would stay.
      have hhead : ∀ z ∈ ((y :: rest).filter keep).head?, x ≠ z := by
        rintro z hz rfl
        cases hy : keep y with
        | true =>
          rw [List.filter_cons_of_pos hy] at hz
          exact hne (Option.some.inj hz).symm
        | false =>
          rw [List.filter_cons_of_neg (by simp [hy])] at hz
          have hmem : x ∈ rest := (List.mem_filter.mp (List.mem_of_mem_head? hz)).1
          have hsame := level x y (hx y List.mem_cons_self)
            ((List.pairwise_cons.mp hrest).1 x hmem)
          rw [hkeep, hy] at hsame
          cases hsame
      rw [List.filter_cons_of_pos hkeep, List.filter_cons_of_pos hkeep, ih hrest,
        dropRepeats_cons_of_ne hhead]

end Repeats

end WorkflowPolicy
