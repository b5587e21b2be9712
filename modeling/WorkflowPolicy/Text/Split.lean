/-!
# Cutting and joining texts

Lists of characters are cut at a separator character and joined with a separator text.

* `splitFirst sep s` cuts at the first separator, `splitLast sep s` at the last one; both are
  `none` where there is no separator (`splitFirst_eq_none_iff`).
* `splitAll sep s` gives all the pieces, one more than there are separators.
* `joined sep pieces` writes the pieces with `sep` between them.

Cutting loses nothing: the two parts of `splitFirst` with the separator between them are the
text again (`append_of_splitFirst`).
-/

namespace WorkflowPolicy.Text

/-- The parts before and after the first `sep`. -/
def splitFirst (sep : Char) : List Char → Option (List Char × List Char)
  | [] => none
  | c :: cs =>
    if c = sep then some ([], cs)
    else (splitFirst sep cs).map fun parts => (c :: parts.1, parts.2)

/-- The parts before and after the last `sep`. -/
def splitLast (sep : Char) (s : List Char) : Option (List Char × List Char) :=
  (splitFirst sep s.reverse).map fun parts => (parts.2.reverse, parts.1.reverse)

/-- The pieces between the separators; a text without `sep` is its only piece. -/
def splitAll (sep : Char) : List Char → List (List Char)
  | [] => [[]]
  | c :: cs =>
    if c = sep then [] :: splitAll sep cs
    else
      match splitAll sep cs with
      | [] => [[c]]
      | piece :: pieces => (c :: piece) :: pieces

/-- The pieces in order, `sep` between each two. -/
def joined (sep : String) : List String → String
  | [] => ""
  | [piece] => piece
  | piece :: pieces => piece ++ sep ++ joined sep pieces

/-- The text without the given ending, if it has that ending. -/
def dropEnding? (ending s : List Char) : Option (List Char) :=
  if ending.isSuffixOf s then some (s.take (s.length - ending.length)) else none

/-- Does `part` occur in `s`, as consecutive characters? -/
def occursIn (part : List Char) : List Char → Bool
  | [] => part.isEmpty
  | c :: cs => part.isPrefixOf (c :: cs) || occursIn part cs

/-- Letters `A` to `Z` in their small form, all else as it is. -/
def smallLetters (s : List Char) : List Char := s.map Char.toLower

theorem splitFirst_eq_none_iff {sep : Char} {s : List Char} :
    splitFirst sep s = none ↔ sep ∉ s := by
  induction s with
  | nil => simp [splitFirst]
  | cons c cs ih =>
    by_cases h : c = sep
    · simp [splitFirst, h]
    · simp [splitFirst, h, ih, Ne.symm h]

/-- **Cutting at the first separator loses nothing**, and the first part holds none. -/
theorem append_of_splitFirst {sep : Char} {s a b : List Char}
    (h : splitFirst sep s = some (a, b)) : s = a ++ sep :: b ∧ sep ∉ a := by
  induction s generalizing a with
  | nil => simp [splitFirst] at h
  | cons c cs ih =>
    by_cases hc : c = sep
    · simp only [splitFirst, hc, if_pos, Option.some.injEq, Prod.mk.injEq] at h
      obtain ⟨rfl, rfl⟩ := h
      simp [hc]
    · simp only [splitFirst, if_neg hc, Option.map_eq_some_iff, Prod.mk.injEq] at h
      obtain ⟨⟨a', b'⟩, hcs, rfl, rfl⟩ := h
      obtain ⟨rfl, hmem⟩ := ih hcs
      simp [hmem, Ne.symm hc]

theorem splitAll_ne_nil (sep : Char) (s : List Char) : splitAll sep s ≠ [] := by
  cases s with
  | nil => simp [splitAll]
  | cons c cs =>
    by_cases h : c = sep
    · simp [splitAll, h]
    · cases hs : splitAll sep cs <;> simp [splitAll, h, hs]

end WorkflowPolicy.Text
