import Mathlib
import WorkflowPolicy.Text.Blank
import WorkflowPolicy.Text.Split

/-!
# Laws of cutting, joining and trimming

* Cutting: `splitAll` is `List.splitOn`, and cutting a joined text at its separator cuts every
  piece (`splitAll_joined`), so joining loses where a piece that holds the separator begins. No
  piece holds it (`not_mem_of_mem_splitAll`). `splitFirst_append` and `splitLast_append` say where
  the two single cuts are made.
* Trimming: `trim` takes blanks off the front and then off the back, so a second time it changes
  nothing (`trim_trim`), and text that is put behind something which is no blank keeps it from being
  trimmed at the back (`trim_append`). Other characters stay (`mem_trim`). A text is trimmed to what
  stands between blanks (`trim_eq_iff_padded`).
* Small letters: digits and blanks stay what they are.
-/

namespace WorkflowPolicy.Text

/-! ### Cutting -/

/-- Cutting at the first separator, which comes after a text that holds none. -/
theorem splitFirst_append {sep : Char} {a b : List Char} (h : sep ∉ a) :
    splitFirst sep (a ++ sep :: b) = some (a, b) := by
  -- The induction is on what comes before the separator, since none of it is cut off.
  induction a with
  | nil => simp [splitFirst]
  | cons c a ih =>
    obtain ⟨hc, ha⟩ := not_or.mp (mt List.mem_cons.mpr h)
    simp [splitFirst, Ne.symm hc, ih ha]

/-- Cutting at the last separator, which comes before a text that holds none. -/
theorem splitLast_append {sep : Char} {a b : List Char} (h : sep ∉ b) :
    splitLast sep (a ++ sep :: b) = some (a, b) := by
  -- Cutting at the last separator is cutting the reverse at the first one.
  have hreverse : (a ++ sep :: b).reverse = b.reverse ++ sep :: a.reverse := by simp
  rw [splitLast, hreverse, splitFirst_append (by simpa using h)]
  simp

theorem splitLast_eq_none {sep : Char} {s : List Char} (h : sep ∉ s) :
    splitLast sep s = none := by
  have hreverse : splitFirst sep s.reverse = none := by
    rw [splitFirst_eq_none_iff, List.mem_reverse]
    exact h
  rw [splitLast, hreverse, Option.map_none]

/-- **Cutting at the last separator loses nothing.** -/
theorem append_of_splitLast {sep : Char} {s a b : List Char}
    (h : splitLast sep s = some (a, b)) : s = a ++ sep :: b := by
  obtain ⟨⟨front, back⟩, hcut, hparts⟩ := Option.map_eq_some_iff.mp h
  obtain ⟨rfl, rfl⟩ := Prod.mk.inj hparts
  have hreverse := (append_of_splitFirst hcut).1
  calc s = s.reverse.reverse := s.reverse_reverse.symm
    _ = (front ++ sep :: back).reverse := by rw [hreverse]
    _ = back.reverse ++ sep :: front.reverse := by simp

theorem splitAll_eq_splitOn (sep : Char) (s : List Char) : splitAll sep s = s.splitOn sep := by
  induction s with
  | nil => rfl
  | cons c cs ih =>
    -- Both put the character before the first piece, unless it is the separator.
    rw [List.splitOn_cons_eq_if_modifyHead, ← ih]
    by_cases hc : c = sep
    · simp [splitAll, hc]
    · cases hpieces : splitAll sep cs with
      | nil => exact absurd hpieces (splitAll_ne_nil sep cs)
      | cons piece pieces => simp [splitAll, hc, hpieces]

/-- A text without the separator is its only piece. -/
theorem splitAll_of_not_mem {sep : Char} {s : List Char} (h : sep ∉ s) : splitAll sep s = [s] := by
  rw [splitAll_eq_splitOn, List.splitOn_eq_singleton h]

/-- **No piece holds the separator.** -/
theorem not_mem_of_mem_splitAll {sep : Char} {s piece : List Char}
    (h : piece ∈ splitAll sep s) : sep ∉ piece := by
  induction s generalizing piece with
  | nil =>
    rw [splitAll, List.mem_singleton] at h
    rw [h]
    exact List.not_mem_nil
  | cons c s ih =>
    by_cases hc : c = sep
    · rw [splitAll, if_pos hc] at h
      rcases List.mem_cons.mp h with rfl | hmem
      · exact List.not_mem_nil
      · exact ih hmem
    · rw [splitAll, if_neg hc] at h
      cases hpieces : splitAll sep s with
      | nil => exact absurd hpieces (splitAll_ne_nil sep s)
      | cons first pieces =>
        simp only [hpieces, List.mem_cons] at h ih
        -- A piece is either the first one with the character before it, or one of the others.
        rcases h with rfl | hmem
        · rw [List.mem_cons, not_or]
          exact ⟨Ne.symm hc, ih (.inl rfl)⟩
        · exact ih (.inr hmem)

/-- A text is cut at every separator, so also at a given one. -/
theorem splitAll_append_cons (sep : Char) (a b : List Char) :
    splitAll sep (a ++ sep :: b) = splitAll sep a ++ splitAll sep b := by
  rw [splitAll_eq_splitOn, List.splitOn_append_cons_self, ← splitAll_eq_splitOn,
    ← splitAll_eq_splitOn]

/-- The first piece is what comes before the first separator. -/
theorem splitAll_append {sep : Char} {a b : List Char} (h : sep ∉ a) :
    splitAll sep (a ++ sep :: b) = a :: splitAll sep b := by
  rw [splitAll_append_cons, splitAll_of_not_mem h, List.singleton_append]

theorem head?_splitAll {sep : Char} {s : List Char} :
    (splitAll sep s).head? = some (s.takeWhile (· != sep)) := by
  induction s with
  | nil => rfl
  | cons c s ih =>
    by_cases hc : c = sep
    · simp [splitAll, hc]
    · -- The first piece goes on up to the separator, as what is taken does.
      cases hpieces : splitAll sep s with
      | nil => exact absurd hpieces (splitAll_ne_nil sep s)
      | cons piece pieces =>
        rw [hpieces] at ih
        simpa [splitAll, hc, hpieces] using ih

/-- **Cutting a joined text** gives the pieces of what was joined, one after the other. -/
theorem splitAll_joined {sep : Char} {text : String} (htext : text.toList = [sep])
    {pieces : List String} (h : pieces ≠ []) :
    splitAll sep (joined text pieces).toList =
      pieces.flatMap fun piece => splitAll sep piece.toList := by
  induction pieces with
  | nil => exact absurd rfl h
  | cons piece pieces ih =>
    cases pieces with
    | nil => simp [joined]
    | cons next pieces =>
      -- The first piece ends at the separator that follows it.
      have hjoined : (joined text (piece :: next :: pieces)).toList =
          piece.toList ++ sep :: (joined text (next :: pieces)).toList := by
        simp [joined, htext]
      rw [hjoined, splitAll_append_cons, ih (List.cons_ne_nil next pieces)]
      rfl

/-- A text has an ending if it is something with that ending put behind it. -/
theorem dropEnding?_eq_some_iff {ending s t : List Char} :
    dropEnding? ending s = some t ↔ s = t ++ ending := by
  unfold dropEnding?
  constructor
  · intro h
    split at h
    · next hsuffix =>
      obtain ⟨front, rfl⟩ := List.isSuffixOf_iff_suffix.mp hsuffix
      simpa using h
    · cases h
  · rintro rfl
    simp

/-! ### Trimming -/

theorem trim_eq (s : List Char) : trim s = (dropBlank s).rdropWhile isBlank := rfl

/-- What begins with no blank loses nothing at its front. -/
theorem dropBlank_eq_self {s : List Char} (h : ∀ c ∈ s.head?, isBlank c = false) :
    dropBlank s = s := by
  cases s with
  | nil => rfl
  | cons c cs =>
    rw [dropBlank, List.dropWhile_cons_of_neg]
    simp [h c (by simp)]

theorem head?_dropBlank {s : List Char} : ∀ c ∈ (dropBlank s).head?, isBlank c = false := by
  intro c hc
  have hhead := List.head?_dropWhile_not isBlank s
  rw [← dropBlank, Option.mem_def.mp hc] at hhead
  exact hhead

/-- **Trimming a second time changes nothing.** -/
theorem trim_trim (s : List Char) : trim (trim s) = trim s := by
  have hfront : dropBlank (trim s) = trim s := by
    apply dropBlank_eq_self
    intro c hc
    -- Trimming the back leaves a prefix, so the front is still that of `dropBlank s`.
    obtain ⟨back, hback⟩ := List.rdropWhile_prefix isBlank (dropBlank s)
    apply head?_dropBlank (s := s)
    rw [← hback, List.head?_append, ← trim_eq, Option.mem_def.mp hc]
    rfl
  rw [trim_eq, hfront, trim_eq, List.rdropWhile_idempotent]

/-- What ends with no blank loses nothing at its back. -/
theorem trim_eq_dropBlank {s : List Char}
    (h : ∀ hne : dropBlank s ≠ [], isBlank ((dropBlank s).getLast hne) = false) :
    trim s = dropBlank s := by
  -- What ends with no blank is not taken off from behind.
  rw [trim_eq, List.rdropWhile_eq_self_iff]
  intro hne
  simp [h hne]

theorem dropBlank_append_cons {s t : List Char} {c : Char} (h : isBlank c = false) :
    dropBlank (s ++ c :: t) = dropBlank s ++ c :: t := by
  induction s with
  | nil => exact dropBlank_eq_self (by simp [h])
  -- A blank in front is dropped on both sides, and at the first other character both stop.
  | cons d s ih =>
    cases hd : isBlank d with
    | true =>
      simp only [dropBlank, List.cons_append, List.dropWhile_cons_of_pos hd] at ih ⊢
      exact ih
    | false => simp [dropBlank, hd]

/-- **Trimming a text with an ending** that begins and ends with no blank. -/
theorem trim_append {s t : List Char} {c : Char} (hc : isBlank c = false)
    (ht : ∀ d ∈ t, isBlank d = false) : trim (s ++ c :: t) = dropBlank s ++ c :: t := by
  rw [trim_eq_dropBlank, dropBlank_append_cons hc]
  intro hne
  -- The last character is one of the ending, and none of these is blank.
  have hlast : (dropBlank (s ++ c :: t)).getLast hne = (c :: t).getLast (List.cons_ne_nil c t) := by
    simp only [dropBlank_append_cons hc, List.getLast_append_of_ne_nil _ (List.cons_ne_nil c t)]
  rw [hlast]
  rcases List.mem_cons.mp (List.getLast_mem (List.cons_ne_nil c t)) with heq | hmem
  · rw [heq]
    exact hc
  · exact ht _ hmem

/-- Trimming puts no characters in. -/
theorem mem_of_mem_trim {s : List Char} {c : Char} (h : c ∈ trim s) : c ∈ s := by
  rw [trim_eq] at h
  exact (List.dropWhile_sublist isBlank).mem ((List.rdropWhile_prefix isBlank _).mem h)

/-- What is no blank is not trimmed away. -/
theorem mem_trim {s : List Char} {c : Char} (hc : isBlank c = false) : c ∈ trim s ↔ c ∈ s := by
  refine ⟨mem_of_mem_trim, fun h => ?_⟩
  -- Dropping blanks from one side takes nothing else, and trimming does it from both sides.
  have hdrop : ∀ t : List Char, c ∈ t → c ∈ dropBlank t := by
    intro t ht
    rw [← List.takeWhile_append_dropWhile (p := isBlank) (l := t), List.mem_append] at ht
    rcases ht with hfront | hback
    · rw [List.mem_takeWhile_imp hfront] at hc
      cases hc
    · exact hback
  exact List.mem_reverse.mpr (hdrop _ (List.mem_reverse.mpr (hdrop s h)))

/-- **The text with blanks around it**, or without. -/
def Padded (text s : List Char) : Prop :=
  ∃ front back, (∀ c ∈ front, isBlank c = true) ∧ (∀ c ∈ back, isBlank c = true) ∧
    s = front ++ text ++ back

/-- Trimming takes blanks off both ends. -/
theorem padded_trim (s : List Char) : Padded (trim s) s := by
  refine ⟨s.takeWhile isBlank, (dropBlank s).rtakeWhile isBlank, fun c => List.mem_takeWhile_imp,
    fun c => List.mem_rtakeWhile_imp, ?_⟩
  rw [trim_eq, List.append_assoc, List.rdropWhile_append_rtakeWhile, dropBlank,
    List.takeWhile_append_dropWhile]

/-- Blanks around a text are trimmed away with its own. -/
theorem Padded.trim_eq {text s : List Char} (h : Padded text s) : trim s = trim text := by
  obtain ⟨front, back, hfront, hback, rfl⟩ := h
  -- The blanks behind are dropped with those of the text, if it is not all dropped from the front.
  have hdrop : (dropBlank (text ++ back)).rdropWhile isBlank =
      (dropBlank text).rdropWhile isBlank := by
    have hreverse : ∀ c ∈ back.reverse, isBlank c = true := fun c hc =>
      hback c (List.mem_reverse.mp hc)
    rw [dropBlank, dropBlank, List.dropWhile_append]
    split
    · next hnil =>
      -- There is nothing but blanks.
      rw [List.isEmpty_iff.mp hnil, List.dropWhile_eq_nil_iff.mpr hback]
    · rw [List.rdropWhile, List.rdropWhile, List.reverse_append,
        List.dropWhile_append_of_pos hreverse]
  rw [Text.trim_eq, Text.trim_eq, List.append_assoc, dropBlank,
    List.dropWhile_append_of_pos hfront, ← dropBlank, hdrop]

/-- A text without blanks is what is left exactly if there are blanks around it and nothing else. -/
theorem trim_eq_iff_padded {text s : List Char} (h : ∀ c ∈ text, isBlank c = false) :
    trim s = text ↔ Padded text s := by
  constructor
  · rintro rfl
    exact padded_trim s
  · intro hpadded
    -- A text without blanks is not trimmed itself.
    have hlast : ∀ hne : dropBlank text ≠ [], isBlank ((dropBlank text).getLast hne) = false :=
      fun hne => h _ ((List.dropWhile_sublist isBlank).mem (List.getLast_mem hne))
    rw [hpadded.trim_eq, trim_eq_dropBlank hlast]
    exact dropBlank_eq_self fun c hc => h c (List.mem_of_mem_head? hc)

theorem padded_self (s : List Char) : Padded s s := ⟨[], [], by simp, by simp, by simp⟩

/-- What is no blank is in the text itself. -/
theorem Padded.mem_iff {text s : List Char} (h : Padded text s) {c : Char}
    (hc : isBlank c = false) : c ∈ s ↔ c ∈ text := by
  obtain ⟨front, back, hfront, hback, rfl⟩ := h
  have hne : ∀ blanks : List Char, (∀ b ∈ blanks, isBlank b = true) → c ∉ blanks := by
    intro blanks hblanks hmem
    rw [hblanks c hmem] at hc
    cases hc
  simp [hne front hfront, hne back hback]

/-! ### Small letters -/

@[simp] theorem smallLetters_append (s t : List Char) :
    smallLetters (s ++ t) = smallLetters s ++ smallLetters t := List.map_append

/-- What becomes of a letter or of another character, as numbers. -/
theorem toNat_toLower (c : Char) :
    c.toLower.toNat = if 65 ≤ c.toNat ∧ c.toNat ≤ 90 then c.toNat + 32 else c.toNat := by
  have hupper : (c.val ≥ 'A'.val ∧ c.val ≤ 'Z'.val) ↔ (65 ≤ c.toNat ∧ c.toNat ≤ 90) := by
    rw [ge_iff_le, UInt32.le_iff_toNat_le, UInt32.le_iff_toNat_le]
    rfl
  -- The capital letters are those that are changed, and adding 32 does not overflow.
  by_cases h : 65 ≤ c.toNat ∧ c.toNat ≤ 90
  · have hsum : (c.val + ('a'.val - 'A'.val)).toNat = (c.val.toNat + 32) % 2 ^ 32 := by
      rw [UInt32.toNat_add]
      rfl
    rw [if_pos h, Char.toLower, dif_pos (hupper.mpr h)]
    change (c.val + ('a'.val - 'A'.val)).toNat = c.val.toNat + 32
    have hle : c.val.toNat ≤ 90 := h.2
    omega
  · rw [if_neg h, Char.toLower, dif_neg (mt hupper.mp h)]

theorem toLower_of_isDigit {c : Char} (h : c.isDigit = true) : c.toLower = c := by
  have hdigit : c.toNat ≤ 57 := by
    simp only [Char.isDigit, Bool.and_eq_true, decide_eq_true_eq] at h
    exact UInt32.le_iff_toNat_le.mp h.2
  rw [← Char.toNat_inj, toNat_toLower, if_neg (by omega)]

/-- No letter is blank, in either form. -/
theorem isBlank_toLower (c : Char) : isBlank c.toLower = isBlank c := by
  -- The small form of a letter is a letter, and no blank is one.
  have hn := toNat_toLower c
  split at hn
  · simp only [isBlank, hn]
    grind
  · rw [Char.toNat_inj] at hn
    rw [hn]

theorem isBlank_of_isDigit {c : Char} (h : c.isDigit = true) : isBlank c = false := by
  simp only [Char.isDigit, Bool.and_eq_true, decide_eq_true_eq, ge_iff_le,
    UInt32.le_iff_toNat_le] at h
  -- The digits stand between two groups of blanks.
  have hlow : 48 ≤ c.toNat := h.1
  have hhigh : c.toNat ≤ 57 := h.2
  simp only [isBlank]
  grind

end WorkflowPolicy.Text
