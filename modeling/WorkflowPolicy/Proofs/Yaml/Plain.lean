import WorkflowPolicy.Proofs.Decimal.Notation
import WorkflowPolicy.Proofs.Decimal.Rounding
import WorkflowPolicy.Yaml.Plain

/-!
# Digits with a point, without quotes

What becomes of the digits `a.b` as a plain scalar that is taken for a text. By its form the scalar
is a floating point number (`plainMeaning_pointedText`), and as a text the number is written in its
own way: this is `rendered a b`. Only digits that overflow are not taken for a number.

So the text is `Kept` if it overflows, or if it is a faithful spelling of the value to which it
rounds (`rendered_eq_iff`).
-/

namespace WorkflowPolicy.Yaml

open Decimal (Binary64 IsDigits digitsValue pointedValue overflow Faithful Notation Plain Short)

/-- The digits with the point between them. -/
def pointedText (a b : List Char) : String := String.ofList (a ++ '.' :: b)

/-- The value to which the digits round. -/
def nearest (a b : List Char) : Binary64 :=
  .ofDecimal false (digitsValue (a ++ b)) (-(b.length : ℤ))

/-- **The text of the value to which the digits round**, and the digits if they overflow. -/
def rendered (a b : List Char) : String :=
  if (nearest a b).isFinite then Notation.block.write (nearest a b) else pointedText a b

/-- **The text is not changed**: it overflows, or it is a faithful spelling. -/
def Kept (a b : List Char) : Prop := overflow ≤ pointedValue a b ∨ Faithful a b

variable {a b : List Char}

theorem toList_pointedText (a b : List Char) : (pointedText a b).toList = a ++ '.' :: b := by
  rw [pointedText, String.toList_ofList]

/-! ### What is kept -/

theorem rendered_eq_iff (ha : IsDigits a) (hb : IsDigits b) :
    rendered a b = pointedText a b ↔ Kept a b := by
  -- Either the digits overflow, and are kept as they stand, or there is a value to which they
  -- round.
  by_cases hlarge : overflow ≤ pointedValue a b
  · have hinfinite : nearest a b = .infinite false := Decimal.ofDecimal_eq_infinite_iff.mpr hlarge
    rw [rendered, hinfinite]
    exact iff_of_true rfl (.inl hlarge)
  · obtain ⟨m, q, hc, hrounds⟩ := Decimal.exists_roundsTo_of_lt_overflow (not_le.mp hlarge)
    have hfinite : nearest a b = .finite false m q :=
      (Decimal.ofDecimal_eq_finite_iff hc).mpr hrounds
    rw [rendered, hfinite, Kept, or_iff_right hlarge]
    -- A value is written by its shortest digits, so the text is kept if it spells them faithfully.
    exact Decimal.write_eq_pointed_iff ha hb hc hrounds

/-- Up to fifteen digits are kept if they are plain and need no exponent. -/
theorem kept_of_digits (ha : IsDigits a) (hb : IsDigits b) (hplain : Plain a b)
    (hshort : Short a b) (hlength : a.length + b.length ≤ 15) : Kept a b :=
  .inr (Decimal.faithful_of_digits ha hb hplain hshort hlength)

/-! ### What the digits are read as -/

section Reading

variable (ha : IsDigits a) (hb : IsDigits b)

include ha

/-- The digits begin with a digit. -/
theorem exists_cons_of_isDigits : ∃ c cs, a = c :: cs ∧ Text.isDigit c = true := by
  obtain ⟨c, cs, hcons⟩ := List.exists_cons_of_ne_nil ha.ne_nil
  exact ⟨c, cs, hcons, ha.digits c (hcons ▸ List.mem_cons_self)⟩

/-- The digits are no word that does not begin with one. -/
theorem pointedText_beq {word : String} (h : word.toList.head?.any Text.isDigit = false) :
    (pointedText a b == word) = false := by
  rw [beq_eq_false_iff_ne]
  -- A word that was equal to the digits would begin with a digit.
  rintro rfl
  obtain ⟨c, cs, rfl, hdigit⟩ := exists_cons_of_isDigits ha
  rw [toList_pointedText, List.cons_append, List.head?_cons, Option.any_some, hdigit] at h
  cases h

theorem isEmpty_pointedText : (pointedText a b).isEmpty = false := by
  -- The empty word has no first character.
  rw [String.isEmpty_eq_false_iff, ← beq_eq_false_iff_ne]
  exact pointedText_beq ha rfl

theorem isNull_pointedText : isNull (pointedText a b) = false := by
  simp (disch := decide) only [isNull, pointedText_beq ha, Bool.or_false]

theorem takeSign_pointed : Decimal.takeSign (a ++ '.' :: b) = (false, a ++ '.' :: b) := by
  obtain ⟨c, cs, rfl, hdigit⟩ := exists_cons_of_isDigits ha
  -- The signs are the only first characters for which something is cut off.
  unfold Decimal.takeSign
  split
  · next heq =>
    rw [(List.cons.inj heq).1] at hdigit
    exact absurd hdigit (by decide)
  · next heq =>
    rw [(List.cons.inj heq).1] at hdigit
    exact absurd hdigit (by decide)
  · rfl

include hb in
/-- Digits with a point are no whole number. -/
theorem readInteger?_pointed : readInteger? (a ++ '.' :: b) = none := by
  -- All characters are digits but for the point, which is in the way of every form of whole
  -- numbers.
  have hchar : ∀ c ∈ a ++ '.' :: b, c = '.' ∨ Text.isDigit c = true := by
    intro c hc
    rcases List.mem_append.mp hc with hc | hc
    · exact .inr (ha.digits c hc)
    · exact (List.mem_cons.mp hc).imp_right (hb.digits c)
  have hpoint : '.' ∈ a ++ '.' :: b := List.mem_append_right _ List.mem_cons_self
  rw [readInteger?, takeSign_pointed ha, Option.map_eq_none_iff]
  -- A letter for the base is neither the point nor a digit.
  have hletter : ∀ c ds, a ++ '.' :: b = '0' :: c :: ds → c = '.' ∨ Text.isDigit c = true :=
    fun c ds heq => hchar c (heq ▸ List.mem_cons_of_mem _ List.mem_cons_self)
  split
  · next heq => exact absurd (hletter _ _ heq) (by decide)
  · next heq => exact absurd (hletter _ _ heq) (by decide)
  · next heq => exact absurd (hletter _ _ heq) (by decide)
  · split
    · rfl
    · refine Option.eq_none_iff_forall_ne_some.mpr fun n hn => ?_
      exact absurd ((Text.digits?_eq_some_iff.mp hn).2.1 '.' hpoint) (by decide)

/-- There is no sign, and a point is among what follows a zero. -/
theorem hasLeadingZero_pointed : hasLeadingZero (a ++ '.' :: b) = false := by
  -- The text begins with a digit, so the cases for a sign are void.
  have hfirst : ∀ {c : Char} {rest : List Char}, a ++ '.' :: b = c :: rest →
      Text.isDigit c = true := by
    intro c rest heq
    obtain ⟨d, cs, rfl, hdigit⟩ := exists_cons_of_isDigits ha
    rwa [← (List.cons.inj heq).1]
  unfold hasLeadingZero
  split
  · next hsign => exact absurd (hfirst hsign) (by decide)
  · next hsign => exact absurd (hfirst hsign) (by decide)
  · dsimp only
    split
    · next c rest heq =>
      have hpoint : '.' ∈ '0' :: c :: rest := heq ▸ List.mem_append_right _ List.mem_cons_self
      have hmem : '.' ∈ c :: rest := (List.mem_cons.mp hpoint).resolve_left (by decide)
      exact List.all_eq_false.mpr ⟨'.', hmem, by decide⟩
    · rfl

include hb in
/-- **The digits as a decimal.** -/
theorem readDecimal?_pointed : Decimal.readDecimal? (a ++ '.' :: b) = some (nearest a b) := by
  -- The digits before the point are taken first, and those behind it leave nothing.
  have hwhole : (a ++ '.' :: b).takeWhile Text.isDigit = a := by
    rw [List.takeWhile_append_of_pos ha.digits, List.takeWhile_cons_of_neg (by decide),
      List.append_nil]
  have hrest : (a ++ '.' :: b).dropWhile Text.isDigit = '.' :: b := by
    rw [List.dropWhile_append_of_pos ha.digits, List.dropWhile_cons_of_neg (by decide)]
  have hfraction : b.takeWhile Text.isDigit = b := List.takeWhile_eq_self_iff.mpr hb.digits
  have hend : b.dropWhile Text.isDigit = [] := List.dropWhile_eq_nil_iff.mpr hb.digits
  have hempty : a.isEmpty = false := by simpa using ha.ne_nil
  simp only [Decimal.readDecimal?, takeSign_pointed ha, hwhole, hrest, hfraction, hend, hempty,
    Bool.false_and, Bool.false_eq_true, if_false, Decimal.readExponent?, Option.map_some, zero_sub]
  rfl

include hb in
/-- **What digits with a point mean as a plain scalar**: the value to which they round, and a text
if they overflow. -/
theorem plainMeaning_pointedText : plainMeaning (pointedText a b) =
    if (nearest a b).isFinite then .real (nearest a b) else .text := by
  -- Every word that is asked for begins with something else than a digit.
  have hword : ∀ {word : String}, word.toList.head?.any Text.isDigit = false →
      (pointedText a b == word) = false := pointedText_beq ha
  have hbool : readBool? (pointedText a b) = none := by
    simp (disch := decide) only [readBool?, hword, Bool.or_false, Bool.false_eq_true, if_false]
  have hinteger : integerMeaning? (pointedText a b).toList = none := by
    rw [toList_pointedText, integerMeaning?, readInteger?_pointed ha hb]
  have hspecial : readNotFinite? (pointedText a b) = none := by
    simp (disch := decide) only [readNotFinite?, hword, Bool.or_false, Bool.false_eq_true, if_false]
  have hreal : readReal? (pointedText a b) =
      if (nearest a b).isFinite then some (nearest a b) else none := by
    rw [readReal?, hspecial, toList_pointedText, readDecimal?_pointed ha hb]
  -- So the only meaning that is left is that of the real number.
  rw [plainMeaning, isEmpty_pointedText ha, isNull_pointedText ha, hbool, hinteger,
    toList_pointedText, hasLeadingZero_pointed ha, hreal]
  by_cases hfinite : (nearest a b).isFinite = true
  · rw [if_pos hfinite, if_pos hfinite]
    rfl
  · rw [if_neg hfinite, if_neg hfinite]
    rfl

end Reading

end WorkflowPolicy.Yaml
