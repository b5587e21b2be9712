import Mathlib
import WorkflowPolicy.Net.Port

/-!
# Reading and writing port numbers

A decimal number is read if all its characters are digits, and then it is the number that
`Nat.ofDigitChars` makes of them (`digits?_eq_some_iff`). So a port is read back as it is written
(`readPort?_portText`), and a text that is read as a port holds nothing but digits and perhaps a
plus sign before them (`readPort?_eq_some_iff`).
-/

namespace WorkflowPolicy

open Net (Port)

namespace Text

/-! ### Decimal digits -/

theorem digitValue?_of_isDigit {c : Char} (h : c.isDigit = true) :
    digitValue? 10 c = some (c.toNat - '0'.toNat) := by
  simp only [Char.isDigit, Bool.and_eq_true, decide_eq_true_eq] at h
  have hhigh : c.toNat ≤ 57 := UInt32.le_iff_toNat_le.mp h.2
  have hvalue : c.toNat - '0'.toNat < 10 := by
    change c.toNat - 48 < 10
    omega
  rw [digitValue?, hexValue?, if_pos ⟨h.1, h.2⟩, Option.filter_some, if_pos (by simpa using hvalue)]

theorem isDigit_of_digitValue? {c : Char} {d : ℕ} (h : digitValue? 10 c = some d) :
    c.isDigit = true := by
  obtain ⟨hhex, hlt⟩ := Option.filter_eq_some_iff.mp h
  simp only [decide_eq_true_eq] at hlt
  unfold hexValue? at hhex
  split at hhex
  · next hdigit =>
    simp only [Char.isDigit, Bool.and_eq_true, decide_eq_true_eq]
    exact hdigit
  -- The letters stand for ten and more.
  · split at hhex
    · have := Option.some.inj hhex
      omega
    · split at hhex
      · have := Option.some.inj hhex
        omega
      · cases hhex

theorem digitsAfter?_eq_some_iff {n m : ℕ} {s : List Char} : digitsAfter? 10 n s = some m ↔
    (∀ c ∈ s, c.isDigit = true) ∧ Nat.ofDigitChars 10 s n = m := by
  induction s generalizing n with
  | nil => simp [digitsAfter?]
  | cons c s ih =>
    rw [digitsAfter?, Nat.ofDigitChars_cons, List.forall_mem_cons]
    -- A character that is no digit ends the reading without a number.
    cases hc : digitValue? 10 c with
    | none =>
      have hno : ¬ c.isDigit = true := fun h => by
        rw [digitValue?_of_isDigit h] at hc
        cases hc
      simp [hno]
    | some d =>
      have hdigit := isDigit_of_digitValue? hc
      rw [digitValue?_of_isDigit hdigit] at hc
      obtain rfl := Option.some.inj hc
      rw [ih, Nat.mul_comm]
      simp [hdigit]

/-- **What is read as a decimal number.** -/
theorem digits?_eq_some_iff {m : ℕ} {s : List Char} : digits? 10 s = some m ↔
    s ≠ [] ∧ (∀ c ∈ s, c.isDigit = true) ∧ Nat.ofDigitChars 10 s 0 = m := by
  cases s with
  | nil => simp [digits?]
  | cons c s => simp only [digits?, List.isEmpty_cons, Bool.false_eq_true, if_false,
      digitsAfter?_eq_some_iff, ne_eq, reduceCtorEq, not_false_eq_true, true_and]

/-- A number is written with decimal digits. -/
theorem isDigit_of_mem_toString {n : ℕ} {c : Char} (h : c ∈ (toString n).toList) :
    c.isDigit = true := by
  rw [Nat.toString_eq_repr, Nat.toList_repr] at h
  exact Nat.isDigit_of_mem_toDigits (by decide) (by decide) h

/-- The digits of a number do not begin with a zero, unless it is zero. -/
theorem head?_toDigits {n : ℕ} (h : 0 < n) : (Nat.toDigits 10 n).head? ≠ some '0' := by
  induction n using Nat.strongRecOn with
  | ind n ih =>
    rw [Nat.toDigits_eq_if (by decide)]
    split
    · next hlt =>
      have hdigit : ∀ d < 10, 0 < d → Nat.digitChar d ≠ '0' := by decide
      simpa using hdigit n hlt h
    · next hle =>
      -- The first digit is that of the quotient, which is not zero either.
      have hquotient := ih (n / 10) (by omega) (by omega)
      rwa [List.head?_append_of_ne_nil _ Nat.toDigits_ne_nil]

end Text

/-! ### Ports -/

theorem toList_portText (port : Port) :
    (Net.portText port).toList = Nat.toDigits 10 port.toNat := by
  rw [Net.portText, Nat.toString_eq_repr, Nat.toList_repr]

theorem isDigit_of_mem_portText {port : Port} {c : Char} (h : c ∈ (Net.portText port).toList) :
    c.isDigit = true :=
  Text.isDigit_of_mem_toString h

/-- A number below the limit is that of a port. -/
theorem ofNat_eq_iff {n : ℕ} {port : Port} :
    (if n < Nat.pow 2 16 then some (.ofNat n : Port) else none) = some port ↔ n = port.toNat := by
  constructor
  · intro h
    split at h
    · next hlt =>
      obtain rfl := Option.some.inj h
      exact (UInt16.toNat_ofNat_of_lt' hlt).symm
    · cases h
  · rintro rfl
    have hlt : port.toNat < Nat.pow 2 16 := port.toNat_lt
    rw [if_pos hlt, UInt16.ofNat_toNat]

/-- A number in the range of ports is no zero as a port. -/
theorem ofNat_ne_zero {n : Nat} (hpos : 0 < n) (hlt : n < 2 ^ 16) : (.ofNat n : Port) ≠ 0 := by
  intro h
  have hn : (UInt16.ofNat n).toNat = n := UInt16.toNat_ofNat_of_lt' hlt
  have hzero : (UInt16.ofNat n).toNat = 0 := by rw [h]; rfl
  omega

/-- What is read as a port behind a plus sign. -/
theorem readPort?_cons_plus {digits : List Char} {port : Port} :
    Net.readPort? ('+' :: digits) = some port ↔ Text.digits? 10 digits = some port.toNat := by
  simp only [Net.readPort?]
  cases Text.digits? 10 digits with
  | none => simp
  | some n => rw [ofNat_eq_iff, Option.some.injEq]

/-- What is read as a port where there is no plus sign. -/
theorem readPort?_of_forall_ne {s : List Char} (h : ∀ digits, s ≠ '+' :: digits) {port : Port} :
    Net.readPort? s = some port ↔ Text.digits? 10 s = some port.toNat := by
  unfold Net.readPort?
  split
  · next digits => exact absurd rfl (h digits)
  · dsimp only
    cases Text.digits? 10 s with
    | none => simp
    | some n => rw [ofNat_eq_iff, Option.some.injEq]

/-- **What is read as a port**: its digits, with a plus sign before them or not. -/
theorem readPort?_eq_some_iff {s : List Char} {port : Port} : Net.readPort? s = some port ↔
    ∃ digits, (s = digits ∨ s = '+' :: digits) ∧ Text.digits? 10 digits = some port.toNat := by
  constructor
  · intro h
    by_cases hplus : ∃ digits, s = '+' :: digits
    · obtain ⟨digits, rfl⟩ := hplus
      exact ⟨digits, .inr rfl, readPort?_cons_plus.mp h⟩
    · exact ⟨s, .inl rfl, (readPort?_of_forall_ne (not_exists.mp hplus)).mp h⟩
  · rintro ⟨digits, rfl | rfl, h⟩
    · refine (readPort?_of_forall_ne ?_).mpr h
      -- Digits do not begin with a plus sign, since it is none.
      rintro rest rfl
      have hplus := (Text.digits?_eq_some_iff.mp h).2.1 '+' List.mem_cons_self
      exact absurd hplus (by decide)
    · exact readPort?_cons_plus.mpr h

/-- **A port is read back as it is written.** -/
theorem readPort?_portText (port : Port) :
    Net.readPort? (Net.portText port).toList = some port := by
  refine readPort?_eq_some_iff.mpr ⟨_, .inl rfl, Text.digits?_eq_some_iff.mpr
    ⟨?_, fun c => isDigit_of_mem_portText, ?_⟩⟩
  · rw [toList_portText]
    exact Nat.toDigits_ne_nil
  · rw [toList_portText, Nat.ofDigitChars_ten_toDigits]

/-- A text that is read as a port holds digits and a plus sign only. -/
theorem isDigit_of_readPort? {s : List Char} (h : (Net.readPort? s).isSome) {c : Char}
    (hc : c ∈ s) : c = '+' ∨ c.isDigit = true := by
  obtain ⟨port, hport⟩ := Option.isSome_iff_exists.mp h
  obtain ⟨digits, hs, hdigits⟩ := readPort?_eq_some_iff.mp hport
  have hall := (Text.digits?_eq_some_iff.mp hdigits).2.1
  rcases hs with rfl | rfl
  · exact .inr (hall c hc)
  · exact (List.mem_cons.mp hc).imp_right (hall c)

end WorkflowPolicy
