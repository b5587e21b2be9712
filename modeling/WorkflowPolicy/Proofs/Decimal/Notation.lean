import WorkflowPolicy.Decimal.Number
import WorkflowPolicy.Proofs.Decimal.Shortest
import WorkflowPolicy.Proofs.Net.Port
import WorkflowPolicy.Proofs.Text.Cutting

/-!
# Decimals with a point

A number is written with the digits of its shortest decimal and a point among them. Read as a
decimal, `a.b` is the number `pointedValue a b`; many spellings have one value, and one of them is
the plain one, without needless zeros (`Plain`, `Spells.unique`). What is written is always plain
(`spells_parts`).

So the digits `a.b` come back from the value to which they round exactly if they are plain, if no
exponent is needed, and if their number is the shortest decimal of that value:
`write_eq_pointed_iff`. For up to fifteen digits the last of these goes without saying
(`faithful_of_digits`).
-/

namespace WorkflowPolicy.Decimal

open Binary64 (minExponent)
open Notation (pointed scientific)

/-! ### Digits -/

/-- Decimal digits, at least one. -/
structure IsDigits (s : List Char) : Prop where
  ne_nil : s ≠ []
  digits : ∀ c ∈ s, Text.isDigit c = true

instance (s : List Char) : Decidable (IsDigits s) :=
  decidable_of_iff (s ≠ [] ∧ s.all Text.isDigit = true)
    ⟨fun h => ⟨h.1, List.all_eq_true.mp h.2⟩, fun h => ⟨h.ne_nil, List.all_eq_true.mpr h.digits⟩⟩

/-- A digit is that of its value. -/
theorem digitChar_of_isDigit {c : Char} (h : Text.isDigit c = true) :
    c.toNat - '0'.toNat < 10 ∧ Nat.digitChar (c.toNat - '0'.toNat) = c := by
  simp only [Text.isDigit, Bool.and_eq_true, decide_eq_true_eq] at h
  have hlow : '0'.toNat ≤ c.toNat := h.1
  have hhigh : c.toNat ≤ '9'.toNat := h.2
  -- There are ten of them, so they can be gone through by their codes.
  have hdigits : ∀ n ≤ '9'.toNat, '0'.toNat ≤ n →
      n - '0'.toNat < 10 ∧ Nat.digitChar (n - '0'.toNat) = Char.ofNat n := by decide
  have hdigit := hdigits c.toNat hhigh hlow
  rwa [Char.ofNat_toNat] at hdigit

/-- **Digits behind a number** are the last digits of the number that they make with it. -/
theorem toDigits_ofDigitChars {n : ℕ} (hn : 0 < n) {cs : List Char}
    (h : ∀ c ∈ cs, Text.isDigit c = true) :
    Nat.toDigits 10 (Nat.ofDigitChars 10 cs n) = Nat.toDigits 10 n ++ cs := by
  -- Going from the left, each digit is put behind the number that is already there.
  induction cs generalizing n with
  | nil => simp [Nat.ofDigitChars_nil]
  | cons c cs ih =>
    rw [List.forall_mem_cons] at h
    obtain ⟨hlt, hchar⟩ := digitChar_of_isDigit h.1
    have hfirst := Nat.toDigits_append_toDigits (b := 10) (by norm_num) hn hlt
    rw [Nat.toDigits_of_lt_base hlt, hchar] at hfirst
    rw [Nat.ofDigitChars_cons, ih (by omega) h.2, ← hfirst, List.append_assoc,
      List.singleton_append]

/-- Digits without a zero at the front are those of their number. -/
theorem toDigits_digitsValue {s : List Char} (h : IsDigits s) (hfront : s.head? ≠ some '0') :
    Nat.toDigits 10 (digitsValue s) = s := by
  cases s with
  | nil => exact absurd rfl h.ne_nil
  | cons c cs =>
    have hdigits := List.forall_mem_cons.mp h.digits
    obtain ⟨hlt, hchar⟩ := digitChar_of_isDigit hdigits.1
    -- The first digit is not zero, so the digits behind it are put behind a number.
    have hpos : 0 < c.toNat - '0'.toNat := by
      refine Nat.pos_of_ne_zero fun hzero => hfront ?_
      rw [← hchar, hzero]
      rfl
    have hvalue : digitsValue (c :: cs) = Nat.ofDigitChars 10 cs (c.toNat - '0'.toNat) := by
      change Nat.ofDigitChars 10 (c :: cs) 0 = _
      rw [Nat.ofDigitChars_cons, Nat.mul_zero, Nat.zero_add]
    rw [hvalue, toDigits_ofDigitChars hpos hdigits.2, Nat.toDigits_of_lt_base hlt, hchar]
    rfl

/-- **Digits of one length are told apart by their number.** -/
theorem digitsValue_inj {s t : List Char} (hs : ∀ c ∈ s, Text.isDigit c = true)
    (ht : ∀ c ∈ t, Text.isDigit c = true) (hlength : s.length = t.length)
    (h : digitsValue s = digitsValue t) : s = t := by
  -- With a one in front of them they are the digits of a number.
  have hvalue : Nat.ofDigitChars 10 s 1 = Nat.ofDigitChars 10 t 1 := by
    rw [Nat.ofDigitChars_eq_ofDigitChars_zero, Nat.ofDigitChars_eq_ofDigitChars_zero (l := t),
      hlength]
    exact congrArg _ h
  have hdigits := congrArg (Nat.toDigits 10) hvalue
  rwa [toDigits_ofDigitChars one_pos hs, toDigits_ofDigitChars one_pos ht,
    List.append_cancel_left_eq] at hdigits

theorem digitsValue_append (s t : List Char) :
    digitsValue (s ++ t) = digitsValue s * 10 ^ t.length + digitsValue t := by
  change Nat.ofDigitChars 10 (s ++ t) 0 = _
  rw [Nat.ofDigitChars_append, Nat.ofDigitChars_eq_ofDigitChars_zero, mul_comm]
  rfl

theorem digitsValue_replicate (n : ℕ) : digitsValue (List.replicate n '0') = 0 := by
  change Nat.ofDigitChars 10 _ 0 = 0
  rw [Nat.ofDigitChars_replicate_zero, Nat.mul_zero]

theorem digitsValue_lt {s : List Char} (h : ∀ c ∈ s, Text.isDigit c = true) :
    digitsValue s < 10 ^ s.length := by
  induction s with
  | nil => exact one_pos
  | cons c cs ih =>
    rw [List.forall_mem_cons] at h
    have hfirst : digitsValue [c] < 10 := by
      change 10 * 0 + (c.toNat - '0'.toNat) < 10
      rw [Nat.mul_zero, Nat.zero_add]
      exact (digitChar_of_isDigit h.1).1
    -- The first digit counts as often as the power of ten says, and the rest is below that power.
    rw [← List.singleton_append, digitsValue_append, List.length_append, List.length_singleton,
      pow_add, pow_one]
    have hrest := ih h.2
    nlinarith

/-! ### Spellings -/

/-- **The number `a.b`.** -/
def pointedValue (a b : List Char) : ℚ := digitsValue (a ++ b) * 10 ^ (-(b.length : ℤ))

/-- **The plain spelling** of a number: no zero at the front and none at the end, except for the one
digit that has to stand there. -/
structure Plain (a b : List Char) : Prop where
  front : a = ['0'] ∨ a.head? ≠ some '0'
  back : b = ['0'] ∨ b.getLast? ≠ some '0'

/-- The whole number before the point and the fraction behind it. -/
theorem pointedValue_eq (a b : List Char) :
    pointedValue a b = digitsValue a + digitsValue b / 10 ^ b.length := by
  rw [pointedValue, digitsValue_append, zpow_neg, zpow_natCast]
  push_cast
  field_simp

theorem fraction_lt_one {b : List Char} (h : ∀ c ∈ b, Text.isDigit c = true) :
    (digitsValue b : ℚ) / 10 ^ b.length < 1 := by
  rw [div_lt_one (by positivity)]
  exact_mod_cast digitsValue_lt h

/-- Plain digits before the point are those of their number. -/
theorem toDigits_of_front {a : List Char} (h : IsDigits a)
    (hfront : a = ['0'] ∨ a.head? ≠ some '0') : Nat.toDigits 10 (digitsValue a) = a := by
  rcases hfront with rfl | hfront
  · rfl
  · exact toDigits_digitsValue h hfront

/-- Of two plain fractions of one value the one with fewer digits is the other one. -/
theorem eq_of_fraction_eq {b b' : List Char} (hb : IsDigits b) (hb' : IsDigits b')
    (hback' : b' = ['0'] ∨ b'.getLast? ≠ some '0') (hlength : b.length ≤ b'.length)
    (h : (digitsValue b : ℚ) / 10 ^ b.length = digitsValue b' / 10 ^ b'.length) : b = b' := by
  obtain ⟨k, hk⟩ := Nat.exists_eq_add_of_le hlength
  -- With zeros behind it the shorter one has as many digits as the other, and they are the same.
  have hvalue : digitsValue (b ++ List.replicate k '0') = digitsValue b' := by
    rw [digitsValue_append, digitsValue_replicate, List.length_replicate, Nat.add_zero]
    rw [hk, pow_add, div_eq_div_iff (by positivity) (by positivity)] at h
    have hpos : (10 : ℚ) ^ b.length ≠ 0 := by positivity
    have hscaled : (digitsValue b : ℚ) * 10 ^ k = digitsValue b' := by
      apply mul_right_cancel₀ hpos
      linarith
    exact_mod_cast hscaled
  have hsame : b ++ List.replicate k '0' = b' := by
    refine digitsValue_inj (fun c hc => ?_) hb'.digits (by simp [hk]) hvalue
    rcases List.mem_append.mp hc with hc | hc
    · exact hb.digits c hc
    · rw [List.eq_of_mem_replicate hc]
      rfl
  cases k with
  | zero => simpa using hsame
  | succ k =>
    -- The other one would end in a zero, so it is a single zero, and `b` would be empty.
    have hlast : b'.getLast? = some '0' := by
      rw [← hsame, List.replicate_succ', ← List.append_assoc]
      exact List.getLast?_concat
    rcases hback' with hzero | hback'
    · have hlength := congrArg List.length hsame
      rw [hzero, List.length_append, List.length_replicate, List.length_singleton] at hlength
      exact absurd (List.eq_nil_of_length_eq_zero (by omega)) hb.ne_nil
    · exact absurd hlast hback'

/-- **The plain spelling of a number.** -/
structure Spells (a b : List Char) (v : ℚ) : Prop where
  whole : IsDigits a
  fraction : IsDigits b
  plain : Plain a b
  value : pointedValue a b = v

/-- **A number has one plain spelling only.** -/
theorem Spells.unique {a b a' b' : List Char} {v : ℚ} (h : Spells a b v) (h' : Spells a' b' v) :
    a = a' ∧ b = b' := by
  have heq := h.value.trans h'.value.symm
  rw [pointedValue_eq, pointedValue_eq] at heq
  have hlt := fraction_lt_one h.fraction.digits
  have hlt' := fraction_lt_one h'.fraction.digits
  have hpos : (0 : ℚ) ≤ digitsValue b / 10 ^ b.length := by positivity
  have hpos' : (0 : ℚ) ≤ digitsValue b' / 10 ^ b'.length := by positivity
  -- The fractions are less than one, so the whole numbers are the same, and then the fractions are.
  have hwhole : digitsValue a = digitsValue a' := by
    have hle : (digitsValue a : ℚ) < digitsValue a' + 1 := by linarith
    have hle' : (digitsValue a' : ℚ) < digitsValue a + 1 := by linarith
    have : digitsValue a < digitsValue a' + 1 := by exact_mod_cast hle
    have : digitsValue a' < digitsValue a + 1 := by exact_mod_cast hle'
    omega
  have hfraction : (digitsValue b : ℚ) / 10 ^ b.length = digitsValue b' / 10 ^ b'.length := by
    rw [hwhole] at heq
    linarith
  refine ⟨?_, ?_⟩
  · rw [← toDigits_of_front h.whole h.plain.front, hwhole,
      toDigits_of_front h'.whole h'.plain.front]
  · rcases le_total b.length b'.length with hle | hle
    · exact eq_of_fraction_eq h.fraction h'.fraction h'.plain.back hle hfraction
    · exact (eq_of_fraction_eq h'.fraction h.fraction h.plain.back hle hfraction.symm).symm

theorem isDigits_zero : IsDigits ['0'] := by decide

theorem isDigit_of_mem_zeros {k : ℕ} {c : Char} (hc : c ∈ List.replicate k '0') :
    Text.isDigit c = true := by
  rw [List.eq_of_mem_replicate hc]
  rfl

section Shapes

variable {digits : List Char} (hdigits : IsDigits digits)
include hdigits

/-- Digits behind the point and behind some zeros. -/
theorem spells_small (hlast : digits.getLast? ≠ some '0') (k : ℕ) :
    Spells ['0'] (List.replicate k '0' ++ digits)
      (digitsValue digits * 10 ^ (-(k + digits.length : ℤ))) where
  whole := isDigits_zero
  fraction := ⟨by simp [hdigits.ne_nil], fun c hc =>
    (List.mem_append.mp hc).elim isDigit_of_mem_zeros (hdigits.digits c)⟩
  plain := ⟨.inl rfl, .inr (by rwa [List.getLast?_append_of_ne_nil _ hdigits.ne_nil])⟩
  value := by
    have hzero : digitsValue ['0'] = 0 := rfl
    rw [pointedValue, digitsValue_append, digitsValue_append, digitsValue_replicate, hzero,
      List.length_append, List.length_replicate]
    simp

/-- Digits on both sides of the point. -/
theorem spells_mixed (hhead : digits.head? ≠ some '0') (hlast : digits.getLast? ≠ some '0') {k : ℕ}
    (hpos : 0 < k) (hk : k < digits.length) :
    Spells (digits.take k) (digits.drop k)
      (digitsValue digits * 10 ^ (-(digits.length - k : ℤ))) where
  whole := ⟨by simp [hdigits.ne_nil, hpos.ne'], fun c hc =>
    hdigits.digits c (List.mem_of_mem_take hc)⟩
  fraction := ⟨by simpa using hk, fun c hc => hdigits.digits c (List.mem_of_mem_drop hc)⟩
  plain := by
    refine ⟨.inr ?_, .inr ?_⟩
    · rwa [List.head?_take, if_neg hpos.ne']
    · rwa [List.getLast?_drop, if_neg (by omega)]
  value := by
    rw [pointedValue, List.take_append_drop, List.length_drop, Nat.cast_sub hk.le]

/-- Digits before the point, with zeros behind them. -/
theorem spells_whole (hhead : digits.head? ≠ some '0') (k : ℕ) :
    Spells (digits ++ List.replicate k '0') ['0'] (digitsValue digits * 10 ^ (k : ℤ)) where
  whole := ⟨by simp [hdigits.ne_nil], fun c hc =>
    (List.mem_append.mp hc).elim (hdigits.digits c) isDigit_of_mem_zeros⟩
  fraction := isDigits_zero
  plain := ⟨.inr (by rwa [List.head?_append_of_ne_nil _ hdigits.ne_nil]), .inl rfl⟩
  value := by
    have hzero : digitsValue ['0'] = 0 := rfl
    rw [pointedValue_eq, digitsValue_append, digitsValue_replicate, hzero, List.length_replicate]
    simp

end Shapes

/-! ### What is written -/

/-- What stands before and behind the point. -/
def parts (digits : List Char) (pointAfter : ℤ) : List Char × List Char :=
  if pointAfter ≤ 0 then (['0'], List.replicate (-pointAfter).toNat '0' ++ digits)
  else if pointAfter < digits.length then
    (digits.take pointAfter.toNat, digits.drop pointAfter.toNat)
  else (digits ++ List.replicate (pointAfter.toNat - digits.length) '0', ['0'])

theorem pointed_eq (digits : List Char) (pointAfter : ℤ) :
    pointed digits pointAfter =
      (parts digits pointAfter).1 ++ '.' :: (parts digits pointAfter).2 := by
  -- Both are made by the same two tests on where the point stands.
  unfold pointed parts
  split
  · simp
  · split <;> simp

theorem isDigits_toDigits (n : ℕ) : IsDigits (Nat.toDigits 10 n) :=
  ⟨Nat.toDigits_ne_nil, fun _ hc => Nat.isDigit_of_mem_toDigits (by norm_num) (by norm_num) hc⟩

/-- The last digit of a number. -/
theorem getLast?_toDigits (n : ℕ) :
    (Nat.toDigits 10 n).getLast? = some (Nat.digitChar (n % 10)) := by
  rw [Nat.toDigits_eq_if (by norm_num)]
  split
  · next hlt => rw [Nat.mod_eq_of_lt hlt]; rfl
  · exact List.getLast?_concat

theorem getLast?_toDigits_ne {n : ℕ} (h : n % 10 ≠ 0) :
    (Nat.toDigits 10 n).getLast? ≠ some '0' := by
  have hdigit : ∀ d < 10, d ≠ 0 → some (Nat.digitChar d) ≠ some '0' := by decide
  rw [getLast?_toDigits]
  exact hdigit _ (Nat.mod_lt _ (by norm_num)) h

theorem digits_pos {d : Scaled} (hd : d.digits % 10 ≠ 0) : 0 < d.digits := by
  refine Nat.pos_of_ne_zero fun hzero => hd ?_
  rw [hzero]

/-- **What is written is plain**, and its value is that of the decimal. -/
theorem spells_parts {d : Scaled} (hd : d.digits % 10 ≠ 0) :
    Spells (parts (Nat.toDigits 10 d.digits) d.pointAfter).1
      (parts (Nat.toDigits 10 d.digits) d.pointAfter).2 (d.digits * 10 ^ d.power) := by
  have hdigits := isDigits_toDigits d.digits
  have hhead := Text.head?_toDigits (digits_pos hd)
  have hlast := getLast?_toDigits_ne hd
  have hvalue : digitsValue (Nat.toDigits 10 d.digits) = d.digits := Nat.ofDigitChars_ten_toDigits
  have hpoint : d.pointAfter = (Nat.toDigits 10 d.digits).length + d.power := rfl
  unfold parts
  split
  · next hle =>
    have hspells := spells_small hdigits hlast (-d.pointAfter).toNat
    -- The zeros and the digits behind the point are as many as the power takes away.
    have hpower : -((-d.pointAfter).toNat + (Nat.toDigits 10 d.digits).length : ℤ) = d.power := by
      omega
    rwa [hvalue, hpower] at hspells
  · next hpos =>
    split
    · next hinside =>
      have hspells := spells_mixed hdigits hhead hlast (k := d.pointAfter.toNat) (by omega)
        (by omega)
      have hpower : -((Nat.toDigits 10 d.digits).length - d.pointAfter.toNat : ℤ) = d.power := by
        omega
      rwa [hvalue, hpower] at hspells
    · next houtside =>
      have hspells := spells_whole hdigits hhead
        (d.pointAfter.toNat - (Nat.toDigits 10 d.digits).length)
      have hpower : ((d.pointAfter.toNat - (Nat.toDigits 10 d.digits).length : ℕ) : ℤ) =
          d.power := by omega
      rwa [hvalue, hpower] at hspells

/-! ### Exponents -/

/-- Behind zeros comes a digit that is none, so there are no more zeros than these. -/
theorem zeros_prefix_iff {j k : ℕ} {digits : List Char} (h : digits.head? ≠ some '0') :
    List.replicate j '0' <+: List.replicate k '0' ++ digits ↔ j ≤ k := by
  -- The digit behind the zeros would have to be one of those that are asked for.
  constructor
  · intro hprefix
    by_contra hlt
    obtain ⟨i, rfl⟩ := Nat.exists_eq_add_of_lt (not_le.mp hlt)
    rw [add_assoc, List.replicate_add, List.prefix_append_right_inj, List.replicate_succ] at hprefix
    cases digits with
    | nil => simp at hprefix
    | cons c cs =>
      rw [List.cons_prefix_cons] at hprefix
      exact h (congrArg some hprefix.1.symm)
  · intro hle
    obtain ⟨i, rfl⟩ := Nat.exists_eq_add_of_le hle
    rw [List.replicate_add, List.append_assoc]
    exact List.prefix_append _ _

/-- No exponent is needed for up to sixteen digits before the point and up to four zeros behind a
zero. -/
structure Short (a b : List Char) : Prop where
  large : a.length ≤ 16
  small : a = ['0'] → ¬ List.replicate 5 '0' <+: b

/-- With a digit before the point, as many stand there as are asked for, and the first one is the
first of all. -/
theorem parts_of_pos {digits : List Char} {pointAfter : ℤ} (hne : digits ≠ [])
    (h : 0 < pointAfter) :
    ((parts digits pointAfter).1.length : ℤ) = pointAfter ∧
      (parts digits pointAfter).1.head? = digits.head? := by
  rw [parts, if_neg (by omega)]
  -- Either the point stands among the digits, or zeros are put before it.
  split
  · next hinside =>
    refine ⟨?_, by rw [List.head?_take, if_neg (by omega)]⟩
    rw [List.length_take]
    omega
  · next houtside =>
    refine ⟨?_, List.head?_append_of_ne_nil _ hne⟩
    rw [List.length_append, List.length_replicate]
    omega

theorem short_parts_iff {d : Scaled} (hd : d.digits % 10 ≠ 0) :
    Short (parts (Nat.toDigits 10 d.digits) d.pointAfter).1
      (parts (Nat.toDigits 10 d.digits) d.pointAfter).2 ↔
        Notation.block.usesExponent d.pointAfter = false := by
  have hhead := Text.head?_toDigits (digits_pos hd)
  have hexponent : Notation.block.usesExponent d.pointAfter = false ↔
      d.pointAfter ≤ 16 ∧ -5 < d.pointAfter := by
    simp [Notation.usesExponent, Notation.block]
  rw [hexponent]
  -- Only one of the two bounds is in force: that for long numbers if there is a digit before the
  -- point, and else that for zeros behind it.
  by_cases hpos : 0 < d.pointAfter
  · obtain ⟨hlength, hfirst⟩ := parts_of_pos (isDigits_toDigits d.digits).ne_nil hpos
    rw [← hfirst] at hhead
    constructor
    · rintro ⟨hlarge, -⟩
      omega
    · rintro ⟨hhigh, -⟩
      exact ⟨by omega, fun hzero => absurd (congrArg List.head? hzero) hhead⟩
  · have hparts : parts (Nat.toDigits 10 d.digits) d.pointAfter =
        (['0'], List.replicate (-d.pointAfter).toNat '0' ++ Nat.toDigits 10 d.digits) :=
      if_pos (by omega)
    rw [hparts]
    have hzeros := zeros_prefix_iff (j := 5) (k := (-d.pointAfter).toNat) hhead
    constructor
    · rintro ⟨-, hsmall⟩
      have := (not_congr hzeros).mp (hsmall rfl)
      omega
    · rintro ⟨-, hlow⟩
      exact ⟨by simp, fun _ => (not_congr hzeros).mpr (by omega)⟩

/-! ### Faithful spellings -/

/-- **The spelling `a.b` comes back**: it is plain and short, and its number is zero or the shortest
decimal of the value to which it rounds. -/
structure Faithful (a b : List Char) : Prop where
  plain : Plain a b
  short : Short a b
  shortest : pointedValue a b = 0 ∨ ∃ m q d, Canonical m q ∧ IsShortest m q d ∧
    pointedValue a b = d.digits * 10 ^ d.power

/-- Digits are cut at their point in one way only. -/
theorem append_point_inj {a b a' b' : List Char} (ha : IsDigits a) (ha' : IsDigits a') :
    a ++ '.' :: b = a' ++ '.' :: b' ↔ a = a' ∧ b = b' := by
  -- A digit is no point, so the first point is the one between the two.
  have hpoint : ∀ {s : List Char}, IsDigits s → '.' ∉ s := fun hs hmem =>
    absurd (hs.digits '.' hmem) (by decide)
  constructor
  · intro h
    have hcut := congrArg (Text.splitFirst '.') h
    rw [Text.splitFirst_append (hpoint ha), Text.splitFirst_append (hpoint ha')] at hcut
    exact Prod.mk.inj (Option.some.inj hcut)
  · rintro ⟨rfl, rfl⟩
    rfl

theorem mem_scientific (digits : List Char) (pointAfter : ℤ) :
    'e' ∈ Notation.block.scientific digits pointAfter := by
  -- An exponent is written with its letter in either form.
  simp only [scientific, Notation.block]
  split <;> simp

/-- What is written for a value other than zero. -/
theorem toList_write {m : ℕ} {q : ℤ} (hm : 0 < m) :
    (Notation.block.write (.finite false m q)).toList =
      if Notation.block.usesExponent (shortest m q).pointAfter then
        Notation.block.scientific (Nat.toDigits 10 (shortest m q).digits) (shortest m q).pointAfter
      else pointed (Nat.toDigits 10 (shortest m q).digits) (shortest m q).pointAfter := by
  cases m with
  | zero => exact absurd hm (lt_irrefl 0)
  | succ m =>
    simp only [Notation.write]
    simp

/-- Zero comes back from `0.0` only. -/
theorem faithful_of_zero_iff {a b : List Char} (ha : IsDigits a) (hb : IsDigits b)
    (h : RoundsTo 0 minExponent (pointedValue a b)) :
    Faithful a b ↔ a = ['0'] ∧ b = ['0'] := by
  constructor
  · rintro ⟨hplain, -, hzero | ⟨m, q, d, hc, hshortest, hvalue⟩⟩
    · refine Spells.unique ⟨ha, hb, hplain, hzero⟩
        ⟨isDigits_zero, isDigits_zero, ⟨.inl rfl, .inl rfl⟩, ?_⟩
      rw [pointedValue_eq]
      simp [digitsValue]
    · -- Nothing else that rounds to zero is a shortest decimal, since zero is on every grid.
      have hrounds := hshortest.closest.rounds
      rw [← hvalue] at hrounds
      obtain ⟨rfl, rfl⟩ := hrounds.unique hc canonical_zero h
      refine absurd ?_ (hshortest.coarsest 0)
      simpa using roundsTo_self 0 minExponent
  · rintro ⟨rfl, rfl⟩
    refine ⟨⟨.inl rfl, .inl rfl⟩, ⟨by simp, fun _ => by decide⟩, .inl ?_⟩
    rw [pointedValue_eq]
    simp [digitsValue]

/-- **A number is written as it is spelled** exactly if the spelling is faithful. -/
theorem write_eq_pointed_iff {a b : List Char} (ha : IsDigits a) (hb : IsDigits b) {m : ℕ} {q : ℤ}
    (hc : Canonical m q) (h : RoundsTo m q (pointedValue a b)) :
    Notation.block.write (.finite false m q) = String.ofList (a ++ '.' :: b) ↔ Faithful a b := by
  rcases Nat.eq_zero_or_pos m with rfl | hm
  · -- Zero is canonical with the least exponent only.
    have hq : q = minExponent := by
      by_contra hq
      have := hc.full hq
      omega
    subst hq
    rw [faithful_of_zero_iff ha hb h, ← append_point_inj ha isDigits_zero, ← String.toList_inj,
      String.toList_ofList, eq_comm]
    rfl
  · have hshortest := isShortest_shortest hc hm
    have hten := hshortest.digits_mod_ten
    have hspells := spells_parts hten
    have hshort := short_parts_iff hten
    rw [← String.toList_inj, String.toList_ofList, toList_write hm]
    constructor
    · intro hwritten
      split at hwritten
      · -- There is no exponent in the spelling.
        next hexponent =>
        have hmem := mem_scientific (Nat.toDigits 10 (shortest m q).digits)
          (shortest m q).pointAfter
        rw [hwritten] at hmem
        rcases List.mem_append.mp hmem with hmem | hmem
        · exact absurd (ha.digits 'e' hmem) (by decide)
        · rcases List.mem_cons.mp hmem with hpoint | hmem
          · exact absurd hpoint (by decide)
          · exact absurd (hb.digits 'e' hmem) (by decide)
      · next hexponent =>
        rw [pointed_eq, append_point_inj hspells.whole ha] at hwritten
        obtain ⟨rfl, rfl⟩ := hwritten
        exact ⟨hspells.plain, hshort.mpr (Bool.eq_false_iff.mpr hexponent),
          .inr ⟨m, q, shortest m q, hc, hshortest, hspells.value⟩⟩
    · -- The decimal that is spelled rounds to this value, so it is the one that is written.
      rintro ⟨hplain, hshortab, hzero | ⟨m', q', d, hc', hshortest', hvalue⟩⟩
      · rw [hzero] at h
        exact absurd h (not_roundsTo_zero hm q)
      · have hrounds := hshortest'.closest.rounds
        rw [← hvalue] at hrounds
        obtain ⟨rfl, rfl⟩ := hrounds.unique hc' hc h
        obtain rfl := (shortest_eq_iff hc hm).mpr hshortest'
        obtain ⟨rfl, rfl⟩ := hspells.unique ⟨ha, hb, hplain, hvalue⟩
        rw [if_neg (Bool.eq_false_iff.mp (hshort.mp hshortab)), pointed_eq]

/-- The digits before the point bound the number. -/
theorem pointedValue_lt {a b : List Char} (ha : IsDigits a) (hb : IsDigits b) :
    pointedValue a b < 10 ^ a.length := by
  have hfraction := fraction_lt_one hb.digits
  have hwhole : (digitsValue a : ℚ) + 1 ≤ 10 ^ a.length := by
    exact_mod_cast digitsValue_lt ha.digits
  rw [pointedValue_eq]
  linarith

/-- A number that is not zero is a decimal that does not end in a zero. -/
theorem exists_decimal_of_ne_zero {a b : List Char} (h : pointedValue a b ≠ 0) :
    ∃ d : Scaled, d.digits % 10 ≠ 0 ∧ d.digits ≤ digitsValue (a ++ b) ∧
      pointedValue a b = d.digits * 10 ^ d.power := by
  -- A number that is not zero has digits that are not all zero.
  have hne : digitsValue (a ++ b) ≠ 0 := by
    intro hzero
    rw [pointedValue, hzero] at h
    simp at h
  -- The zeros at the end are taken off the digits and added to the power.
  obtain ⟨k, n, hn, hvalue⟩ := Nat.exists_eq_pow_mul_and_not_dvd hne 10 (by norm_num)
  refine ⟨⟨n, k - b.length⟩, fun hzero => hn (Nat.dvd_of_mod_eq_zero hzero), ?_, ?_⟩
  · rw [hvalue]
    exact Nat.le_mul_of_pos_left n (by positivity)
  · rw [pointedValue, hvalue, sub_eq_add_neg, zpow_add₀ (by norm_num), zpow_natCast]
    push_cast
    ring

/-- A decimal of moderate size rounds to a value with all its 53 bits. -/
theorem exists_roundsTo_of_moderate {n : ℕ} {p : ℤ} (hlow : (10 : ℚ) ^ (-5 : ℤ) ≤ n * 10 ^ p)
    (hhigh : (n : ℚ) * 10 ^ p < 10 ^ 15) :
    ∃ m q, Canonical m q ∧ 2 ^ 52 ≤ m ∧ RoundsTo m q (n * 10 ^ p) := by
  -- The largest finite value is far above.
  have hlarge : (10 : ℚ) ^ 15 ≤ overflow := by
    calc (10 : ℚ) ^ (15 : ℤ) ≤ 2 ^ (52 + Binary64.maxExponent) :=
          ten_zpow_le_two_zpow (by decide) (by decide)
      _ = 2 ^ (52 : ℤ) * 2 ^ Binary64.maxExponent := zpow_add₀ two_ne_zero _ _
      _ ≤ overflow := mul_le_mul_of_nonneg_right (by norm_num) (two_zpow_pos _).le
  obtain ⟨m, q, hc, h⟩ := exists_roundsTo_of_lt_overflow (hhigh.trans_le hlarge)
  refine ⟨m, q, hc, hc.full fun hmin => ?_, h⟩
  -- With the least exponent the number would be tiny.
  have hend := (div_le_iff₀ (two_zpow_pos q)).mp h.high
  have hbits : (m : ℚ) + 1 / 2 ≤ 2 ^ 54 := by
    have : (m : ℚ) < 2 ^ 53 := by exact_mod_cast hc.bits
    linarith
  have htiny : (n : ℚ) * 10 ^ p ≤ 10 ^ (-6 : ℤ) := by
    calc (n : ℚ) * 10 ^ p ≤ (m + 1 / 2) * 2 ^ q := hend
      _ ≤ 2 ^ 54 * 2 ^ q := mul_le_mul_of_nonneg_right hbits (two_zpow_pos q).le
      _ = 2 ^ (54 + minExponent) := by
        rw [hmin, zpow_add₀ two_ne_zero]
        rfl
      _ ≤ 10 ^ (-6 : ℤ) := two_zpow_le_ten_zpow (by decide) (by decide)
  have hstep : (10 : ℚ) ^ (-6 : ℤ) < 10 ^ (-5 : ℤ) := by norm_num
  linarith

/-- **Plain and short spellings of up to fifteen digits are faithful.** -/
theorem faithful_of_digits {a b : List Char} (ha : IsDigits a) (hb : IsDigits b)
    (hplain : Plain a b) (hshort : Short a b) (hlength : a.length + b.length ≤ 15) :
    Faithful a b := by
  refine ⟨hplain, hshort, ?_⟩
  by_cases hzero : pointedValue a b = 0
  · exact .inl hzero
  · right
    obtain ⟨d, hten, hle, hvalue⟩ := exists_decimal_of_ne_zero hzero
    -- There are no more than fifteen digits in all, so their number has no more either.
    have hn : d.digits < 10 ^ 15 := by
      have hlt := digitsValue_lt (s := a ++ b) fun c hc =>
        (List.mem_append.mp hc).elim (ha.digits c) (hb.digits c)
      rw [List.length_append] at hlt
      exact (hle.trans_lt hlt).trans_le (Nat.pow_le_pow_right (by norm_num) hlength)
    -- As no exponent is needed, the number is neither large nor small.
    obtain ⟨hwhole, hfraction⟩ := (spells_parts hten).unique ⟨ha, hb, hplain, hvalue⟩
    rw [← hwhole, ← hfraction, short_parts_iff hten] at hshort
    have hpoint : -5 < d.pointAfter := by
      have := hshort
      simp only [Notation.usesExponent, Notation.block, Bool.or_eq_false_iff,
        decide_eq_false_iff_not] at this
      omega
    have hlow : (10 : ℚ) ^ (-5 : ℤ) ≤ d.digits * 10 ^ d.power :=
      (zpow_le_zpow_right₀ (by norm_num) (by unfold Scaled.pointAfter at hpoint; omega)).trans
        (ten_zpow_le_decimal (digits_pos hten) d.power)
    have hhigh : (d.digits : ℚ) * 10 ^ d.power < 10 ^ 15 := by
      rw [← hvalue]
      exact (pointedValue_lt ha hb).trans_le (pow_le_pow_right₀ (by norm_num) (by omega))
    obtain ⟨m, q, hc, hfull, hrounds⟩ := exists_roundsTo_of_moderate hlow hhigh
    exact ⟨m, q, d, hc, isShortest_of_digits hfull hrounds hten hn, hvalue⟩

end WorkflowPolicy.Decimal
