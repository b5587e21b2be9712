import Mathlib
import WorkflowPolicy.Decimal.Shortest

/-!
# Rounding to binary values

A number rounds to `m · 2 ^ q` if it lies in an interval around that value, half a unit of the last
place to either side (`RoundsTo`). `Binary64.ofDecimal` finds the mantissa and the exponent by
dividing, and it takes shortcuts for numbers that are far too large or too small. Its result is
nevertheless given by the intervals alone: `ofDecimal_eq_finite_iff` and
`ofDecimal_eq_infinite_iff`.

The intervals do not overlap (`RoundsTo.unique`): where two of them meet, the common end belongs to
the one with the even mantissa. So it is enough to show that the result of the division has the
number in its interval.
-/

namespace WorkflowPolicy.Decimal

open Binary64 (minExponent maxExponent inUnits leadingExponent roundDiv ofRatio ofDecimal)

/-! ### Intervals -/

/-- The number lies around the whole number `m`, at most `gap` below it and a half above it. The
ends count if `m` is even. -/
structure Around (m : ℕ) (gap x : ℚ) : Prop where
  low : m - gap ≤ x
  high : x ≤ m + 1 / 2
  ends : m % 2 = 1 → m - gap < x ∧ x < m + 1 / 2

/-- How far the interval of `m · 2 ^ q` reaches down, in units of the last place. Below a power of
two the values stand twice as close. -/
def gapBelow (m : ℕ) (q : ℤ) : ℚ := if m = 2 ^ 52 ∧ minExponent < q then 1 / 4 else 1 / 2

/-- **The number rounds to `m · 2 ^ q`.** -/
def RoundsTo (m : ℕ) (q : ℤ) (v : ℚ) : Prop := Around m (gapBelow m q) (v / 2 ^ q)

/-- **The one form of a finite value**: at most 53 bits, and less only for the least exponent. -/
structure Canonical (m : ℕ) (q : ℤ) : Prop where
  bits : m < 2 ^ 53
  low : minExponent ≤ q
  high : q ≤ maxExponent
  full : q ≠ minExponent → 2 ^ 52 ≤ m

theorem gapBelow_le (m : ℕ) (q : ℤ) : gapBelow m q ≤ 1 / 2 := by
  unfold gapBelow
  split <;> norm_num

theorem gapBelow_pos (m : ℕ) (q : ℤ) : 0 < gapBelow m q := by
  unfold gapBelow
  split <;> norm_num

theorem two_zpow_pos (q : ℤ) : (0 : ℚ) < 2 ^ q := by positivity

theorem ten_zpow_pos (p : ℤ) : (0 : ℚ) < 10 ^ p := by positivity

/-- A value rounds to itself. -/
theorem roundsTo_self (m : ℕ) (q : ℤ) : RoundsTo m q (m * 2 ^ q) := by
  have hgap := gapBelow_pos m q
  have hself : (m : ℚ) * 2 ^ q / 2 ^ q = m := mul_div_cancel_right₀ _ (two_zpow_pos q).ne'
  rw [RoundsTo, hself]
  exact ⟨by linarith, by linarith, fun _ => ⟨by linarith, by linarith⟩⟩

/-- Two numbers round to a value only if all numbers between them do. -/
theorem RoundsTo.between {m : ℕ} {q : ℤ} {u v w : ℚ} (hu : RoundsTo m q u) (hw : RoundsTo m q w)
    (huv : u ≤ v) (hvw : v ≤ w) : RoundsTo m q v := by
  -- The order is the same in units of the last place, and there the interval has no holes.
  have hq := two_zpow_pos q
  have huv' : u / 2 ^ q ≤ v / 2 ^ q := div_le_div_of_nonneg_right huv hq.le
  have hvw' : v / 2 ^ q ≤ w / 2 ^ q := div_le_div_of_nonneg_right hvw hq.le
  exact ⟨hu.low.trans huv', hvw'.trans hw.high,
    fun hodd => ⟨(hu.ends hodd).1.trans_le huv', hvw'.trans_lt (hw.ends hodd).2⟩⟩

/-- The number in another unit. -/
theorem div_two_zpow_eq (v : ℚ) {q q' : ℤ} (k : ℕ) (h : q' = q + k) :
    v / 2 ^ q = v / 2 ^ q' * 2 ^ k := by
  have hq := two_zpow_pos q
  rw [h, zpow_add₀ two_ne_zero, zpow_natCast]
  field_simp

/-- The interval of a larger exponent begins behind the end of one with a smaller exponent. -/
theorem RoundsTo.exponent_not_lt {m m' : ℕ} {q q' : ℤ} {v : ℚ} (hc : Canonical m q)
    (hc' : Canonical m' q') (h : RoundsTo m q v) (h' : RoundsTo m' q' v) : ¬ q < q' := by
  intro hlt
  obtain ⟨k, hk⟩ := Int.le.dest (Int.add_one_le_iff.mpr hlt)
  have hunits : v / 2 ^ q = v / 2 ^ q' * 2 ^ (k + 1) := div_two_zpow_eq v (k + 1) (by omega)
  have hfull : 2 ^ 52 ≤ m' := hc'.full (by have := hc.low; omega)
  have hpow : (2 : ℚ) ≤ 2 ^ (k + 1) := by
    have := one_le_pow₀ (n := k) (one_le_two (α := ℚ))
    rw [pow_succ]
    linarith
  -- The interval of the larger exponent begins a quarter of a unit below the power of two at most.
  have hlow : (2 : ℚ) ^ 52 - 1 / 4 ≤ v / 2 ^ q' := by
    refine le_trans ?_ h'.low
    by_cases hm : m' = 2 ^ 52
    · rw [gapBelow, if_pos ⟨hm, hc.low.trans_lt hlt⟩, hm]
      norm_num
    · have hm' : (2 : ℚ) ^ 52 + 1 ≤ m' := by exact_mod_cast Nat.lt_of_le_of_ne hfull (Ne.symm hm)
      have := gapBelow_le m' q'
      linarith
  -- So the number is at the end of the interval of `2 ^ 53 - 1` or behind it, and that is odd.
  have hend : (2 : ℚ) ^ 53 - 1 / 2 ≤ v / 2 ^ q := by
    rw [hunits]
    nlinarith
  have hm : m = 2 ^ 53 - 1 := by
    have hge : (2 : ℚ) ^ 53 ≤ m + 1 := by linarith [h.high]
    have hge' : 2 ^ 53 ≤ m + 1 := by exact_mod_cast hge
    have := hc.bits
    omega
  have hlast := (h.ends (by omega)).2
  rw [hm] at hlast
  norm_num at hlast hend
  linarith

/-- Neighbours with one exponent share an end, and one of the two is odd. -/
theorem RoundsTo.mantissa_not_lt {m m' : ℕ} {q : ℤ} {v : ℚ} (h : RoundsTo m q v)
    (h' : RoundsTo m' q v) : ¬ m < m' := by
  intro hlt
  have hle : (m : ℚ) + 1 ≤ m' := by exact_mod_cast hlt
  have hgap := gapBelow_le m' q
  have hlow := h'.low
  have hhigh := h.high
  -- The intervals are a unit wide, so only the next one can meet this one.
  have hnext : m' = m + 1 := by
    have hnext : (m' : ℚ) ≤ m + 1 := by linarith
    have : m' ≤ m + 1 := by exact_mod_cast hnext
    omega
  rcases Nat.mod_two_eq_zero_or_one m with heven | hodd
  · have := (h'.ends (by omega)).1
    linarith
  · have := (h.ends hodd).2
    linarith

/-- **A number rounds to one value only.** -/
theorem RoundsTo.unique {m m' : ℕ} {q q' : ℤ} {v : ℚ} (hc : Canonical m q)
    (hc' : Canonical m' q') (h : RoundsTo m q v) (h' : RoundsTo m' q' v) : m = m' ∧ q = q' := by
  obtain rfl : q = q' := le_antisymm (not_lt.mp (h'.exponent_not_lt hc' hc h))
    (not_lt.mp (h.exponent_not_lt hc hc' h'))
  exact ⟨le_antisymm (not_lt.mp (h'.mantissa_not_lt h)) (not_lt.mp (h.mantissa_not_lt h')), rfl⟩

/-! ### Division -/

/-- **The rounded quotient** is the whole number around which the quotient lies. -/
theorem around_roundDiv (a : ℕ) {b : ℕ} (hb : 0 < b) :
    Around (roundDiv a b) (1 / 2) ((a : ℚ) / b) := by
  have hb' : (0 : ℚ) < b := by exact_mod_cast hb
  have ha : (a : ℚ) = b * (a / b : ℕ) + (a % b : ℕ) := by exact_mod_cast (Nat.div_add_mod a b).symm
  have hquotient : (a : ℚ) / b = (a / b : ℕ) + (a % b : ℕ) / (b : ℚ) := by
    rw [ha]
    field_simp
  have hlow : (0 : ℚ) ≤ (a % b : ℕ) / (b : ℚ) := by positivity
  have hhigh : ((a % b : ℕ) : ℚ) / b < 1 :=
    (div_lt_one hb').mpr (by exact_mod_cast Nat.mod_lt a hb)
  have hbelow : 2 * (a % b) < b ↔ ((a % b : ℕ) : ℚ) / b < 1 / 2 := by
    rw [div_lt_iff₀ hb', ← Nat.cast_lt (α := ℚ)]
    push_cast
    constructor <;> intro h <;> linarith
  have habove : b < 2 * (a % b) ↔ 1 / 2 < ((a % b : ℕ) : ℚ) / b := by
    rw [lt_div_iff₀ hb', ← Nat.cast_lt (α := ℚ)]
    push_cast
    constructor <;> intro h <;> linarith
  have hnext : ((a / b + 1 : ℕ) : ℚ) = (a / b : ℕ) + 1 := Nat.cast_succ _
  -- The quotient is a whole number and a fraction, and rounding goes by whether the fraction is
  -- below, above or at a half.
  rw [hquotient]
  generalize ((a % b : ℕ) : ℚ) / b = fraction at *
  simp only [roundDiv, hbelow, habove]
  split_ifs with h h' heven
  · exact ⟨by linarith, by linarith, fun _ => ⟨by linarith, by linarith⟩⟩
  · exact ⟨by linarith, by linarith, fun _ => ⟨by linarith, by linarith⟩⟩
  · -- An exact half goes to the even side.
    exact ⟨by linarith, by linarith, fun hodd => by omega⟩
  · exact ⟨by linarith, by linarith, fun hodd => by omega⟩

theorem inUnits_eq (n d : ℕ) (e : ℤ) :
    ((inUnits n d e).1 : ℚ) / (inUnits n d e).2 = n / d / 2 ^ e := by
  -- Numerator or denominator takes the power of two, by the sign of the exponent.
  unfold inUnits
  split
  · next he =>
    obtain ⟨k, rfl⟩ := Int.eq_ofNat_of_zero_le he
    simp [div_div]
  · next he =>
    obtain ⟨k, hk⟩ := Int.eq_ofNat_of_zero_le (by omega : 0 ≤ -e)
    obtain rfl : e = -k := by omega
    simp [div_eq_mul_inv]
    ring

theorem inUnits_pos {d : ℕ} (hd : 0 < d) (n : ℕ) (e : ℤ) : 0 < (inUnits n d e).2 := by
  unfold inUnits
  split
  · exact Nat.mul_pos hd (Nat.pow_pos (by decide))
  · exact hd

theorem two_zpow_log2_le {n : ℕ} (hn : 0 < n) : (2 : ℚ) ^ (n.log2 : ℤ) ≤ n := by
  rw [zpow_natCast]
  exact_mod_cast Nat.log2_self_le hn.ne'

theorem lt_two_zpow_log2 (n : ℕ) : (n : ℚ) < 2 ^ ((n.log2 : ℤ) + 1) := by
  have : n < 2 ^ (n.log2 + 1) := Nat.lt_log2_self
  exact_mod_cast this

/-- **The leading exponent** of a quotient. -/
theorem leadingExponent_spec {n d : ℕ} (hn : 0 < n) (hd : 0 < d) :
    (2 : ℚ) ^ leadingExponent n d ≤ (n : ℚ) / d ∧
      (n : ℚ) / d < 2 ^ (leadingExponent n d + 1) := by
  have hd' : (0 : ℚ) < d := by exact_mod_cast hd
  have hn' : (0 : ℚ) < n := by exact_mod_cast hn
  -- The guess is the leading exponent or one more.
  -- The logarithms say the size of both numbers within a factor of two.
  have hhigh : (n : ℚ) / d < 2 ^ ((n.log2 : ℤ) - d.log2 + 1) := by
    rw [div_lt_iff₀ hd']
    calc (n : ℚ) < 2 ^ ((n.log2 : ℤ) + 1) := lt_two_zpow_log2 n
      _ = 2 ^ ((n.log2 : ℤ) - d.log2 + 1) * 2 ^ (d.log2 : ℤ) := by
        rw [← zpow_add₀ two_ne_zero]
        congr 1
        ring
      _ ≤ 2 ^ ((n.log2 : ℤ) - d.log2 + 1) * d := by
        gcongr
        exact two_zpow_log2_le hd
  have hlow : (2 : ℚ) ^ ((n.log2 : ℤ) - d.log2 - 1) ≤ (n : ℚ) / d := by
    rw [le_div_iff₀ hd']
    calc (2 : ℚ) ^ ((n.log2 : ℤ) - d.log2 - 1) * d
        ≤ 2 ^ ((n.log2 : ℤ) - d.log2 - 1) * 2 ^ ((d.log2 : ℤ) + 1) := by
          gcongr
          exact (lt_two_zpow_log2 d).le
      _ = 2 ^ (n.log2 : ℤ) := by
        rw [← zpow_add₀ two_ne_zero]
        congr 1
        ring
      _ ≤ n := two_zpow_log2_le hn
  -- The comparison of whole numbers is that of the quotient with the guess.
  have hguess : (inUnits n d ((n.log2 : ℤ) - d.log2)).2 ≤
      (inUnits n d ((n.log2 : ℤ) - d.log2)).1 ↔
        (2 : ℚ) ^ ((n.log2 : ℤ) - d.log2) ≤ (n : ℚ) / d := by
    have hpos : (0 : ℚ) < (inUnits n d ((n.log2 : ℤ) - d.log2)).2 := by
      exact_mod_cast inUnits_pos hd n _
    rw [← Nat.cast_le (α := ℚ), ← one_le_div hpos, inUnits_eq, one_le_div (two_zpow_pos _)]
  simp only [leadingExponent, hguess]
  split
  · next h => exact ⟨h, hhigh⟩
  · next h => exact ⟨hlow, by simpa using h⟩

/-! ### Rounding -/

/-- What is larger than all finite values: the largest one and half a unit of its last place. -/
def overflow : ℚ := (2 ^ 53 - 1 / 2) * 2 ^ maxExponent

/-- What rounds to a finite value is below the limit. -/
theorem RoundsTo.lt_overflow {m : ℕ} {q : ℤ} {v : ℚ} (hc : Canonical m q) (h : RoundsTo m q v) :
    v < overflow := by
  have hq := two_zpow_pos q
  have hscale : (2 : ℚ) ^ q ≤ 2 ^ maxExponent := zpow_le_zpow_right₀ one_le_two hc.high
  have hbits : (m : ℚ) + 1 ≤ 2 ^ 53 := by exact_mod_cast hc.bits
  have hv : v = v / 2 ^ q * 2 ^ q := (div_mul_cancel₀ v hq.ne').symm
  have hlt : v / 2 ^ q < 2 ^ 53 - 1 / 2 := by
    rcases Nat.mod_two_eq_zero_or_one m with heven | hodd
    · -- An even mantissa is not the largest one.
      have hlt : (m : ℚ) + 2 ≤ 2 ^ 53 := by
        have : m + 2 ≤ 2 ^ 53 := by have := hc.bits; omega
        exact_mod_cast this
      linarith [h.high]
    · linarith [(h.ends hodd).2]
  rw [hv, overflow]
  calc v / 2 ^ q * 2 ^ q < (2 ^ 53 - 1 / 2) * 2 ^ q := by gcongr
    _ ≤ (2 ^ 53 - 1 / 2) * 2 ^ maxExponent := mul_le_mul_of_nonneg_left hscale (by norm_num)

/-- The result of a rounding: the finite value to which the number rounds, or infinity if the number
is too large. -/
inductive Rounded (negative : Bool) (v : ℚ) : Binary64 → Prop
  | finite {m : ℕ} {q : ℤ} (hc : Canonical m q) (h : RoundsTo m q v) :
    Rounded negative v (.finite negative m q)
  | infinite (h : overflow ≤ v) : Rounded negative v (.infinite negative)

theorem canonical_zero : Canonical 0 minExponent :=
  ⟨by decide, le_refl _, by decide, fun h => absurd rfl h⟩

/-- A number that is rounded up to `2 ^ 53` units is rounded to a power of two with the next
exponent. -/
theorem rounded_of_carry (negative : Bool) {v : ℚ} {e : ℤ} (hlow : minExponent ≤ e)
    (hbits : v / 2 ^ e < 2 ^ 53) (h : 2 ^ 53 - 1 / 2 ≤ v / 2 ^ e) :
    Rounded negative v
      (if maxExponent < e + 1 then .infinite negative else .finite negative (2 ^ 52) (e + 1)) := by
  split
  · -- Beyond the largest exponent the number is at least the limit.
    next hmax =>
    have hmax : maxExponent ≤ e := Int.lt_add_one_iff.mp hmax
    have hscale : (2 : ℚ) ^ maxExponent ≤ 2 ^ e := zpow_le_zpow_right₀ one_le_two hmax
    have hv : v = v / 2 ^ e * 2 ^ e := (div_mul_cancel₀ v (two_zpow_pos e).ne').symm
    refine .infinite ?_
    rw [hv, overflow]
    exact mul_le_mul h hscale (two_zpow_pos _).le (by linarith)
  · next hmax =>
    -- In the next unit the number is half as large, and just below a power of two.
    have hhalf : v / 2 ^ e = v / 2 ^ (e + 1) * 2 ^ 1 := div_two_zpow_eq v 1 rfl
    have hgap : gapBelow (2 ^ 52) (e + 1) = 1 / 4 := if_pos ⟨rfl, by omega⟩
    refine .finite ⟨by norm_num, by omega, not_lt.mp hmax, fun _ => le_refl _⟩ ?_
    rw [RoundsTo, hgap]
    exact ⟨by push_cast; linarith, by push_cast; linarith, fun hodd => absurd hodd (by norm_num)⟩

/-- A number that is rounded to fewer than `2 ^ 53` units keeps its exponent. -/
theorem rounded_of_lt (negative : Bool) {v : ℚ} {m : ℕ} {e : ℤ} (hlow : minExponent ≤ e)
    (hfull : e ≠ minExponent → 2 ^ 52 ≤ v / 2 ^ e) (hlt : m < 2 ^ 53)
    (h : Around m (1 / 2) (v / 2 ^ e)) :
    Rounded negative v
      (if maxExponent < e then .infinite negative else .finite negative m e) := by
  split
  · -- With so large an exponent the number is beyond the limit, having all its bits.
    next hmax =>
    have hfull := hfull (by unfold minExponent; unfold maxExponent at hmax; omega)
    have hscale : (2 : ℚ) * 2 ^ maxExponent ≤ 2 ^ e := by
      rw [← zpow_one_add₀ two_ne_zero]
      exact zpow_le_zpow_right₀ one_le_two (by omega)
    have hv : v = v / 2 ^ e * 2 ^ e := (div_mul_cancel₀ v (two_zpow_pos e).ne').symm
    refine .infinite ?_
    rw [hv, overflow]
    calc (2 ^ 53 - 1 / 2) * (2 : ℚ) ^ maxExponent ≤ 2 ^ 52 * (2 * 2 ^ maxExponent) := by
          have := two_zpow_pos maxExponent
          linarith
      _ ≤ v / 2 ^ e * 2 ^ e := by gcongr
  · next hmax =>
    refine .finite ⟨hlt, hlow, not_lt.mp hmax, fun hmin => ?_⟩ ⟨?_, h.high, fun hodd => ?_⟩
    · have hle : (2 : ℚ) ^ 52 < m + 1 := by linarith [hfull hmin, h.high]
      have : 2 ^ 52 < m + 1 := by exact_mod_cast hle
      omega
    · -- Below a power of two there are no numbers with this leading exponent.
      unfold gapBelow
      split
      · next hpower =>
        have := hfull hpower.2.ne'
        rw [hpower.1]
        push_cast
        linarith
      · exact h.low
    · have hgap : gapBelow m e = 1 / 2 := if_neg (by rintro ⟨rfl, -⟩; omega)
      rw [hgap]
      exact h.ends hodd

/-- The mantissa and the exponent of a number that lies around `m` units of `2 ^ e`. -/
def normalized (m : ℕ) (e : ℤ) : ℕ × ℤ := if m = 2 ^ 53 then (2 ^ 52, e + 1) else (m, e)

/-- A number that has at most 53 bits before the point in units of `2 ^ e`, and no fewer unless this
is the least exponent, is rounded by rounding it to a whole number of units. -/
theorem rounded_of_around (negative : Bool) {v : ℚ} {m : ℕ} {e : ℤ} (hlow : minExponent ≤ e)
    (hfull : e ≠ minExponent → 2 ^ 52 ≤ v / 2 ^ e) (hbits : v / 2 ^ e < 2 ^ 53)
    (h : Around m (1 / 2) (v / 2 ^ e)) :
    Rounded negative v (if maxExponent < (normalized m e).2 then .infinite negative
      else .finite negative (normalized m e).1 (normalized m e).2) := by
  -- The rounded number is at most one more than the largest mantissa.
  have hm := h.low
  unfold normalized
  split
  · next hcarry =>
    rw [hcarry] at hm
    exact rounded_of_carry negative hlow hbits (by exact_mod_cast hm)
  · next hcarry =>
    have hlt : m < 2 ^ 53 := by
      have hle : (m : ℚ) < 2 ^ 53 + 1 := by linarith
      have : m < 2 ^ 53 + 1 := by exact_mod_cast hle
      omega
    exact rounded_of_lt negative hlow hfull hlt h

/-- **A quotient is rounded**: to 53 bits, to fewer if the exponent is the least one. -/
theorem rounded_ofRatio (negative : Bool) (n : ℕ) {d : ℕ} (hd : 0 < d) :
    Rounded negative ((n : ℚ) / d) (ofRatio negative n d) := by
  by_cases hn : n = 0
  · -- Zero rounds to zero with the least exponent.
    have hself := roundsTo_self 0 minExponent
    rw [ofRatio, if_pos hn]
    exact .finite canonical_zero (by simpa [hn] using hself)
  · obtain ⟨hlow, hhigh⟩ := leadingExponent_spec (Nat.pos_of_ne_zero hn) hd
    set e := max (leadingExponent n d - 52) minExponent with he
    have hround := around_roundDiv (inUnits n d e).1 (inUnits_pos hd n e)
    rw [inUnits_eq] at hround
    have hresult : ofRatio negative n d =
        if maxExponent < (normalized (roundDiv (inUnits n d e).1 (inUnits n d e).2) e).2 then
          .infinite negative
        else .finite negative (normalized (roundDiv (inUnits n d e).1 (inUnits n d e).2) e).1
          (normalized (roundDiv (inUnits n d e).1 (inUnits n d e).2) e).2 := by
      rw [ofRatio, if_neg hn]
      rfl
    rw [hresult]
    refine rounded_of_around negative (le_max_right _ _) (fun hmin => ?_) ?_ hround
    · -- Above the least exponent the quotient has 53 bits before the point.
      have hexponent : leadingExponent n d = 52 + e := by omega
      rw [le_div_iff₀ (two_zpow_pos e)]
      calc (2 : ℚ) ^ 52 * 2 ^ e = 2 ^ leadingExponent n d := by
            rw [hexponent, zpow_add₀ two_ne_zero]
            rfl
        _ ≤ n / d := hlow
    · rw [div_lt_iff₀ (two_zpow_pos e)]
      calc (n : ℚ) / d < 2 ^ (leadingExponent n d + 1) := hhigh
        _ ≤ 2 ^ (53 + e) := zpow_le_zpow_right₀ one_le_two (by omega)
        _ = 2 ^ 53 * 2 ^ e := by
          rw [zpow_add₀ two_ne_zero]
          rfl

/-! ### Powers of two and of ten -/

/-- A power of two below a power of ten: `2 ^ 93` is just below `10 ^ 28`, and `10 ^ 31` just below
`2 ^ 103`. -/
theorem two_zpow_le_ten_zpow {e p : ℤ} (h : 28 * e ≤ 93 * p) (h' : 31 * e ≤ 103 * p) :
    (2 : ℚ) ^ e ≤ 10 ^ p := by
  -- The cases are the signs of the exponents, since whole powers are compared with whole powers.
  rcases le_or_gt 0 p with hp | hp
  · obtain ⟨k, rfl⟩ := Int.eq_ofNat_of_zero_le hp
    rcases le_or_gt e 0 with he | he
    · calc (2 : ℚ) ^ e ≤ 1 := zpow_le_one_of_nonpos₀ one_le_two he
        _ ≤ 10 ^ (k : ℤ) := one_le_zpow₀ (by norm_num) hp
    · obtain ⟨j, rfl⟩ := Int.eq_ofNat_of_zero_le he.le
      have hpow : (2 ^ j) ^ 93 ≤ (10 ^ k) ^ 93 := by
        calc (2 ^ j) ^ 93 = (2 ^ 93) ^ j := by rw [← pow_mul, ← pow_mul, mul_comm]
          _ ≤ (10 ^ 28) ^ j := Nat.pow_le_pow_left (by norm_num) j
          _ = 10 ^ (28 * j) := (pow_mul 10 28 j).symm
          _ ≤ 10 ^ (93 * k) := Nat.pow_le_pow_right (by norm_num) (by omega)
          _ = (10 ^ k) ^ 93 := by rw [← pow_mul, mul_comm]
      rw [zpow_natCast, zpow_natCast]
      exact_mod_cast (Nat.pow_le_pow_iff_left (by norm_num)).mp hpow
  · -- Both exponents are negative, so the powers are compared the other way round.
    obtain ⟨k, hk⟩ := Int.eq_ofNat_of_zero_le (by omega : 0 ≤ -p)
    obtain ⟨j, hj⟩ := Int.eq_ofNat_of_zero_le (by omega : 0 ≤ -e)
    obtain rfl : p = -k := by omega
    obtain rfl : e = -j := by omega
    have hpow : (10 ^ k) ^ 31 ≤ (2 ^ j) ^ 31 := by
      calc (10 ^ k) ^ 31 = (10 ^ 31) ^ k := by rw [← pow_mul, ← pow_mul, mul_comm]
        _ ≤ (2 ^ 103) ^ k := Nat.pow_le_pow_left (by norm_num) k
        _ = 2 ^ (103 * k) := (pow_mul 2 103 k).symm
        _ ≤ 2 ^ (31 * j) := Nat.pow_le_pow_right (by norm_num) (by omega)
        _ = (2 ^ j) ^ 31 := by rw [← pow_mul, mul_comm]
    have hle : 10 ^ k ≤ 2 ^ j := (Nat.pow_le_pow_iff_left (by norm_num)).mp hpow
    rw [zpow_neg, zpow_neg, zpow_natCast, zpow_natCast]
    exact inv_anti₀ (by positivity) (by exact_mod_cast hle)

/-- A power of ten below a power of two. -/
theorem ten_zpow_le_two_zpow {e p : ℤ} (h : 93 * p ≤ 28 * e) (h' : 103 * p ≤ 31 * e) :
    (10 : ℚ) ^ p ≤ 2 ^ e := by
  have hinv : (2 : ℚ) ^ (-e) ≤ 10 ^ (-p) := two_zpow_le_ten_zpow (by omega) (by omega)
  rwa [zpow_neg, zpow_neg, inv_le_inv₀ (two_zpow_pos e) (ten_zpow_pos p)] at hinv

/-- The size of a decimal is that of its first digit. -/
theorem ten_zpow_le_decimal {n : ℕ} (hn : 0 < n) (p : ℤ) :
    (10 : ℚ) ^ (p + (Nat.toDigits 10 n).length - 1) ≤ n * 10 ^ p := by
  have hlength : 0 < (Nat.toDigits 10 n).length := Nat.length_toDigits_pos
  have hle : 10 ^ ((Nat.toDigits 10 n).length - 1) ≤ n := by
    -- A number with one digit is at least one, and a longer one has more than the powers below it.
    by_cases hone : (Nat.toDigits 10 n).length = 1
    · rw [hone]
      exact hn
    · by_contra hlt
      have := (Nat.length_toDigits_le_iff (b := 10) (by norm_num) (by omega)).mpr (not_le.mp hlt)
      omega
  have hexponent : p + (Nat.toDigits 10 n).length - 1 =
      ((Nat.toDigits 10 n).length - 1 : ℕ) + p := by omega
  rw [hexponent, zpow_add₀ (by norm_num), zpow_natCast]
  gcongr
  exact_mod_cast hle

theorem decimal_lt_ten_zpow (n : ℕ) (p : ℤ) :
    (n : ℚ) * 10 ^ p < 10 ^ (p + (Nat.toDigits 10 n).length) := by
  have hlt : n < 10 ^ (Nat.toDigits 10 n).length :=
    (Nat.length_toDigits_le_iff (by norm_num) Nat.length_toDigits_pos).mp le_rfl
  rw [add_comm, zpow_add₀ (by norm_num), zpow_natCast]
  gcongr
  exact_mod_cast hlt

/-! ### Decimals -/

theorem overflow_le_ten_zpow {p : ℤ} (hp : 310 ≤ p) : overflow ≤ 10 ^ p := by
  calc overflow ≤ 2 ^ (53 : ℤ) * 2 ^ maxExponent := by
        rw [overflow]
        exact mul_le_mul_of_nonneg_right (by norm_num) (two_zpow_pos _).le
    _ = 2 ^ (53 + maxExponent) := (zpow_add₀ two_ne_zero _ _).symm
    _ ≤ 10 ^ p := two_zpow_le_ten_zpow (by unfold maxExponent; omega) (by unfold maxExponent; omega)

/-- A number below half of the least value rounds to zero. -/
theorem roundsTo_zero {v : ℚ} (hv : 0 ≤ v) (h : v ≤ 2 ^ (minExponent - 1)) :
    RoundsTo 0 minExponent v := by
  have hmin := two_zpow_pos minExponent
  have hgap : gapBelow 0 minExponent = 1 / 2 := if_neg (by rintro ⟨h, -⟩; norm_num at h)
  have hle : v / 2 ^ minExponent ≤ 1 / 2 := by
    rw [div_le_iff₀ hmin]
    -- Half of the least value is half a unit.
    rw [zpow_sub₀ two_ne_zero, zpow_one] at h
    linarith
  have hnonneg : 0 ≤ v / 2 ^ minExponent := div_nonneg hv hmin.le
  rw [RoundsTo, hgap]
  exact ⟨by push_cast; linarith, by push_cast; linarith, fun hodd => by omega⟩

/-- **A decimal is rounded**, and the shortcuts agree with the division. -/
theorem rounded_ofDecimal (negative : Bool) (n : ℕ) (p : ℤ) :
    Rounded negative (n * 10 ^ p) (ofDecimal negative n p) := by
  simp only [ofDecimal]
  -- The cases are those of the definition: zero, the two shortcuts, and the division by the sign of
  -- the power.
  split_ifs with hn hhuge htiny hp
  · exact .finite canonical_zero (roundsTo_zero (by positivity) (by
      rw [hn]
      simpa using (two_zpow_pos (minExponent - 1)).le))
  · refine .infinite ((overflow_le_ten_zpow ?_).trans
      (ten_zpow_le_decimal (Nat.pos_of_ne_zero hn) p))
    unfold Binary64.hugePower at hhuge
    omega
  · refine .finite canonical_zero (roundsTo_zero (by positivity) ?_)
    refine (decimal_lt_ten_zpow n p).le.trans (ten_zpow_le_two_zpow ?_ ?_) <;>
      · unfold Binary64.tinyPower at htiny
        unfold minExponent
        omega
  · obtain ⟨k, rfl⟩ := Int.eq_ofNat_of_zero_le hp
    have hratio := rounded_ofRatio negative (n * Nat.pow 10 k) one_pos
    simpa using hratio
  · obtain ⟨k, hk⟩ := Int.eq_ofNat_of_zero_le (by omega : 0 ≤ -p)
    obtain rfl : p = -k := by omega
    have hratio := rounded_ofRatio negative n (d := Nat.pow 10 k) (Nat.pow_pos (by norm_num))
    simpa [div_eq_mul_inv] using hratio

/-- **A decimal is read as the finite value to which it rounds.** -/
theorem ofDecimal_eq_finite_iff {negative : Bool} {n m : ℕ} {p q : ℤ} (hc : Canonical m q) :
    ofDecimal negative n p = .finite negative m q ↔ RoundsTo m q (n * 10 ^ p) := by
  have hrounded := rounded_ofDecimal negative n p
  constructor
  · intro h
    rw [h] at hrounded
    cases hrounded with
    | finite _ h => exact h
  · intro h
    -- It is rounded somehow, and a number rounds to one value only.
    generalize ofDecimal negative n p = x at hrounded
    cases hrounded with
    | finite hc' h' =>
      obtain ⟨rfl, rfl⟩ := h'.unique hc' hc h
      rfl
    | infinite hoverflow => exact absurd hoverflow (not_le.mpr (h.lt_overflow hc))

/-- **A decimal is read as infinity** if it is too large. -/
theorem ofDecimal_eq_infinite_iff {negative : Bool} {n : ℕ} {p : ℤ} :
    ofDecimal negative n p = .infinite negative ↔ overflow ≤ n * 10 ^ p := by
  have hrounded := rounded_ofDecimal negative n p
  constructor
  · intro h
    rw [h] at hrounded
    cases hrounded with
    | infinite h => exact h
  · intro h
    generalize ofDecimal negative n p = x at hrounded
    cases hrounded with
    | finite hc h' => exact absurd h (not_le.mpr (h'.lt_overflow hc))
    | infinite _ => rfl

/-- A decimal that is not too large rounds to a finite value. -/
theorem exists_roundsTo_of_lt_overflow {n : ℕ} {p : ℤ} (h : (n : ℚ) * 10 ^ p < overflow) :
    ∃ m q, Canonical m q ∧ RoundsTo m q (n * 10 ^ p) := by
  have hrounded := rounded_ofDecimal false n p
  generalize ofDecimal false n p = x at hrounded
  cases hrounded with
  | finite hc hrounds => exact ⟨_, _, hc, hrounds⟩
  | infinite hoverflow => exact absurd hoverflow (not_le.mpr h)

end WorkflowPolicy.Decimal
