import WorkflowPolicy.Proofs.Decimal.Rounding

/-!
# The shortest decimal of a binary value

`shortest m q` walks through grids of decimals and rounds on the first one that has a point in the
interval of `m · 2 ^ q`. `shortest_eq_iff` says what it finds, without the walk: the decimal rounds
to the value, no decimal with a larger power of ten does, and of those with the same power it is the
nearest, of two equally near ones the even one (`IsShortest`).

The walk begins where the grid is too coarse to have a point in the interval
(`not_roundsTo_of_coarsePower_lt`), and after 24 steps it has come to a grid that is fine enough
(`exists_roundsTo_of_le`). Two points of one grid that round to one value are further apart than a
unit of its last place only if the value has few digits. So a decimal of up to fifteen digits is the
shortest one of its value (`isShortest_of_digits`).
-/

namespace WorkflowPolicy.Decimal

open Binary64 (minExponent maxExponent)
open Shortest (interval factors onGrid search coarsePower stripZeros)

variable {m : ℕ} {p q : ℤ}

/-! ### Decimals on a grid -/

/-- How far a decimal is from a value. -/
def distance (m : ℕ) (q p : ℤ) (n : ℕ) : ℚ := |(n : ℚ) * 10 ^ p - m * 2 ^ q|

/-- **The decimal on the grid of `10 ^ p` for a value**: it rounds to the value, and of those that
do it is the nearest. -/
structure Closest (m : ℕ) (q p : ℤ) (n : ℕ) : Prop where
  rounds : RoundsTo m q (n * 10 ^ p)
  nearest : ∀ k : ℕ, RoundsTo m q (k * 10 ^ p) → distance m q p n ≤ distance m q p k
  /-- Of two that are equally near it is the even one. -/
  even : ∀ k : ℕ, RoundsTo m q (k * 10 ^ p) → distance m q p n = distance m q p k →
    k = n ∨ n % 2 = 0

/-- **The shortest decimal of a value**: none with a larger power of ten rounds to the value. -/
structure IsShortest (m : ℕ) (q : ℤ) (d : Scaled) : Prop where
  closest : Closest m q d.power d.digits
  coarsest : ∀ n : ℕ, ¬ RoundsTo m q (n * 10 ^ (d.power + 1))

/-- A decimal with a larger power of ten is one with a smaller power. -/
theorem decimal_eq_of_le (n : ℕ) {p p' : ℤ} (h : p ≤ p') :
    ∃ k : ℕ, (n : ℚ) * 10 ^ p' = k * 10 ^ p ∧ k = n * 10 ^ (p' - p).toNat := by
  obtain ⟨j, rfl⟩ := Int.le.dest h
  refine ⟨n * 10 ^ j, ?_, by simp⟩
  rw [add_comm, zpow_add₀ (by norm_num), zpow_natCast]
  push_cast
  ring

theorem IsShortest.not_roundsTo {d : Scaled} (h : IsShortest m q d) (n : ℕ) {p : ℤ}
    (hp : d.power < p) : ¬ RoundsTo m q (n * 10 ^ p) := by
  -- The decimal is also one of the next coarser grid, and on that none rounds to the value.
  obtain ⟨k, hk, -⟩ := decimal_eq_of_le n (Int.add_one_le_iff.mpr hp)
  rw [hk]
  exact h.coarsest k

theorem eq_of_decimal_eq {n k : ℕ} (h : (n : ℚ) * 10 ^ p = k * 10 ^ p) : n = k := by
  exact_mod_cast mul_right_cancel₀ (ten_zpow_pos p).ne' h

/-- Two different decimals that are equally near to a value have the value in their middle. -/
theorem eq_of_distance_eq {n k : ℕ} (h : distance m q p n = distance m q p k) :
    n = k ∨ 2 * (m * 2 ^ q) = (n + k : ℕ) * (10 : ℚ) ^ p := by
  -- Either both lie on the same side of the value and are equal, or the value is between them.
  rcases abs_eq_abs.mp h with heq | heq
  · exact .inl (eq_of_decimal_eq (by linarith))
  · right
    push_cast
    linarith

theorem Closest.unique {n n' : ℕ} (h : Closest m q p n) (h' : Closest m q p n') : n = n' := by
  have hequal := le_antisymm (h.nearest n' h'.rounds) (h'.nearest n h.rounds)
  rcases eq_of_distance_eq hequal with hsame | hmiddle
  · exact hsame
  · rcases h.even n' h'.rounds hequal with hsame | hn
    · exact hsame.symm
    · rcases h'.even n h.rounds hequal.symm with hsame | hn'
      · exact hsame
      · -- Both are even, so the middle of the two is a decimal of the grid and is the value.
        obtain ⟨k, hk⟩ : ∃ k, n + n' = 2 * k := ⟨(n + n') / 2, by omega⟩
        have hvalue : (m : ℚ) * 2 ^ q = k * 10 ^ p := by
          rw [hk] at hmiddle
          push_cast at hmiddle
          linarith
        have hzero := h.nearest k (hvalue ▸ roundsTo_self m q)
        rw [distance, distance, hvalue, sub_self, abs_zero] at hzero
        have hexact := sub_eq_zero.mp (abs_eq_zero.mp (le_antisymm hzero (abs_nonneg _)))
        have hnk : n = k := eq_of_decimal_eq hexact
        omega

/-- **The shortest decimal is one only.** -/
theorem IsShortest.unique {d d' : Scaled} (h : IsShortest m q d) (h' : IsShortest m q d') :
    d = d' := by
  obtain ⟨n, p⟩ := d
  obtain ⟨n', p'⟩ := d'
  obtain rfl : p = p' := by
    -- Of two powers the larger one would be too coarse for the other decimal.
    apply le_antisymm <;> refine not_lt.mp fun hlt => ?_
    · exact h'.not_roundsTo n hlt h.closest.rounds
    · exact h.not_roundsTo n' hlt h'.closest.rounds
  exact congrArg (Scaled.mk · p) (h.closest.unique h'.closest)

/-- The shortest decimal does not end in a zero. -/
theorem IsShortest.digits_mod_ten {d : Scaled} (h : IsShortest m q d) : d.digits % 10 ≠ 0 := by
  intro hzero
  -- One tenth of the digits would be a decimal of a coarser grid with the same value.
  refine h.coarsest (d.digits / 10) ?_
  have hdigits : (d.digits : ℚ) = (d.digits / 10 : ℕ) * 10 := by
    exact_mod_cast (Nat.div_mul_cancel (Nat.dvd_of_mod_eq_zero hzero)).symm
  have hvalue : ((d.digits / 10 : ℕ) : ℚ) * 10 ^ (d.power + 1) = d.digits * 10 ^ d.power := by
    rw [zpow_add_one₀ (by norm_num), hdigits]
    ring
  rw [hvalue]
  exact h.closest.rounds

/-! ### Comparing with the interval -/

/-- The two factors bring a power of ten and a power of two to whole numbers. -/
theorem factors_spec (p e : ℤ) : ∃ c : ℚ, 0 < c ∧
    ((factors p e).1 : ℚ) = c * 10 ^ p ∧ ((factors p e).2 : ℚ) = c * 2 ^ e := by
  -- The negative exponents are what both are multiplied with.
  refine ⟨10 ^ (-p).toNat * 2 ^ (-e).toNat, by positivity, ?_, ?_⟩
  · have hten : (10 : ℚ) ^ p.toNat = 10 ^ (-p).toNat * 10 ^ p := by
      rw [← zpow_natCast, ← zpow_natCast, ← zpow_add₀ (by norm_num)]
      congr 1
      omega
    simp only [factors, Nat.pow_eq]
    push_cast
    rw [hten]
    ring
  · have htwo : (2 : ℚ) ^ e.toNat = 2 ^ (-e).toNat * 2 ^ e := by
      rw [← zpow_natCast, ← zpow_natCast, ← zpow_add₀ two_ne_zero]
      congr 1
      omega
    simp only [factors, Nat.pow_eq]
    push_cast
    rw [htwo]
    ring

theorem factors_pos (p e : ℤ) : 0 < (factors p e).1 := by
  obtain ⟨c, hc, ha, -⟩ := factors_spec p e
  have hpos : (0 : ℚ) < (factors p e).1 := by
    rw [ha]
    have := ten_zpow_pos p
    positivity
  exact_mod_cast hpos

theorem mul_factors_le_iff (n x : ℕ) (p e : ℤ) :
    n * (factors p e).1 ≤ x * (factors p e).2 ↔ (n : ℚ) * 10 ^ p ≤ x * 2 ^ e := by
  obtain ⟨c, hc, ha, hb⟩ := factors_spec p e
  rw [← Nat.cast_le (α := ℚ)]
  push_cast
  rw [ha, hb, mul_left_comm, mul_left_comm (x : ℚ), mul_le_mul_iff_right₀ hc]

theorem mul_factors_lt_iff (n x : ℕ) (p e : ℤ) :
    n * (factors p e).1 < x * (factors p e).2 ↔ (n : ℚ) * 10 ^ p < x * 2 ^ e := by
  obtain ⟨c, hc, ha, hb⟩ := factors_spec p e
  rw [← Nat.cast_lt (α := ℚ)]
  push_cast
  rw [ha, hb, mul_left_comm, mul_left_comm (x : ℚ), mul_lt_mul_iff_right₀ hc]

theorem low_interval (hm : 0 < m) (q : ℤ) :
    ((interval m q).low : ℚ) * 2 ^ (q - 2) = (m - gapBelow m q) * 2 ^ q := by
  have hlow : ((interval m q).low : ℚ) = 4 * (m - gapBelow m q) := by
    have hm' : (1 : ℚ) ≤ m := by exact_mod_cast hm
    unfold interval gapBelow
    simp only [Nat.pow_eq]
    split
    · rw [Nat.cast_sub (by omega)]
      push_cast
      ring
    · rw [Nat.cast_sub (by omega)]
      push_cast
      ring
  rw [hlow, zpow_sub₀ two_ne_zero]
  norm_num
  ring

theorem high_interval (m : ℕ) (q : ℤ) :
    ((interval m q).high : ℚ) * 2 ^ (q - 2) = (m + 1 / 2) * 2 ^ q := by
  rw [interval, zpow_sub₀ two_ne_zero]
  push_cast
  norm_num
  ring

theorem mid_interval (m : ℕ) (q : ℤ) : ((interval m q).mid : ℚ) * 2 ^ (q - 2) = m * 2 ^ q := by
  rw [interval, zpow_sub₀ two_ne_zero]
  push_cast
  ring

/-- **The interval of a value** holds what rounds to it. -/
theorem roundsTo_iff_interval (hm : 0 < m) {v : ℚ} : RoundsTo m q v ↔
    if (interval m q).closed = true then
      (interval m q).low * 2 ^ (q - 2) ≤ v ∧ v ≤ (interval m q).high * 2 ^ (q - 2)
    else (interval m q).low * 2 ^ (q - 2) < v ∧ v < (interval m q).high * 2 ^ (q - 2) := by
  have hq := two_zpow_pos q
  have hclosed : (interval m q).closed = true ↔ m % 2 = 0 := beq_iff_eq
  have hgap : m % 2 = 1 → gapBelow m q = 1 / 2 := fun hodd => if_neg (by rintro ⟨rfl, -⟩; omega)
  rw [low_interval hm, high_interval, ← le_div_iff₀ hq, ← div_le_iff₀ hq, ← lt_div_iff₀ hq,
    ← div_lt_iff₀ hq]
  simp only [hclosed]
  -- The ends belong to the interval of an even value only, and that is what the definition says.
  split
  · next heven =>
    exact ⟨fun h => ⟨h.low, h.high⟩, fun h => ⟨h.1, h.2, fun hodd => by omega⟩⟩
  · next hodd => exact ⟨fun h => h.ends (by omega), fun h => ⟨h.1.le, h.2.le, fun _ => h⟩⟩

/-! ### One grid -/

/-- The whole number of steps of the grid that lie below the value. -/
def stepsBelow (m : ℕ) (q p : ℤ) : ℕ :=
  (interval m q).mid * (factors p (q - 2)).2 / (factors p (q - 2)).1

theorem stepsBelow_le (m : ℕ) (q p : ℤ) : (stepsBelow m q p : ℚ) * 10 ^ p ≤ m * 2 ^ q := by
  rw [← mid_interval, ← mul_factors_le_iff]
  exact Nat.div_mul_le_self _ _

theorem lt_stepsBelow (m : ℕ) (q p : ℤ) :
    (m : ℚ) * 2 ^ q < (stepsBelow m q p + 1 : ℕ) * 10 ^ p := by
  rw [← mid_interval, ← not_le, ← mul_factors_le_iff, not_le]
  exact (Nat.div_lt_iff_lt_mul (factors_pos _ _)).mp (Nat.lt_succ_self _)

/-- **Only the two neighbours of the value matter**: a decimal of the grid that rounds to the value
is one of them, or one of them rounds to it too and is nearer. -/
theorem neighbour_of_roundsTo {k : ℕ} (hk : RoundsTo m q (k * 10 ^ p)) :
    ∃ n, (n = stepsBelow m q p ∨ n = stepsBelow m q p + 1) ∧ RoundsTo m q (n * 10 ^ p) ∧
      distance m q p n ≤ distance m q p k ∧ (distance m q p n = distance m q p k → k = n) := by
  have hten := ten_zpow_pos p
  have hbelow := stepsBelow_le m q p
  have habove := lt_stepsBelow m q p
  rcases le_or_gt k (stepsBelow m q p) with hle | hlt
  · -- A decimal further below is further away, and the neighbour is between it and the value.
    have hstep : (k : ℚ) * 10 ^ p ≤ stepsBelow m q p * 10 ^ p := by gcongr
    refine ⟨_, .inl rfl, hk.between (roundsTo_self m q) hstep hbelow, ?_⟩
    rw [distance, distance, abs_of_nonpos (by linarith), abs_of_nonpos (by linarith)]
    exact ⟨by linarith, fun heq => eq_of_decimal_eq (by linarith)⟩
  · have hstep : ((stepsBelow m q p + 1 : ℕ) : ℚ) * 10 ^ p ≤ k * 10 ^ p := by
      gcongr
      exact hlt
    refine ⟨_, .inr rfl, (roundsTo_self m q).between hk habove.le hstep, ?_⟩
    rw [distance, distance, abs_of_nonneg (by linarith), abs_of_nonneg (by linarith)]
    exact ⟨by linarith, fun heq => eq_of_decimal_eq (by linarith)⟩

/-- One neighbour is the decimal on the grid, unless the other one is nearer. -/
theorem closest_of_neighbours {n other : ℕ} (h : RoundsTo m q (n * 10 ^ p))
    (hboth : ∀ k, k = stepsBelow m q p ∨ k = stepsBelow m q p + 1 → k = n ∨ k = other)
    (hother : RoundsTo m q (other * 10 ^ p) → distance m q p n < distance m q p other ∨
      distance m q p n = distance m q p other ∧ n % 2 = 0) : Closest m q p n := by
  have hnear : ∀ k : ℕ, RoundsTo m q (k * 10 ^ p) → distance m q p n ≤ distance m q p k ∧
      (distance m q p n = distance m q p k → k = n ∨ n % 2 = 0) := by
    intro k hk
    obtain ⟨c, hc, hrounds, hle, heq⟩ := neighbour_of_roundsTo hk
    -- Every decimal that rounds to the value is no nearer than one of the two neighbours.
    rcases hboth c hc with rfl | rfl
    · exact ⟨hle, fun h => .inl (heq h)⟩
    · rcases hother hrounds with hlt | ⟨hsame, heven⟩
      · exact ⟨(hlt.trans_le hle).le, fun h => absurd h (hlt.trans_le hle).ne⟩
      · exact ⟨hsame.trans_le hle, fun _ => .inr heven⟩
  exact ⟨h, fun k hk => (hnear k hk).1, fun k hk => (hnear k hk).2⟩

/-- How far the neighbour below the value is from it, as a whole number. -/
def scaledBelow (m : ℕ) (q p : ℤ) : ℕ :=
  (interval m q).mid * (factors p (q - 2)).2 - stepsBelow m q p * (factors p (q - 2)).1

/-- How far the neighbour above the value is from it, as a whole number. -/
def scaledAbove (m : ℕ) (q p : ℤ) : ℕ :=
  (stepsBelow m q p + 1) * (factors p (q - 2)).1 - (interval m q).mid * (factors p (q - 2)).2

/-- The whole numbers are the two distances, in one scale. -/
theorem scaled_eq_distance (m : ℕ) (q p : ℤ) : ∃ c : ℚ, 0 < c ∧
    (scaledBelow m q p : ℚ) = c * distance m q p (stepsBelow m q p) ∧
    (scaledAbove m q p : ℚ) = c * distance m q p (stepsBelow m q p + 1) := by
  obtain ⟨c, hc, ha, hb⟩ := factors_spec p (q - 2)
  have hbelow := stepsBelow_le m q p
  have habove := lt_stepsBelow m q p
  have hmid := mid_interval m q
  -- The distances have a sign each, so that the differences of natural numbers are exact.
  refine ⟨c, hc, ?_, ?_⟩
  · rw [scaledBelow, Nat.cast_sub, distance, abs_of_nonpos (by linarith)]
    · push_cast
      rw [ha, hb]
      linear_combination c * hmid
    · rw [mul_factors_le_iff, hmid]
      exact hbelow
  · rw [scaledAbove, Nat.cast_sub, distance, abs_of_nonneg (by linarith)]
    · push_cast
      rw [ha, hb]
      linear_combination -c * hmid
    · rw [← not_lt, mul_factors_lt_iff, hmid, not_lt]
      exact habove.le

theorem scaledBelow_lt_iff : scaledBelow m q p < scaledAbove m q p ↔
    distance m q p (stepsBelow m q p) < distance m q p (stepsBelow m q p + 1) := by
  obtain ⟨c, hc, hdown, hup⟩ := scaled_eq_distance m q p
  rw [← Nat.cast_lt (α := ℚ), hdown, hup, mul_lt_mul_iff_right₀ hc]

theorem scaledAbove_lt_iff : scaledAbove m q p < scaledBelow m q p ↔
    distance m q p (stepsBelow m q p + 1) < distance m q p (stepsBelow m q p) := by
  obtain ⟨c, hc, hdown, hup⟩ := scaled_eq_distance m q p
  rw [← Nat.cast_lt (α := ℚ), hdown, hup, mul_lt_mul_iff_right₀ hc]

/-- Does a decimal lie in an interval? -/
def inside (m : ℕ) (q p : ℤ) (n : ℕ) : Bool :=
  if (interval m q).closed then
    (interval m q).low * (factors p (q - 2)).2 ≤ n * (factors p (q - 2)).1 &&
      n * (factors p (q - 2)).1 ≤ (interval m q).high * (factors p (q - 2)).2
  else
    (interval m q).low * (factors p (q - 2)).2 < n * (factors p (q - 2)).1 &&
      n * (factors p (q - 2)).1 < (interval m q).high * (factors p (q - 2)).2

theorem inside_iff (hm : 0 < m) (n : ℕ) :
    inside m q p n = true ↔ RoundsTo m q (n * 10 ^ p) := by
  rw [roundsTo_iff_interval hm, inside]
  split
  · rw [Bool.and_eq_true, decide_eq_true_eq, decide_eq_true_eq, ← not_lt, mul_factors_lt_iff,
      not_lt, mul_factors_le_iff]
  · rw [Bool.and_eq_true, decide_eq_true_eq, decide_eq_true_eq, ← not_le, mul_factors_le_iff,
      not_le, mul_factors_lt_iff]

/-- **What is found on one grid**: the decimal on it for the value, if any decimal of the grid
rounds to the value. -/
theorem onGrid_spec (hm : 0 < m) (q p : ℤ) :
    (∃ n, onGrid (interval m q) p = some n ∧ Closest m q p n) ∨
      onGrid (interval m q) p = none ∧ ∀ n : ℕ, ¬ RoundsTo m q (n * 10 ^ p) := by
  have hbelow := inside_iff (q := q) (p := p) hm (stepsBelow m q p)
  have habove := inside_iff (q := q) (p := p) hm (stepsBelow m q p + 1)
  generalize hgrid : onGrid (interval m q) p = found
  dsimp only [onGrid, factors] at hgrid
  -- The cases are those of the two neighbours: does it round to the value?
  split at hgrid
  · next hb ha =>
    replace hb : inside m q p (stepsBelow m q p) = false := hb
    replace ha : inside m q p (stepsBelow m q p + 1) = false := ha
    rw [hb] at hbelow
    rw [ha] at habove
    refine .inr ⟨hgrid.symm, fun n hn => ?_⟩
    obtain ⟨k, rfl | rfl, hk, -⟩ := neighbour_of_roundsTo hn
    · exact absurd (hbelow.mpr hk) (by simp)
    · exact absurd (habove.mpr hk) (by simp)
  · next hb ha =>
    replace ha : inside m q p (stepsBelow m q p + 1) = false := ha
    rw [ha] at habove
    refine .inl ⟨_, hgrid.symm, closest_of_neighbours (hbelow.mp hb) (fun k hk => hk) fun h => ?_⟩
    exact absurd (habove.mpr h) (by simp)
  · next hb ha =>
    replace hb : inside m q p (stepsBelow m q p) = false := hb
    rw [hb] at hbelow
    refine .inl ⟨_, hgrid.symm,
      closest_of_neighbours (habove.mp ha) (fun k hk => hk.symm) fun h => ?_⟩
    exact absurd (hbelow.mpr h) (by simp)
  · next hb ha =>
    -- Both neighbours round to the value, and their distances are compared.
    replace hgrid : (if scaledBelow m q p < scaledAbove m q p then some (stepsBelow m q p)
        else if scaledAbove m q p < scaledBelow m q p then some (stepsBelow m q p + 1)
        else if stepsBelow m q p % 2 = 0 then some (stepsBelow m q p)
        else some (stepsBelow m q p + 1)) = found := hgrid
    simp only [scaledBelow_lt_iff, scaledAbove_lt_iff] at hgrid
    left
    split_ifs at hgrid with hlt hgt heven
    · exact ⟨_, hgrid.symm,
        closest_of_neighbours (hbelow.mp hb) (fun k hk => hk) fun _ => .inl hlt⟩
    · exact ⟨_, hgrid.symm,
        closest_of_neighbours (habove.mp ha) (fun k hk => hk.symm) fun _ => .inl hgt⟩
    · exact ⟨_, hgrid.symm, closest_of_neighbours (hbelow.mp hb) (fun k hk => hk) fun _ =>
        .inr ⟨le_antisymm (not_lt.mp hgt) (not_lt.mp hlt), heven⟩⟩
    · exact ⟨_, hgrid.symm, closest_of_neighbours (habove.mp ha) (fun k hk => hk.symm) fun _ =>
        .inr ⟨le_antisymm (not_lt.mp hlt) (not_lt.mp hgt), by omega⟩⟩

/-! ### The walk through the grids -/

theorem not_roundsTo_zero (hm : 0 < m) (q : ℤ) : ¬ RoundsTo m q 0 := by
  intro h
  have hlow := h.low
  have hgap := gapBelow_le m q
  have hone : (1 : ℚ) ≤ m := by exact_mod_cast hm
  rw [zero_div] at hlow
  linarith

theorem log2_le_of_canonical (hc : Canonical m q) : m.log2 ≤ 52 := by
  by_contra hlt
  rcases Nat.eq_zero_or_pos m with rfl | hm
  · exact hlt (by decide)
  · have hle := Nat.log2_self_le hm.ne'
    have hpow : 2 ^ 53 ≤ 2 ^ m.log2 := Nat.pow_le_pow_right (by norm_num) (by omega)
    have := hc.bits
    omega

/-- **The walk begins early enough**: no decimal on a coarser grid rounds to the value. -/
theorem not_roundsTo_of_coarsePower_lt (hc : Canonical m q) (hm : 0 < m)
    (hp : coarsePower m q < p) (n : ℕ) : ¬ RoundsTo m q (n * 10 ^ p) := by
  intro h
  have hlog := log2_le_of_canonical hc
  -- The largest number that rounds to the value is below the power of ten of any coarser grid.
  have hlow := hc.low
  have hhigh := hc.high
  have hn : (1 : ℚ) ≤ n := by
    have : n ≠ 0 := by
      rintro rfl
      exact not_roundsTo_zero hm q (by simpa using h)
    exact_mod_cast Nat.one_le_iff_ne_zero.mpr this
  have hbits : (m : ℚ) + 1 ≤ 2 ^ ((m.log2 : ℤ) + 1) := by
    have : m + 1 ≤ 2 ^ (m.log2 + 1) := Nat.lt_log2_self
    exact_mod_cast this
  have hpower : (2 : ℚ) ^ ((m.log2 : ℤ) + 1 + q) ≤ 10 ^ p := by
    unfold minExponent at hlow
    unfold maxExponent at hhigh
    unfold coarsePower at hp
    exact two_zpow_le_ten_zpow (by omega) (by omega)
  have hend := (div_le_iff₀ (two_zpow_pos q)).mp h.high
  have hq := two_zpow_pos q
  have hlt : (n : ℚ) * 10 ^ p < 10 ^ p := by
    calc (n : ℚ) * 10 ^ p ≤ (m + 1 / 2) * 2 ^ q := hend
      _ < (m + 1) * 2 ^ q := by gcongr; norm_num
      _ ≤ 2 ^ ((m.log2 : ℤ) + 1) * 2 ^ q := by gcongr
      _ = 2 ^ ((m.log2 : ℤ) + 1 + q) := (zpow_add₀ two_ne_zero _ _).symm
      _ ≤ 10 ^ p := hpower
  have hten := ten_zpow_pos p
  -- A natural number of steps of that grid would have to be less than one.
  nlinarith

/-- On a grid that is no coarser than a quarter of a unit some decimal rounds to the value. -/
theorem exists_roundsTo_of_le (h : (10 : ℚ) ^ p ≤ 2 ^ (q - 2)) :
    ∃ n : ℕ, RoundsTo m q (n * 10 ^ p) := by
  have hq := two_zpow_pos q
  have hbelow := stepsBelow_le m q p
  have habove := lt_stepsBelow m q p
  have hquarter : (2 : ℚ) ^ (q - 2) = 1 / 4 * 2 ^ q := by
    rw [zpow_sub₀ two_ne_zero]
    norm_num
    ring
  have hgap : 1 / 4 ≤ gapBelow m q := by
    unfold gapBelow
    split <;> norm_num
  -- The neighbour below the value is less than a quarter of a unit away, and the interval reaches
  -- as far on either side.
  have hlow : (m : ℚ) - 1 / 4 < stepsBelow m q p * 10 ^ p / 2 ^ q := by
    rw [lt_div_iff₀ hq]
    push_cast at habove
    linarith
  have hhigh : (stepsBelow m q p : ℚ) * 10 ^ p / 2 ^ q ≤ m := by
    rw [div_le_iff₀ hq]
    exact hbelow
  refine ⟨stepsBelow m q p, ?_⟩
  rw [RoundsTo]
  generalize (stepsBelow m q p : ℚ) * 10 ^ p / 2 ^ q = x at *
  exact ⟨by linarith, by linarith, fun _ => ⟨by linarith, by linarith⟩⟩

/-- The walk stops at the first grid with a decimal. -/
theorem search_eq {i : Shortest.Interval} {steps k n : ℕ} {p : ℤ} (hk : k < steps)
    (hfound : onGrid i (p - k) = some n) (hnone : ∀ j < k, onGrid i (p - j) = none) :
    search i steps p = ⟨n, p - k⟩ := by
  -- In the first grid there is a decimal, or the walk goes on with one step less to the next.
  induction k generalizing steps p with
  | zero =>
    obtain ⟨steps, rfl⟩ := Nat.exists_eq_succ_of_ne_zero (Nat.ne_of_gt hk)
    simp only [Nat.cast_zero, sub_zero] at hfound
    simp [search, hfound]
  | succ k ih =>
    obtain ⟨steps, rfl⟩ := Nat.exists_eq_succ_of_ne_zero (Nat.ne_of_gt (Nat.zero_lt_of_lt hk))
    have hfirst := hnone 0 (Nat.succ_pos k)
    simp only [Nat.cast_zero, sub_zero] at hfirst
    have hstep : ∀ j : ℕ, p - (j + 1 : ℕ) = p - 1 - j := fun j => by omega
    rw [search, hfirst, hstep k]
    refine ih (Nat.lt_of_succ_lt_succ hk) (hstep k ▸ hfound) fun j hj => ?_
    rw [← hstep j]
    exact hnone (j + 1) (Nat.succ_lt_succ hj)

/-- After 24 steps the walk has come to a grid with a decimal that rounds to the value. -/
theorem exists_onGrid_of_canonical (hc : Canonical m q) (hm : 0 < m) :
    onGrid (interval m q) (coarsePower m q - (23 : ℕ)) ≠ none := by
  have hlog := log2_le_of_canonical hc
  -- The bounds for the exponent make 23 steps enough.
  have hfine : (10 : ℚ) ^ (coarsePower m q - (23 : ℕ)) ≤ 2 ^ (q - 2) := by
    have hlow := hc.low
    have hhigh := hc.high
    unfold minExponent at hlow
    unfold maxExponent at hhigh
    unfold coarsePower
    exact ten_zpow_le_two_zpow (by omega) (by omega)
  obtain ⟨n, hn⟩ := exists_roundsTo_of_le (m := m) hfine
  rcases onGrid_spec hm q (coarsePower m q - (23 : ℕ)) with ⟨k, hk, -⟩ | ⟨-, hnone⟩
  · rw [hk]
    exact Option.some_ne_none k
  · exact absurd hn (hnone n)

/-- A decimal that does not end in a zero is left as it is. -/
theorem stripZeros_of_mod_ten {d : Scaled} (h : d.digits % 10 ≠ 0) (steps : ℕ) :
    stripZeros steps d = d := by
  cases steps with
  | zero => rfl
  | succ steps => rw [stripZeros, if_neg fun hzero => h hzero.1]

/-- **What the walk finds is the shortest decimal.** -/
theorem isShortest_shortest (hc : Canonical m q) (hm : 0 < m) : IsShortest m q (shortest m q) := by
  have hexists : ∃ k : ℕ, onGrid (interval m q) (coarsePower m q - k) ≠ none :=
    ⟨23, exists_onGrid_of_canonical hc hm⟩
  classical
  -- The walk stops at the first grid with a decimal, and that is one of the first 24.
  have hfirst : Nat.find hexists ≤ 23 :=
    Nat.find_min' hexists (exists_onGrid_of_canonical hc hm)
  have hfound := Nat.find_spec hexists
  have hnone : ∀ j < Nat.find hexists, onGrid (interval m q) (coarsePower m q - j) = none :=
    fun j hj => not_not.mp (Nat.find_min hexists hj)
  generalize Nat.find hexists = k at *
  rcases onGrid_spec hm q (coarsePower m q - k) with ⟨n, hn, hclosest⟩ | ⟨hempty, -⟩
  · have hsearch : search (interval m q) 24 (coarsePower m q) = ⟨n, coarsePower m q - k⟩ :=
      search_eq (by omega) hn hnone
    have hshortest : IsShortest m q ⟨n, coarsePower m q - k⟩ := by
      refine ⟨hclosest, fun j => ?_⟩
      -- If the walk has stopped at once, coarser grids have no decimal at all, and else it has seen
      -- that the one before has none.
      cases k with
      | zero => exact not_roundsTo_of_coarsePower_lt hc hm (by simp) j
      | succ k =>
        have hcoarser : coarsePower m q - (k + 1 : ℕ) + 1 = coarsePower m q - k := by omega
        rw [hcoarser]
        rcases onGrid_spec hm q (coarsePower m q - k) with ⟨c, hc, -⟩ | ⟨-, hall⟩
        · rw [hnone k (Nat.lt_succ_self k)] at hc
          cases hc
        · exact hall j
    rw [shortest, hsearch, stripZeros_of_mod_ten hshortest.digits_mod_ten]
    exact hshortest
  · exact absurd hempty hfound

/-- **The shortest decimal**, without the walk. -/
theorem shortest_eq_iff (hc : Canonical m q) (hm : 0 < m) {d : Scaled} :
    shortest m q = d ↔ IsShortest m q d :=
  ⟨fun h => h ▸ isShortest_shortest hc hm, fun h => (isShortest_shortest hc hm).unique h⟩

/-! ### Few digits -/

/-- Two decimals of one grid that round to one value are no further apart than one unit of its last
place. -/
theorem ten_zpow_le_of_roundsTo {n k : ℕ} (hne : n ≠ k) (hn : RoundsTo m q (n * 10 ^ p))
    (hk : RoundsTo m q (k * 10 ^ p)) : (10 : ℚ) ^ p ≤ 2 ^ q := by
  -- The two can be exchanged, so the smaller one is taken to be the first.
  wlog hlt : n < k generalizing n k
  · exact this hne.symm hk hn (by omega)
  have hq := two_zpow_pos q
  have hgap := gapBelow_le m q
  have hlow := (le_div_iff₀ hq).mp hn.low
  have hhigh := (div_le_iff₀ hq).mp hk.high
  have hstep : (n + 1 : ℚ) * 10 ^ p ≤ k * 10 ^ p := by
    have := ten_zpow_pos p
    gcongr
    exact_mod_cast hlt
  nlinarith

/-- **Decimals of up to fifteen digits are shortest**: no other decimal of their grid rounds to the
same value, if that has all its 53 bits. -/
theorem isShortest_of_digits (hfull : 2 ^ 52 ≤ m) {n : ℕ} (h : RoundsTo m q (n * 10 ^ p))
    (hten : n % 10 ≠ 0) (hn : n < 10 ^ 15) : IsShortest m q ⟨n, p⟩ := by
  have honly : ∀ k : ℕ, RoundsTo m q (k * 10 ^ p) → k = n := by
    intro k hk
    by_contra hne
    have hgrid := ten_zpow_le_of_roundsTo hne hk h
    have hq := two_zpow_pos q
    have hgap := gapBelow_le m q
    have hlow := (le_div_iff₀ hq).mp h.low
    have hfull' : (2 : ℚ) ^ 52 ≤ m := by exact_mod_cast hfull
    have hn' : (n : ℚ) < 10 ^ 15 := by exact_mod_cast hn
    -- The number would need more than fifteen digits to be as large as the value.
    have hlarge : (2 ^ 52 - 1 / 2) * (2 : ℚ) ^ q ≤ n * 2 ^ q := by
      calc (2 ^ 52 - 1 / 2) * (2 : ℚ) ^ q ≤ (m - gapBelow m q) * 2 ^ q := by
            gcongr
        _ ≤ n * 10 ^ p := hlow
        _ ≤ n * 2 ^ q := by gcongr
    have := le_of_mul_le_mul_right hlarge hq
    linarith
  refine ⟨⟨h, fun k hk => ?_, fun k hk _ => .inl (honly k hk)⟩, fun k hk => ?_⟩
  · rw [honly k hk]
  · -- A decimal of the coarser grid would be another one on this grid, and there is only one, which
    -- does not end in a zero.
    have hcoarse : (k : ℚ) * 10 ^ (p + 1) = (10 * k : ℕ) * 10 ^ p := by
      rw [zpow_add_one₀ (by norm_num)]
      push_cast
      ring
    have := honly (10 * k) (hcoarse ▸ hk)
    omega

end WorkflowPolicy.Decimal
