import HexFilter.Proofs.Magnitude

/-! Rounding a fraction to the nearest rank. A rank is the nearest one just where
the fraction lies between the middles around its magnitude, so fractions that
differ by one rounding error have ranks that differ by one at most. -/
namespace HexFilter.Binary64

/-- The rank nearest to a fraction above zero, counted on past the largest finite
one. -/
def nearestRank (num den : Nat) : Nat :=
  let power := binadeOf num den
  let (a, b) := scaleDown num den power
  (power + 1074).toNat * binade + nearest a b

/-- The nearest whole number is at most half a unit off, on either side. -/
theorem nearest_bounds {den : Nat} (hDen : 0 < den) (num : Nat) :
    2 * num ≤ (2 * nearest num den + 1) * den ∧ 2 * nearest num den * den ≤ 2 * num + den := by
  have hSplit := Nat.div_add_mod num den
  have hRest := Nat.mod_lt num hDen
  simp only [nearest]
  generalize num / den = below at *
  generalize num % den = rest at *
  have hBelow : 2 * below * den = 2 * (den * below) := by ring
  rcases Nat.lt_trichotomy (2 * rest) den with hLess | hTie | hMore
  · rw [if_pos hLess, Nat.add_mul]
    omega
  · rw [if_neg (Nat.not_lt.mpr hTie.ge), if_pos hTie]
    rcases Nat.mod_two_eq_zero_or_one below with hEven | hOdd
    · simp only [hEven, Nat.add_zero, Nat.add_mul]
      omega
    · rw [hOdd, Nat.mul_add, Nat.add_mul, Nat.add_mul]
      omega
  · rw [if_neg (Nat.not_lt.mpr hMore.le), if_neg hMore.ne', Nat.mul_add, Nat.add_mul, Nat.add_mul]
    omega

/-- A power of a base may go to either part of a fraction. -/
theorem div_scaled {base : Rat} (hBase : base ≠ 0) (num den : Rat) (power : Int) :
    num * base ^ (-power).toNat / (den * base ^ power.toNat) = num / den / base ^ power := by
  have hPower : base ^ power = base ^ power.toNat / base ^ (-power).toNat := by
    rcases Int.le_total 0 power with hUp | hDown
    · have hOther : (-power).toNat = 0 := by omega
      rw [hOther, pow_zero, div_one, ← zpow_natCast, Int.toNat_of_nonneg hUp]
    · have hOther : power.toNat = 0 := by omega
      rw [hOther, pow_zero, ← zpow_natCast, Int.toNat_of_nonneg (by omega), zpow_neg, one_div,
        inv_inv]
  rw [hPower]
  field_simp

section Fractions

variable {num den : Nat}

theorem scaleDown_pos (hDen : 0 < den) (num : Nat) (power : Int) :
    0 < (scaleDown num den power).2 :=
  Nat.mul_pos hDen (Nat.pow_pos (by decide))

theorem scaleDown_div (num den : Nat) (power : Int) :
    ((scaleDown num den power).1 : Rat) / (scaleDown num den power).2 =
      (num : Rat) / den / 2 ^ power := by
  rw [← div_scaled (by norm_num)]
  simp [scaleDown]

/-- A number lies in the binade of its logarithm. -/
theorem log2_bounds {n : Nat} (h : 0 < n) :
    (2 : Rat) ^ (n.log2 : Int) ≤ n ∧ (n : Rat) < 2 ^ ((n.log2 : Int) + 1) := by
  have hLow := Nat.log2_self_le h.ne'
  have hHigh := Nat.lt_log2_self (n := n)
  refine ⟨?_, ?_⟩
  · rw [zpow_natCast]
    exact_mod_cast hLow
  · rw [← Int.natCast_succ, zpow_natCast]
    exact_mod_cast hHigh

/-- A fraction between the powers of two that the sizes of its parts tell. -/
theorem fraction_bounds (hNum : 0 < num) (hDen : 0 < den) :
    (2 : Rat) ^ ((num.log2 : Int) - den.log2 - 1) ≤ (num : Rat) / den ∧
      (num : Rat) / den < 2 ^ ((num.log2 : Int) - den.log2 + 1) := by
  obtain ⟨hNumLow, hNumHigh⟩ := log2_bounds hNum
  obtain ⟨hDenLow, hDenHigh⟩ := log2_bounds hDen
  have hPos : (0 : Rat) < den := by exact_mod_cast hDen
  refine ⟨?_, ?_⟩
  · rw [le_div_iff₀ hPos]
    calc (2 : Rat) ^ ((num.log2 : Int) - den.log2 - 1) * den
        ≤ 2 ^ ((num.log2 : Int) - den.log2 - 1) * 2 ^ ((den.log2 : Int) + 1) :=
          mul_le_mul_of_nonneg_left hDenHigh.le (by positivity)
      _ = 2 ^ (num.log2 : Int) := by
          rw [← zpow_add₀ (by norm_num)]
          congr 1
          ring
      _ ≤ num := hNumLow
  · rw [div_lt_iff₀ hPos]
    calc (num : Rat) < 2 ^ ((num.log2 : Int) + 1) := hNumHigh
      _ = 2 ^ ((num.log2 : Int) - den.log2 + 1) * 2 ^ (den.log2 : Int) := by
          rw [← zpow_add₀ (by norm_num)]
          congr 1
          ring
      _ ≤ 2 ^ ((num.log2 : Int) - den.log2 + 1) * den :=
          mul_le_mul_of_nonneg_left hDenLow (by positivity)

/-- In its binade a fraction has 53 binary digits before the point, or less in the
lowest one. -/
theorem binadeOf_spec (hNum : 0 < num) (hDen : 0 < den) :
    -1074 ≤ binadeOf num den ∧ (num : Rat) / den < 2 ^ 53 * 2 ^ binadeOf num den ∧
      (binadeOf num den = -1074 ∨ 2 ^ 52 * 2 ^ binadeOf num den ≤ (num : Rat) / den) := by
  obtain ⟨hLow, hHigh⟩ := fraction_bounds hNum hDen
  have hScaled (power : Int) :
      (scaleDown num den power).1 / (scaleDown num den power).2 < 2 * binade ↔
        (num : Rat) / den < 2 ^ 53 * 2 ^ power := by
    have hPos := scaleDown_pos hDen num power
    have hPosRat : (0 : Rat) < (scaleDown num den power).2 := by exact_mod_cast hPos
    rw [Nat.div_lt_iff_lt_mul hPos, ← div_lt_iff₀ (by positivity), ← scaleDown_div,
      div_lt_iff₀ hPosRat, binade_eq]
    exact_mod_cast Iff.rfl
  simp only [binadeOf]
  generalize hGuess : max ((num.log2 : Int) - den.log2 - 53) (-1074) = guess
  split
  · rename_i hBelow
    rw [hScaled] at hBelow
    refine ⟨by omega, hBelow, ?_⟩
    rcases eq_or_ne guess (-1074) with hEnd | hAbove
    · exact .inl hEnd
    · have hGuess : 52 + guess = (num.log2 : Int) - den.log2 - 1 := by omega
      right
      calc (2 : Rat) ^ 52 * 2 ^ guess = 2 ^ (52 + guess) := by
            rw [zpow_add₀ (by norm_num)]
            norm_cast
        _ ≤ (num : Rat) / den := by rwa [hGuess]
  · rename_i hAbove
    rw [hScaled] at hAbove
    have hStep : (2 : Rat) ^ 52 * 2 ^ (guess + 1) = 2 ^ 53 * 2 ^ guess := by
      rw [zpow_add_one₀ (by norm_num)]
      ring
    refine ⟨by omega, ?_, .inr (hStep.trans_le (not_lt.mp hAbove))⟩
    calc (num : Rat) / den < 2 ^ ((num.log2 : Int) - den.log2 + 1) := hHigh
      _ ≤ 2 ^ (53 + (guess + 1)) := zpow_le_zpow_right₀ (by norm_num) (by omega)
      _ = 2 ^ 53 * 2 ^ (guess + 1) := by
          rw [zpow_add₀ (by norm_num)]
          norm_cast

/-- The whole number nearest to a scaled fraction is half a unit away at most. -/
theorem nearest_scaleDown (hDen : 0 < den) (num : Nat) (power : Int) :
    2 * ((num : Rat) / den / 2 ^ power) ≤
        2 * nearest (scaleDown num den power).1 (scaleDown num den power).2 + 1 ∧
      2 * (nearest (scaleDown num den power).1 (scaleDown num den power).2 : Rat) ≤
        2 * ((num : Rat) / den / 2 ^ power) + 1 := by
  have hPos := scaleDown_pos hDen num power
  have hPosRat : (0 : Rat) < (scaleDown num den power).2 := by exact_mod_cast hPos
  obtain ⟨hAbove, hBelow⟩ := nearest_bounds hPos (scaleDown num den power).1
  rw [← scaleDown_div, ← mul_div_assoc]
  refine ⟨?_, ?_⟩
  · rw [div_le_iff₀ hPosRat]
    exact_mod_cast hAbove
  · rw [← sub_le_iff_le_add, le_div_iff₀ hPosRat, sub_mul, one_mul, sub_le_iff_le_add]
    exact_mod_cast hBelow

/-- What the nearest rank stands for: a multiple of the spacing of the binade, no
farther than half of that from the fraction. -/
theorem nearestRank_spec (hNum : 0 < num) (hDen : 0 < den) :
    ∃ step n, nearestRank num den = step * binade + n ∧ n ≤ 2 * binade ∧
      (step = 0 ∨ binade ≤ n) ∧ (num : Rat) / den < 2 ^ 53 * spacing step ∧
      (step = 0 ∨ 2 ^ 52 * spacing step ≤ (num : Rat) / den) ∧
      2 * ((num : Rat) / den) ≤ (2 * n + 1) * spacing step ∧
      2 * n * spacing step ≤ 2 * ((num : Rat) / den) + spacing step := by
  obtain ⟨hEnd, hHigh, hLow⟩ := binadeOf_spec hNum hDen
  obtain ⟨hAbove, hBelow⟩ := nearest_scaleDown hDen num (binadeOf num den)
  have hRank : nearestRank num den = (binadeOf num den + 1074).toNat * binade +
      nearest (scaleDown num den (binadeOf num den)).1
        (scaleDown num den (binadeOf num den)).2 := rfl
  have hSpacing : spacing (binadeOf num den + 1074).toNat = 2 ^ binadeOf num den := by
    rw [spacing]
    congr 1
    omega
  have hUnit := spacing_pos (binadeOf num den + 1074).toNat
  rw [← hSpacing] at hHigh hLow hAbove hBelow
  have hStep : binadeOf num den = -1074 → (binadeOf num den + 1074).toNat = 0 := by omega
  generalize nearest _ _ = n at *
  generalize (binadeOf num den + 1074).toNat = step at *
  have hLow : step = 0 ∨ 2 ^ 52 * spacing step ≤ (num : Rat) / den := hLow.imp_left hStep
  refine ⟨step, n, hRank, ?_, hLow.imp_right fun hLow => ?_, hHigh, hLow, ?_, ?_⟩
  · have hScaled : (num : Rat) / den / spacing step < 2 ^ 53 := (div_lt_iff₀ hUnit).mpr hHigh
    have hCount : ((2 * n : Nat) : Rat) < (2 * (2 * binade) + 1 : Nat) := by
      rw [binade_eq]
      push_cast
      linarith
    have hCount : 2 * n < 2 * (2 * binade) + 1 := by exact_mod_cast hCount
    omega
  · have hScaled : 2 ^ 52 ≤ (num : Rat) / den / spacing step := (le_div_iff₀ hUnit).mpr hLow
    have hCount : ((2 * binade : Nat) : Rat) ≤ (2 * n + 1 : Nat) := by
      rw [binade_eq]
      push_cast
      linarith
    have hCount : 2 * binade ≤ 2 * n + 1 := by exact_mod_cast hCount
    omega
  · rwa [← div_le_iff₀ hUnit, mul_div_assoc]
  · calc 2 * (n : Rat) * spacing step
        ≤ (2 * ((num : Rat) / den / spacing step) + 1) * spacing step :=
          mul_le_mul_of_nonneg_right hBelow hUnit.le
      _ = 2 * ((num : Rat) / den) + spacing step := by
          rw [add_mul, one_mul, mul_assoc, div_mul_cancel₀ _ hUnit.ne']

/-- The nearest whole number depends on the fraction and not on how it is written. -/
theorem nearest_congr {num' den' : Nat} (hDen : 0 < den) (hDen' : 0 < den')
    (hEq : num * den' = num' * den) : nearest num den = nearest num' den' := by
  have hBelow : num / den = num' / den' := by
    rw [← Nat.mul_div_mul_right num den hDen', hEq, Nat.mul_comm den den',
      Nat.mul_div_mul_right num' den' hDen]
  have hRest : num % den * den' = num' % den' * den := by
    rw [← Nat.mul_mod_mul_right, hEq, Nat.mul_comm den den', Nat.mul_mod_mul_right]
  have hTwice : 2 * (num % den) * den' = 2 * (num' % den') * den := by
    rw [Nat.mul_assoc, hRest, Nat.mul_assoc]
  have hLess : 2 * (num % den) < den ↔ 2 * (num' % den') < den' := by
    rw [← Nat.mul_lt_mul_right hDen', hTwice, Nat.mul_comm den den', Nat.mul_lt_mul_right hDen]
  have hTie : 2 * (num % den) = den ↔ 2 * (num' % den') = den' := by
    rw [← Nat.mul_left_inj hDen'.ne', hTwice, Nat.mul_comm den den', Nat.mul_left_inj hDen.ne']
  simp only [nearest, hBelow, hLess, hTie]

/-- A fraction has one binade, however it is written. -/
theorem binadeOf_congr {num' den' : Nat} (hNum : 0 < num) (hDen : 0 < den) (hNum' : 0 < num')
    (hDen' : 0 < den') (hEq : (num : Rat) / den = (num' : Rat) / den') :
    binadeOf num den = binadeOf num' den' := by
  have hLe {a b c d : Nat} (ha : 0 < a) (hb : 0 < b) (hc : 0 < c) (hd : 0 < d)
      (hEq : (a : Rat) / b = (c : Rat) / d) : binadeOf a b ≤ binadeOf c d := by
    obtain ⟨_, _, hLow⟩ := binadeOf_spec ha hb
    obtain ⟨hEnd, hHigh, _⟩ := binadeOf_spec hc hd
    rcases hLow with hLow | hLow
    · rwa [hLow]
    · have hBinary : (2 : Rat) ^ (52 + binadeOf a b) < 2 ^ (53 + binadeOf c d) := by
        rw [zpow_add₀ (by norm_num), zpow_add₀ (by norm_num)]
        rw [hEq] at hLow
        exact_mod_cast hLow.trans_lt hHigh
      have hExponents := (zpow_lt_zpow_iff_right₀ (by norm_num)).mp hBinary
      omega
  exact Int.le_antisymm (hLe hNum hDen hNum' hDen' hEq) (hLe hNum' hDen' hNum hDen hEq.symm)

/-- The nearest rank depends on the value of a fraction, and not on how it is
written. -/
theorem nearestRank_congr {num' den' : Nat} (hNum : 0 < num) (hDen : 0 < den) (hNum' : 0 < num')
    (hDen' : 0 < den') (hEq : (num : Rat) / den = (num' : Rat) / den') :
    nearestRank num den = nearestRank num' den' := by
  have hScaled (power : Int) :
      (scaleDown num den power).1 * (scaleDown num' den' power).2 =
        (scaleDown num' den' power).1 * (scaleDown num den power).2 := by
    have hPos := scaleDown_pos hDen num power
    have hPos' := scaleDown_pos hDen' num' power
    have hDiv := congrArg (· / (2 : Rat) ^ power) hEq
    simp only [← scaleDown_div] at hDiv
    rw [div_eq_div_iff (by positivity) (by positivity)] at hDiv
    exact_mod_cast hDiv
  simp only [nearestRank, binadeOf_congr hNum hDen hNum' hDen' hEq]
  congr 1
  exact nearest_congr (scaleDown_pos hDen _ _) (scaleDown_pos hDen' _ _) (hScaled _)

end Fractions

/-- The rank nearest to a magnitude, counted on past the largest finite one. -/
def rounded (q : Rat) : Nat := if q = 0 then 0 else nearestRank q.num.toNat q.den

@[simp] theorem rounded_zero : rounded 0 = 0 := if_pos rfl

section Magnitudes

variable {q : Rat}

/-- The parts of a fraction above zero. -/
theorem exists_parts (hq : 0 < q) : ∃ num den : Nat, 0 < num ∧ 0 < den ∧ (num : Rat) / den = q ∧
    rounded q = nearestRank num den := by
  have hNum : 0 < q.num := Rat.num_pos.mpr hq
  refine ⟨q.num.toNat, q.den, by omega, q.den_pos, ?_, if_neg hq.ne'⟩
  have hCast : ((q.num.toNat : Int) : Rat) = q.num := by rw [Int.toNat_of_nonneg hNum.le]
  rw [← Int.cast_natCast, hCast, Rat.num_div_den]

/-- The nearest rank of a fraction is that of its value. -/
theorem nearestRank_eq_rounded {num den : Nat} (hNum : 0 < num) (hDen : 0 < den) :
    nearestRank num den = rounded ((num : Rat) / den) := by
  have hq : 0 < (num : Rat) / den := by positivity
  obtain ⟨num', den', hNum', hDen', hEq, hRound⟩ := exists_parts hq
  rw [hRound]
  exact nearestRank_congr hNum hDen hNum' hDen' hEq.symm

/-- A fraction becomes the nearest double, up to infinity. -/
theorem rankOf_eq_min (num : Nat) {den : Nat} (hDen : 0 < den) :
    rankOf num den = min infinity (rounded ((num : Rat) / den)) := by
  rcases Nat.eq_zero_or_pos num with rfl | hNum
  · simp [rankOf]
  · rw [rankOf, if_neg hNum.ne', ← nearestRank_eq_rounded hNum hDen]
    rfl

/-- What rounding comes to: a multiple of the spacing of the binade, no farther than
half of that from the magnitude. -/
theorem rounded_spec (hq : 0 < q) : ∃ step n, rounded q = step * binade + n ∧ n ≤ 2 * binade ∧
    (step = 0 ∨ binade ≤ n) ∧ q < 2 ^ 53 * spacing step ∧
    (step = 0 ∨ 2 ^ 52 * spacing step ≤ q) ∧
    2 * q ≤ (2 * n + 1) * spacing step ∧ 2 * n * spacing step ≤ 2 * q + spacing step := by
  obtain ⟨num, den, hNum, hDen, rfl, hRound⟩ := exists_parts hq
  rw [hRound]
  exact nearestRank_spec hNum hDen

/-- A fraction is not above the middle between the magnitude of its nearest rank and
the next one. -/
theorem two_mul_le_rounded (hq : 0 < q) :
    2 * q ≤ magnitude (rounded q) + magnitude (rounded q + 1) := by
  obtain ⟨step, n, hRank, hMost, hLeast, hHigh, _, hAbove, _⟩ := rounded_spec hq
  have hHere := magnitude_step hLeast hMost
  rw [hRank, hHere]
  rcases Nat.lt_or_eq_of_le hMost with hLess | rfl
  · rw [Nat.add_assoc, magnitude_step (hLeast.imp_right fun h => h.trans (Nat.le_succ n)) hLess]
    push_cast
    linarith
  · -- The fraction itself does not reach the end of its binade.
    have hNext := magnitude_strictMono (Nat.lt_succ_self (step * binade + 2 * binade))
    rw [hHere] at hNext
    rw [binade_eq] at hNext ⊢
    push_cast at hNext ⊢
    linarith

/-- Nor is it below the middle between two lesser magnitudes. -/
theorem le_two_mul_of_lt_rounded (hq : 0 < q) {rank : Nat} (h : rank < rounded q) :
    magnitude rank + magnitude (rank + 1) ≤ 2 * q := by
  obtain ⟨step, n, hRank, hMost, hLeast, _, hLow, _, hBelow⟩ := rounded_spec hq
  have hHere := magnitude_step hLeast hMost
  have hUnit := spacing_pos step
  -- It is enough to look at the rank just below.
  have hLast : ∀ last, rounded q = last + 1 →
      magnitude last + magnitude (last + 1) ≤ 2 * q := by
    intro last hLast
    rw [← hLast, hRank, hHere]
    rw [hRank] at hLast
    -- Below the first rank of a binade the spacing is that of the binade before.
    by_cases hFirst : step ≠ 0 ∧ n = binade
    · obtain ⟨hStep, rfl⟩ := hFirst
      have hLow := hLow.resolve_left hStep
      have hLess := magnitude_strictMono (Nat.lt_succ_self last)
      rw [← Nat.add_one, ← hLast, hHere] at hLess
      rw [binade_eq] at hLess ⊢
      push_cast at hLess ⊢
      linarith
    · have hPos : 0 < n := by
        rcases hLeast with rfl | hLeast
        · omega
        · exact lt_of_lt_of_le (by decide) hLeast
      obtain ⟨m, rfl⟩ : ∃ m, n = m + 1 := ⟨n - 1, by omega⟩
      obtain rfl : last = step * binade + m := by omega
      rw [magnitude_step (by omega) (by omega)]
      push_cast at hBelow ⊢
      linarith
  have hEq : rounded q = rounded q - 1 + 1 := by omega
  have hMono := magnitude_strictMono.monotone
  have hLe : rank ≤ rounded q - 1 := by omega
  exact (add_le_add (hMono hLe) (hMono (Nat.succ_le_succ hLe))).trans (hLast _ hEq)

/-- Below the middle between two doubles a magnitude is not rounded above the lower
one. -/
theorem rounded_le (hq : 0 < q) {rank : Nat}
    (h : 2 * q < magnitude rank + magnitude (rank + 1)) : rounded q ≤ rank := by
  by_contra hAbove
  exact absurd h (not_lt.mpr (le_two_mul_of_lt_rounded hq (by omega)))

/-- Above the middle between two doubles a magnitude is not rounded to the lower
one. -/
theorem lt_rounded (hq : 0 < q) {rank : Nat}
    (h : magnitude rank + magnitude (rank + 1) < 2 * q) : rank < rounded q := by
  by_contra hBelow
  have hLe : rounded q ≤ rank := not_lt.mp hBelow
  have hMono := magnitude_strictMono.monotone
  have hMiddle := two_mul_le_rounded hq
  exact absurd (h.trans_le hMiddle)
    (not_lt.mpr (add_le_add (hMono hLe) (hMono (Nat.succ_le_succ hLe))))

end Magnitudes

end HexFilter.Binary64
