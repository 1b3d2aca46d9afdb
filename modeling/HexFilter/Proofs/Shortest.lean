import HexFilter.Binary64.Decimal
import HexFilter.Proofs.Precision

/-! The shortest decimal of a magnitude. The grid with the most digits is so fine
that one of its points around the magnitude is rounded back to it, so some grid
has one. -/
namespace HexFilter

open Binary64

namespace Decimal

/-- What a decimal stands for. -/
def magnitude (d : Decimal) : Rat := d.digits * 10 ^ d.power

section Width

/-- A number has at most so many digits if it is below that power of ten. -/
theorem width_le_iff {n k : Nat} (hk : 0 < k) : width n ≤ k ↔ n < 10 ^ k :=
  Nat.length_toDigits_le_iff (by decide) hk

theorem width_pos (n : Nat) : 0 < width n := List.length_pos_iff.mpr Nat.toDigits_ne_nil

theorem lt_pow_width (n : Nat) : n < 10 ^ width n := (width_le_iff (width_pos n)).mp (Nat.le_refl _)

/-- A number is at least the power of ten of its first digit. -/
theorem pow_width_le {n : Nat} (hn : 0 < n) : 10 ^ (width n - 1) ≤ n := by
  rcases Nat.eq_or_lt_of_le (width_pos n) with hOne | hMore
  · rw [← hOne]
    exact hn
  · by_contra hLess
    have hWidth : width n ≤ width n - 1 := (width_le_iff (by omega)).mpr (by omega)
    omega

end Width

theorem scaleDown_pos {den : Nat} (hDen : 0 < den) (num : Nat) (power : Int) :
    0 < (scaleDown num den power).2 :=
  Nat.mul_pos hDen (Nat.pow_pos (by decide))

theorem scaleDown_div (num den : Nat) (power : Int) :
    ((scaleDown num den power).1 : Rat) / (scaleDown num den power).2 =
      (num : Rat) / den / 10 ^ power := by
  rw [← div_scaled (by norm_num)]
  simp [scaleDown]

theorem ten_zpow_natCast (n : Nat) : (10 : Rat) ^ (n : Int) = (10 ^ n : Nat) := by
  rw [zpow_natCast]
  push_cast
  rfl

/-- The leading digit of a magnitude stands at its power of ten. -/
theorem leading_bounds {num den : Nat} (hNum : 0 < num) (hDen : 0 < den) :
    (10 : Rat) ^ leading num den ≤ (num : Rat) / den ∧
      (num : Rat) / den < 10 ^ (leading num den + 1) := by
  have hDenRat : (0 : Rat) < den := by exact_mod_cast hDen
  rw [leading]
  split
  · rename_i hLe
    have hFloor : num / den * den ≤ num := Nat.div_mul_le_self num den
    have hNext : num < (num / den + 1) * den := Nat.lt_mul_of_div_lt (Nat.lt_succ_self _) hDen
    have hLow := pow_width_le (Nat.div_pos hLe hDen)
    have hHigh := lt_pow_width (num / den)
    have hWidth := width_pos (num / den)
    generalize num / den = floor at *
    refine ⟨?_, ?_⟩
    · have hPower : (width floor : Int) - 1 = (width floor - 1 : Nat) := by omega
      rw [hPower, ten_zpow_natCast, le_div_iff₀ hDenRat]
      exact_mod_cast (Nat.mul_le_mul_right den hLow).trans hFloor
    · rw [Int.sub_add_cancel, ten_zpow_natCast, div_lt_iff₀ hDenRat]
      exact_mod_cast hNext.trans_le (Nat.mul_le_mul_right den hHigh)
  · -- How often the magnitude goes into one, not counting the last time.
    obtain ⟨times, hTimes⟩ : ∃ times, (den + num - 1) / num - 1 = times := ⟨_, rfl⟩
    have hSplit := Nat.div_add_mod' (den + num - 1) num
    have hRest := Nat.mod_lt (den + num - 1) hNum
    have hOnce : 2 ≤ (den + num - 1) / num := (Nat.le_div_iff_mul_le hNum).mpr (by omega)
    have hQuotient : (den + num - 1) / num = times + 1 := by omega
    rw [hQuotient, Nat.add_mul] at hSplit
    rw [hTimes]
    have hLow := pow_width_le (n := times) (by omega)
    have hHigh := lt_pow_width times
    have hWidth := width_pos times
    have hPowerPos : (0 : Rat) < (10 ^ width times : Nat) := by positivity
    refine ⟨?_, ?_⟩
    · rw [le_div_iff₀ hDenRat, zpow_neg, ten_zpow_natCast, inv_mul_le_iff₀ hPowerPos]
      have hMore := Nat.mul_le_mul_right num hHigh
      rw [Nat.succ_mul] at hMore
      exact_mod_cast (by omega : den ≤ 10 ^ width times * num)
    · have hPower : -(width times : Int) + 1 = -((width times - 1 : Nat) : Int) := by omega
      have hPowerPos : (0 : Rat) < (10 ^ (width times - 1) : Nat) := by positivity
      rw [div_lt_iff₀ hDenRat, hPower, zpow_neg, ten_zpow_natCast, lt_inv_mul_iff₀ hPowerPos]
      have hLess := Nat.mul_le_mul_right num hLow
      exact_mod_cast (by omega : 10 ^ (width times - 1) * num < den)

/-- A decimal is read as the nearest double, up to infinity. -/
theorem rank_eq_min (d : Decimal) : d.rank = min infinity (rounded d.magnitude) := by
  have hDiv := scaleDown_div d.digits 1 (-d.power)
  rw [Nat.cast_one, div_one, zpow_neg, div_inv_eq_mul] at hDiv
  have hRank := rankOf_eq_min (scaleDown d.digits 1 (-d.power)).1
    (scaleDown_pos Nat.one_pos d.digits (-d.power))
  rwa [hDiv] at hRank

/-- A decimal is read as a finite double exactly if its magnitude is rounded to it. -/
theorem rank_eq_iff (d : Decimal) {rank : Nat} (hFinite : rank < infinity) :
    d.rank = rank ↔ rounded d.magnitude = rank := by
  rw [rank_eq_min]
  omega

section Grid

/-- The power of ten of the last digit on the grid with so many digits. -/
def gridPower (rank count : Nat) : Int :=
  leading (fraction rank).1 (fraction rank).2 - (count - 1 : Nat)

/-- The number of the last point on the grid that is not above the magnitude. -/
def gridBelow (rank count : Nat) : Nat :=
  (scaleDown (fraction rank).1 (fraction rank).2 (gridPower rank count)).1 /
    (scaleDown (fraction rank).1 (fraction rank).2 (gridPower rank count)).2

variable {rank count : Nat} {d : Decimal}

/-- A double is looked for below and above its place on the grid, and nowhere else. -/
theorem onGrid_eq (rank count : Nat) : onGrid rank count =
    let below : Decimal := ⟨gridBelow rank count, gridPower rank count⟩
    let above : Decimal := ⟨gridBelow rank count + 1, gridPower rank count⟩
    let (a, b) := scaleDown (fraction rank).1 (fraction rank).2 (gridPower rank count)
    if below.rank = rank then
      if above.rank = rank ∧ nearest a b = above.digits then some above else some below
    else if above.rank = rank then some above
    else none := rfl

/-- A point on the grid that was found is one of the two around the magnitude, and is
rounded back to it. -/
theorem onGrid_eq_some (h : onGrid rank count = some d) :
    d.rank = rank ∧ d.power = gridPower rank count ∧
      (d.digits = gridBelow rank count ∨ d.digits = gridBelow rank count + 1) := by
  rw [onGrid_eq] at h
  dsimp only at h
  split at h
  · rename_i hBelow
    split at h
    · rename_i hAbove
      cases h
      exact ⟨hAbove.1, rfl, .inr rfl⟩
    · cases h
      exact ⟨hBelow, rfl, .inl rfl⟩
  · split at h
    · rename_i hAbove
      cases h
      exact ⟨hAbove, rfl, .inr rfl⟩
    · cases h

/-- A grid that is fine enough has a decimal for the double. -/
theorem onGrid_isSome
    (h : (Decimal.mk (gridBelow rank count) (gridPower rank count)).rank = rank ∨
      (Decimal.mk (gridBelow rank count + 1) (gridPower rank count)).rank = rank) :
    (onGrid rank count).isSome := by
  rw [onGrid_eq]
  dsimp only
  split
  · split <;> rfl
  · rename_i hBelow
    rw [if_pos (h.resolve_left hBelow)]
    rfl

/-- Between its powers of ten a magnitude has so many digits before the point of the
grid. -/
theorem grid_bounds (hRank : 0 < rank) (hCount : 0 < count) :
    (10 : Rat) ^ (count - 1) ≤ Binary64.magnitude rank / 10 ^ gridPower rank count ∧
      Binary64.magnitude rank / 10 ^ gridPower rank count < 10 ^ count := by
  obtain ⟨hLow, hHigh⟩ := leading_bounds (fraction_fst_pos hRank) (fraction_snd_pos rank)
  rw [fraction_div] at hLow hHigh
  have hUnit : (0 : Rat) < 10 ^ gridPower rank count := by positivity
  refine ⟨?_, ?_⟩
  · rw [le_div_iff₀ hUnit, ← zpow_natCast, ← zpow_add₀ (by norm_num), gridPower,
      add_sub_cancel]
    exact hLow
  · have hPower : (count : Int) + gridPower rank count =
        leading (fraction rank).1 (fraction rank).2 + 1 := by
      rw [gridPower]
      omega
    rw [div_lt_iff₀ hUnit, ← zpow_natCast, ← zpow_add₀ (by norm_num), hPower]
    exact hHigh

/-- The grid point below a magnitude is the last one that does not exceed it. -/
theorem gridBelow_bounds (rank count : Nat) :
    (gridBelow rank count : Rat) ≤ Binary64.magnitude rank / 10 ^ gridPower rank count ∧
      Binary64.magnitude rank / 10 ^ gridPower rank count < gridBelow rank count + 1 := by
  have hPos := scaleDown_pos (fraction_snd_pos rank) (fraction rank).1 (gridPower rank count)
  have hPosRat : (0 : Rat) <
      (scaleDown (fraction rank).1 (fraction rank).2 (gridPower rank count)).2 := by
    exact_mod_cast hPos
  rw [← fraction_div, ← scaleDown_div]
  refine ⟨?_, ?_⟩
  · rw [le_div_iff₀ hPosRat]
    exact_mod_cast Nat.div_mul_le_self _ _
  · rw [div_lt_iff₀ hPosRat]
    exact_mod_cast Nat.lt_mul_of_div_lt (Nat.lt_succ_self _) hPos

/-- A point on the grid no farther than half a unit from the magnitude is rounded back to
it, if the unit is fine enough. -/
theorem rank_eq_of_half (hRank : 0 < rank) (hFinite : rank < infinity) (digits : Nat)
    (hDigits : 0 < digits)
    (hHalf : 2 * |(digits : Rat) - Binary64.magnitude rank / 10 ^ gridPower rank mostDigits| ≤ 1) :
    (Decimal.mk digits (gridPower rank mostDigits)).rank = rank := by
  obtain ⟨hLow, _⟩ := grid_bounds hRank (by decide : 0 < mostDigits)
  have hUnit : (0 : Rat) < 10 ^ gridPower rank mostDigits := by positivity
  have hDigitsRat : (0 : Rat) < digits := by exact_mod_cast hDigits
  rw [rank_eq_iff _ hFinite, Decimal.magnitude]
  dsimp only
  generalize (10 : Rat) ^ gridPower rank mostDigits = unit at *
  refine rounded_eq_of_close (mul_pos hDigitsRat hUnit) hRank ?_
  have hScaled : Binary64.magnitude rank = Binary64.magnitude rank / unit * unit :=
    (div_mul_cancel₀ _ hUnit.ne').symm
  generalize Binary64.magnitude rank / unit = scaled at *
  rw [hScaled, ← sub_mul, abs_mul, abs_of_pos hUnit, ← mul_assoc]
  refine mul_lt_mul_of_pos_right ?_ hUnit
  rw [show mostDigits - 1 = 16 from rfl] at hLow
  linarith

/-- Seventeen digits are enough: the nearer one of the two points around the magnitude
is rounded back to it. -/
theorem exists_onGrid (hRank : 0 < rank) (hFinite : rank < infinity) :
    (onGrid rank mostDigits).isSome := by
  obtain ⟨hLow, _⟩ := grid_bounds hRank (by decide : 0 < mostDigits)
  obtain ⟨hBelow, hAbove⟩ := gridBelow_bounds rank mostDigits
  have hPos : 0 < gridBelow rank mostDigits := by
    by_contra hZero
    rw [Nat.eq_zero_of_not_pos hZero, Nat.cast_zero, zero_add] at hAbove
    rw [show mostDigits - 1 = 16 from rfl] at hLow
    linarith
  refine onGrid_isSome ?_
  have hRounds := rank_eq_of_half hRank hFinite (gridBelow rank mostDigits) hPos
  have hRoundsNext :=
    rank_eq_of_half hRank hFinite (gridBelow rank mostDigits + 1) (Nat.succ_pos _)
  push_cast at hRoundsNext
  generalize Binary64.magnitude rank / 10 ^ gridPower rank mostDigits = scaled at *
  rcases le_total (2 * (scaled - gridBelow rank mostDigits)) 1 with hHalf | hHalf
  · refine .inl (hRounds ?_)
    rw [abs_of_nonpos (by linarith)]
    linarith
  · refine .inr (hRoundsNext ?_)
    rw [abs_of_nonneg (by linarith)]
    linarith

end Grid

section Trim

/-- The zeros at the end of the digits. -/
def zeros (n : Nat) : Nat :=
  width n - ((Nat.toDigits 10 n).reverse.dropWhile (· = '0')).length

/-- As many zeros as a number ends in can be taken off. -/
theorem pow_zeros_dvd (n : Nat) : 10 ^ zeros n ∣ n := by
  induction n using Nat.strongRecOn with
  | ind n ih =>
    rcases Nat.lt_or_ge n 10 with hBase | hMore
    · rcases Nat.eq_zero_or_pos n with rfl | hPos
      · exact Nat.dvd_zero _
      · have hNone : zeros n = 0 := by
          simp [zeros, width, Nat.toDigits_of_lt_base hBase, Nat.digitChar_eq_zero, hPos.ne']
        rw [hNone]
        exact Nat.one_dvd n
    · have hDigits := Nat.toDigits_of_base_le (by decide : 1 < 10) hMore
      by_cases hLast : n % 10 = 0
      · have hKept := (List.dropWhile_sublist (p := (· = '0'))
          (l := (Nat.toDigits 10 (n / 10)).reverse)).length_le
        rw [List.length_reverse] at hKept
        have hNext : zeros n = zeros (n / 10) + 1 := by
          simp [zeros, width, hDigits, hLast]
          omega
        have hSplit : n = n / 10 * 10 := by omega
        rw [hNext, Nat.pow_succ, hSplit]
        exact Nat.mul_dvd_mul_right (by simpa using ih (n / 10) (by omega)) 10
      · have hNone : zeros n = 0 := by
          simp [zeros, width, hDigits, Nat.digitChar_eq_zero, hLast]
        rw [hNone]
        exact Nat.one_dvd n

theorem digits_trim (d : Decimal) : d.trim.digits * 10 ^ zeros d.digits = d.digits :=
  Nat.div_mul_cancel (pow_zeros_dvd d.digits)

theorem power_trim (d : Decimal) : d.trim.power = d.power + zeros d.digits := rfl

/-- Cutting off zeros does not change what a decimal stands for. -/
theorem magnitude_trim (d : Decimal) : d.trim.magnitude = d.magnitude := by
  have hDigits : (d.digits : Rat) = d.trim.digits * 10 ^ zeros d.digits := by
    exact_mod_cast d.digits_trim.symm
  rw [magnitude, magnitude, hDigits, power_trim, zpow_add₀ (by norm_num), zpow_natCast]
  ring

end Trim

/-- A point that was found stands for about the magnitude, and has no more digits than
its grid. -/
theorem bounds_of_onGrid {rank count : Nat} {d : Decimal} (hRank : 0 < rank) (hCount : 0 < count)
    (h : onGrid rank count = some d) : 0 < d.digits ∧ d.digits ≤ 10 ^ count ∧
      d.magnitude ≤ 2 * Binary64.magnitude rank ∧
      Binary64.magnitude rank < 10 ^ count * 10 ^ d.power := by
  obtain ⟨_, hPower, hDigits⟩ := onGrid_eq_some h
  obtain ⟨hLow, hHigh⟩ := grid_bounds hRank hCount
  obtain ⟨hBelow, hAbove⟩ := gridBelow_bounds rank count
  rw [← hPower] at hLow hHigh hBelow hAbove
  have hUnit : (0 : Rat) < 10 ^ d.power := by positivity
  have hOne : (1 : Rat) ≤ 10 ^ (count - 1) := one_le_pow₀ (by norm_num)
  have hPos : 0 < gridBelow rank count := by
    by_contra hZero
    rw [Nat.eq_zero_of_not_pos hZero] at hAbove
    push_cast at hAbove
    linarith
  have hMost : gridBelow rank count < 10 ^ count := by
    exact_mod_cast hBelow.trans_lt hHigh
  refine ⟨by omega, by omega, ?_, (div_lt_iff₀ hUnit).mp hHigh⟩
  have hTop : (d.digits : Rat) ≤ gridBelow rank count + 1 := by
    exact_mod_cast (by omega : d.digits ≤ gridBelow rank count + 1)
  calc d.magnitude ≤ 2 * (Binary64.magnitude rank / 10 ^ d.power) * 10 ^ d.power :=
        mul_le_mul_of_nonneg_right (by linarith) hUnit.le
    _ = 2 * Binary64.magnitude rank := by rw [mul_assoc, div_mul_cancel₀ _ hUnit.ne']

/-- The shortest decimal of a finite magnitude above zero is rounded back to it. It has
seventeen digits at most, and its power of ten is not far from the magnitude. -/
theorem shortest_spec {rank : Nat} (hRank : 0 < rank) (hFinite : rank < infinity) :
    rounded (shortest rank).magnitude = rank ∧ 0 < (shortest rank).digits ∧
      (shortest rank).digits ≤ 10 ^ 17 ∧
      (10 : Rat) ^ (shortest rank).power ≤ 2 * Binary64.magnitude rank ∧
      Binary64.magnitude rank ≤ 10 ^ 17 * 10 ^ (shortest rank).power := by
  have hSome : ((List.range' 1 mostDigits).findSome? (onGrid rank)).isSome :=
    List.findSome?_isSome_iff.mpr ⟨mostDigits, by decide, exists_onGrid hRank hFinite⟩
  obtain ⟨d, hFound⟩ := Option.isSome_iff_exists.mp hSome
  obtain ⟨count, hCount, hGrid⟩ := List.exists_of_findSome?_eq_some hFound
  rw [List.mem_range'_1] at hCount
  obtain ⟨hPos, hMost, hLarge, hSmall⟩ := bounds_of_onGrid hRank (by omega) hGrid
  have hRound := (d.rank_eq_iff hFinite).mp (onGrid_eq_some hGrid).1
  have hShortest : shortest rank = d.trim := by
    rw [shortest, hFound]
  have hDigits := d.digits_trim
  have hTrimPos : 0 < d.trim.digits := by
    by_contra hZero
    rw [Nat.eq_zero_of_not_pos hZero, Nat.zero_mul] at hDigits
    omega
  have hTrimLe : d.trim.digits ≤ d.digits := by
    rw [← hDigits]
    exact Nat.le_mul_of_pos_right _ (Nat.pow_pos (by decide))
  have hMostDigits : 10 ^ count ≤ 10 ^ 17 :=
    Nat.pow_le_pow_right (by decide) (by simp only [mostDigits] at hCount; omega)
  have hUnit : (0 : Rat) < 10 ^ d.trim.power := by positivity
  rw [hShortest, magnitude_trim]
  refine ⟨hRound, hTrimPos, by omega, ?_, ?_⟩
  · refine le_trans ?_ hLarge
    rw [← magnitude_trim]
    exact le_mul_of_one_le_left hUnit.le (by exact_mod_cast hTrimPos)
  · have hPowers : (10 : Rat) ^ d.power ≤ 10 ^ d.trim.power :=
      zpow_le_zpow_right₀ (by norm_num) (by rw [power_trim]; omega)
    have hCounts : (10 : Rat) ^ count ≤ 10 ^ 17 := by exact_mod_cast hMostDigits
    exact hSmall.le.trans (mul_le_mul hCounts hPowers (by positivity) (by positivity))

end Decimal

end HexFilter
