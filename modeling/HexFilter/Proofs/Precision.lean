import HexFilter.Proofs.Rounding

/-! How far rounded magnitudes are from the exact ones. One rounding is an error
of one part in 2 ^ 53 at most, and such an error moves the nearest rank by one
place at most. -/
namespace HexFilter.Binary64

/-- What one rounding may be off by, against the magnitude. -/
def precision : Rat := 1 / 2 ^ 53

/-- A magnitude far above those that come up and far below the largest one. -/
def moderate : Rat := 2 ^ 200

/-- Two magnitudes differ by no more than one rounding. -/
structure Near (x y : Rat) : Prop where
  le_left : x ≤ (1 + precision) * y
  le_right : y ≤ (1 + precision) * x

theorem precision_pos : 0 < precision := by
  unfold precision
  positivity

namespace Near

variable {x y z : Rat}

theorem symm (near : Near x y) : Near y x := ⟨near.le_right, near.le_left⟩

/-- An error of a factor is an error of the product. -/
theorem mul_right (near : Near x y) (h : 0 ≤ z) : Near (x * z) (y * z) := by
  refine ⟨?_, ?_⟩ <;> rw [← mul_assoc]
  · exact mul_le_mul_of_nonneg_right near.le_left h
  · exact mul_le_mul_of_nonneg_right near.le_right h

theorem div_right (near : Near x y) (h : 0 ≤ z) : Near (x / z) (y / z) := by
  rw [div_eq_mul_inv, div_eq_mul_inv]
  exact near.mul_right (inv_nonneg.mpr h)

theorem mul_left (near : Near x y) (h : 0 ≤ z) : Near (z * x) (z * y) := by
  rw [mul_comm z x, mul_comm z y]
  exact near.mul_right h

theorem pos (near : Near x y) (h : 0 < x) : 0 < y := by
  have hFactor : 0 < 1 + precision := by linarith [precision_pos]
  exact pos_of_mul_pos_right (h.trans_le near.le_left) hFactor.le

theorem nonneg (near : Near x y) (h : 0 ≤ x) : 0 ≤ y := by
  have hFactor : 0 < 1 + precision := by linarith [precision_pos]
  exact (mul_nonneg_iff_of_pos_left hFactor).mp (h.trans near.le_left)

/-- An error of a divisor is as large an error of its inverse. -/
theorem inv (near : Near x y) (h : 0 < x) : Near x⁻¹ y⁻¹ := by
  have hOther := near.pos h
  refine ⟨?_, ?_⟩
  · rw [← div_eq_mul_inv, ← one_div, div_le_div_iff₀ h hOther, one_mul]
    exact near.le_right
  · rw [← div_eq_mul_inv, ← one_div, div_le_div_iff₀ hOther h, one_mul]
    exact near.le_left

theorem div_left (near : Near x y) (hx : 0 < x) (h : 0 ≤ z) : Near (z / x) (z / y) := by
  rw [div_eq_mul_inv, div_eq_mul_inv]
  exact (near.inv hx).mul_left h

/-- Crude bounds. -/
theorem le_two_mul (near : Near x y) (h : 0 ≤ y) : x ≤ 2 * y := by
  refine near.le_left.trans (mul_le_mul_of_nonneg_right ?_ h)
  norm_num [precision]

end Near

section Rounded

variable {q r : Rat}

/-- One error of this size moves the nearest rank up by one place at most. -/
theorem rounded_le_succ (hq : 0 < q) (hr : 0 < r) (h : r ≤ (1 + precision) * q) :
    rounded r ≤ rounded q + 1 := by
  have hMiddle := two_mul_le_rounded hq
  have hGap := gap_pos (rounded q)
  have hGrow := gap_mono (Nat.le_succ (rounded q))
  have hMost := magnitude_succ_le (rounded q)
  refine rounded_le hr ?_
  have hNext := magnitude_succ (rounded q)
  rw [magnitude_succ (rounded q + 1)]
  generalize magnitude (rounded q + 1) = next at *
  generalize gap (rounded q) = step at *
  have hError : precision * (2 * q) < 2 * step := by
    have hTwice : 2 * q < 2 * (2 ^ 53 * step) := by linarith
    calc precision * (2 * q) < precision * (2 * (2 ^ 53 * step)) :=
          mul_lt_mul_of_pos_left hTwice precision_pos
      _ = 2 * step := by
          unfold precision
          ring
  linarith

/-- Above the lowest binade rounding is off by no more than the precision. -/
theorem near_rounded (hq : 0 < q) (hNormal : (2 : Rat) ^ (-1022 : Int) ≤ q) :
    Near (magnitude (rounded q)) q := by
  obtain ⟨step, n, hRank, hMost, hLeast, _, hLow, hAbove, hBelow⟩ := rounded_spec hq
  rw [hRank, magnitude_step hLeast hMost]
  have hUnit := spacing_pos step
  have hLow : 2 ^ 52 * spacing step ≤ q := by
    rcases hLow with rfl | hLow
    · have hSpacing : 2 ^ 52 * spacing 0 = (2 : Rat) ^ (-1022 : Int) := by
        rw [spacing, ← zpow_natCast, ← zpow_add₀ (by norm_num)]
        rfl
      exact hSpacing.trans_le hNormal
    · exact hLow
  have hCount : (2 : Rat) ^ 52 ≤ n := by
    have hTwice : ((2 * 2 ^ 52 : Nat) : Rat) ≤ (2 * n + 1 : Nat) := by
      refine le_of_mul_le_mul_right ?_ hUnit
      push_cast
      linarith
    have hTwice : 2 * 2 ^ 52 ≤ 2 * n + 1 := by exact_mod_cast hTwice
    exact_mod_cast (by omega : 2 ^ 52 ≤ n)
  have hLarge : 2 ^ 52 * spacing step ≤ n * spacing step :=
    mul_le_mul_of_nonneg_right hCount hUnit.le
  refine ⟨?_, ?_⟩ <;> rw [precision] <;> linarith

/-- A whole number below 2 ^ 53, times a power of two, is a magnitude itself. -/
theorem magnitude_rounded (hq : 0 < q) {m : Nat} (hSmall : m < 2 ^ 53) (power : Int)
    (hPower : -1074 ≤ power) (hEq : q = m * 2 ^ power) : magnitude (rounded q) = q := by
  obtain ⟨step, n, hRank, hMost, hLeast, _, hLow, hAbove, hBelow⟩ := rounded_spec hq
  have hUnit := spacing_pos step
  have hStep : (step : Int) - 1074 ≤ power := by
    rcases hLow with rfl | hLow
    · exact hPower
    · have hBinary : (2 : Rat) ^ (52 + ((step : Int) - 1074)) < 2 ^ (53 + power) := by
        rw [zpow_add₀ (by norm_num), zpow_add₀ (by norm_num)]
        calc (2 : Rat) ^ (52 : Int) * 2 ^ ((step : Int) - 1074) ≤ m * 2 ^ power := by
              rw [← hEq]
              exact_mod_cast hLow
          _ < 2 ^ (53 : Int) * 2 ^ power := by
              refine mul_lt_mul_of_pos_right ?_ (by positivity)
              exact_mod_cast hSmall
      have hExponents := (zpow_lt_zpow_iff_right₀ (by norm_num)).mp hBinary
      omega
  obtain ⟨shift, rfl⟩ : ∃ shift : Nat, power = shift + ((step : Int) - 1074) :=
    ⟨(power - ((step : Int) - 1074)).toNat, by omega⟩
  have hMultiple : q = (m * 2 ^ shift : Nat) * spacing step := by
    rw [hEq, zpow_add₀ (by norm_num), spacing, zpow_natCast]
    push_cast
    ring
  rw [hMultiple] at hAbove hBelow
  generalize m * 2 ^ shift = whole at *
  -- Both are whole numbers of spacings, and less than one apart.
  have hUp : ((2 * whole : Nat) : Rat) ≤ (2 * n + 1 : Nat) := by
    refine le_of_mul_le_mul_right ?_ hUnit
    push_cast
    linarith
  have hDown : ((2 * n : Nat) : Rat) ≤ (2 * whole + 1 : Nat) := by
    refine le_of_mul_le_mul_right ?_ hUnit
    push_cast
    linarith
  have hUp : 2 * whole ≤ 2 * n + 1 := by exact_mod_cast hUp
  have hDown : 2 * n ≤ 2 * whole + 1 := by exact_mod_cast hDown
  rw [hRank, magnitude_step hLeast hMost, hMultiple, show n = whole by omega]

/-- What is closer to a magnitude than half of its distance to the others is rounded to
it. -/
theorem rounded_eq_of_close (hq : 0 < q) {rank : Nat} (hRank : 0 < rank)
    (hClose : 2 ^ 54 * |q - magnitude rank| < magnitude rank) : rounded q = rank := by
  obtain ⟨last, rfl⟩ : ∃ last, rank = last + 1 := ⟨rank - 1, by omega⟩
  have hAbove := magnitude_succ_le (last + 1)
  have hBelow := magnitude_succ_le last
  have hNext := magnitude_succ (last + 1)
  have hHere := magnitude_succ last
  have hGap := gap_pos (last + 1)
  have hLeft := neg_le_abs (q - magnitude (last + 1))
  have hRight := le_abs_self (q - magnitude (last + 1))
  refine Nat.le_antisymm (rounded_le hq ?_) (lt_rounded hq ?_) <;> linarith

/-- A magnitude that a double has is rounded to that double. -/
@[simp] theorem rounded_magnitude (rank : Nat) : rounded (magnitude rank) = rank := by
  rcases Nat.eq_zero_or_pos rank with rfl | hRank
  · simp
  · have hPos := magnitude_pos hRank
    exact rounded_eq_of_close hPos hRank (by simpa using hPos)

/-- Magnitudes up to a moderate one are rounded to finite ones, with room above them. -/
theorem rounded_lt_infinity (hq : 0 ≤ q) (hMost : q ≤ moderate) : rounded q + 2 < infinity := by
  rcases hq.eq_or_lt with rfl | hq
  · decide
  · have hTop : magnitude (1274 * binade + 2 * binade) = 2 ^ 253 := by
      rw [magnitude_step (.inr (by decide)) (Nat.le_refl _), spacing, binade_eq]
      norm_num
    have hTopNext := magnitude_strictMono (Nat.lt_succ_self (1274 * binade + 2 * binade))
    have hLe : rounded q ≤ 1274 * binade + 2 * binade := by
      refine rounded_le hq ?_
      rw [Nat.succ_eq_add_one] at hTopNext
      rw [moderate] at hMost
      linarith
    have hInfinity : 1274 * binade + 2 * binade + 2 < infinity := by decide
    omega

/-- Zero, or between these powers of two. -/
def Within (low high : Int) (rank : Nat) : Prop :=
  rank = 0 ∨ (2 : Rat) ^ low ≤ magnitude rank ∧ magnitude rank ≤ 2 ^ high

/-- Rounding leaves a magnitude in its range, up to a binade on either side. -/
theorem within_rounded {low high : Int} (hNormal : -1022 ≤ low) (hLow : (2 : Rat) ^ low ≤ q)
    (hHigh : q ≤ 2 ^ high) : Within (low - 1) (high + 1) (rounded q) := by
  have hq : 0 < q := lt_of_lt_of_le (by positivity) hLow
  have near := near_rounded hq ((zpow_le_zpow_right₀ (by norm_num) hNormal).trans hLow)
  have hBelow := near.symm.le_two_mul (magnitude_nonneg _)
  have hAbove := near.le_two_mul hq.le
  right
  rw [zpow_sub_one₀ (by norm_num), zpow_add_one₀ (by norm_num)]
  constructor <;> linarith

/-- A fraction that is not too large becomes the nearest double, and no infinity. -/
theorem rankOf_eq_rounded {num den : Nat} (hDen : 0 < den) (hMost : (num : Rat) / den ≤ moderate) :
    rankOf num den = rounded ((num : Rat) / den) := by
  have hFinite := rounded_lt_infinity (by positivity) hMost
  rw [rankOf_eq_min num hDen]
  omega

end Rounded

section Operations

variable (a b : Nat)

theorem fraction_snd_pos : 0 < (fraction a).2 := scaleDown_pos Nat.one_pos _ _

/-- A rank as a fraction is its magnitude. -/
theorem fraction_div : ((fraction a).1 : Rat) / (fraction a).2 = magnitude a := by
  rw [fraction, scaleDown_div, magnitude, Nat.cast_one, div_one, zpow_neg, div_inv_eq_mul]

theorem fraction_fst_pos {a : Nat} (h : 0 < a) : 0 < (fraction a).1 := by
  have hPos := magnitude_pos h
  rw [← fraction_div] at hPos
  by_contra hZero
  simp [Nat.eq_zero_of_not_pos hZero] at hPos

/-- A product that is not too large is the exact one, rounded. -/
theorem mulRank_eq (hMost : magnitude a * magnitude b ≤ moderate) :
    mulRank a b = rounded (magnitude a * magnitude b) := by
  have hDen := Nat.mul_pos (fraction_snd_pos a) (fraction_snd_pos b)
  have hDiv : (((fraction a).1 * (fraction b).1 : Nat) : Rat) /
      ((fraction a).2 * (fraction b).2 : Nat) = magnitude a * magnitude b := by
    rw [← fraction_div, ← fraction_div]
    push_cast
    exact mul_div_mul_comm _ _ _ _
  rw [← hDiv] at hMost ⊢
  exact rankOf_eq_rounded hDen hMost

/-- A quotient that is not too large is the exact one, rounded. -/
theorem divRank_eq {b : Nat} (hb : 0 < b) (hMost : magnitude a / magnitude b ≤ moderate) :
    divRank a b = rounded (magnitude a / magnitude b) := by
  have hDen := Nat.mul_pos (fraction_snd_pos a) (fraction_fst_pos hb)
  have hDiv : (((fraction a).1 * (fraction b).2 : Nat) : Rat) /
      ((fraction a).2 * (fraction b).1 : Nat) = magnitude a / magnitude b := by
    rw [← fraction_div, ← fraction_div, div_div_div_eq]
    push_cast
    rfl
  rw [← hDiv] at hMost ⊢
  exact rankOf_eq_rounded hDen hMost

/-- A sum that is not too large is the exact one, rounded. -/
theorem addRank_eq (hMost : magnitude a + magnitude b ≤ moderate) :
    addRank a b = rounded (magnitude a + magnitude b) := by
  have hDen := Nat.mul_pos (fraction_snd_pos a) (fraction_snd_pos b)
  have hDiv : (((fraction a).1 * (fraction b).2 + (fraction b).1 * (fraction a).2 : Nat) : Rat) /
      ((fraction a).2 * (fraction b).2 : Nat) = magnitude a + magnitude b := by
    have hFirst : ((fraction a).2 : Rat) ≠ 0 := by exact_mod_cast (fraction_snd_pos a).ne'
    have hSecond : ((fraction b).2 : Rat) ≠ 0 := by exact_mod_cast (fraction_snd_pos b).ne'
    rw [← fraction_div, ← fraction_div, div_add_div _ _ hFirst hSecond]
    push_cast
    ring
  rw [← hDiv] at hMost ⊢
  exact rankOf_eq_rounded hDen hMost

end Operations

end HexFilter.Binary64
