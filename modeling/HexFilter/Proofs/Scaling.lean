import HexFilter.Json.Numeral
import HexFilter.Proofs.Precision

/-! What a numeral is read as. Its digits and its power of ten are rounded before they
are put together, and each of these roundings takes the result one place away from
the nearest number at most. -/
namespace HexFilter

namespace Binary64

/-- Ranks that are no more than so many places away from each other. -/
structure Apart (places a b : Nat) : Prop where
  le_left : a ≤ b + places
  le_right : b ≤ a + places

theorem Apart.refl (a : Nat) : Apart 0 a a := ⟨Nat.le_refl a, Nat.le_refl a⟩

/-- Ranks no place apart are the same. -/
theorem Apart.eq {a b : Nat} (apart : Apart 0 a b) : a = b :=
  Nat.le_antisymm apart.le_left apart.le_right

theorem Apart.trans {places places' a b c : Nat} (first : Apart places a b)
    (second : Apart places' b c) : Apart (places + places') a c := by
  obtain ⟨hLeft, hRight⟩ := first
  obtain ⟨hLeft', hRight'⟩ := second
  constructor <;> omega

/-- What one rounding changes moves the nearest rank by one place at most, and what an
exact one leaves does not move it. -/
theorem apart_rounded {x y : Rat} {exact : Prop} [Decidable exact] (hx : 0 < x) (near : Near x y)
    (hExact : exact → x = y) : Apart (if exact then 0 else 1) (rounded x) (rounded y) := by
  have hy := near.pos hx
  split
  · rename_i h
    rw [hExact h]
    exact .refl _
  · exact ⟨rounded_le_succ hy hx near.le_left, rounded_le_succ hx hy near.le_right⟩

/-- Two roundings do not make a magnitude too large. -/
theorem le_moderate_of_near {x y z : Rat} (hz : 0 ≤ z) (first : Near x y) (second : Near y z)
    (hMost : z ≤ 2 ^ 190) : x ≤ moderate := by
  have hSecond := second.le_two_mul hz
  have hFirst := first.le_two_mul (second.symm.nonneg hz)
  rw [moderate]
  linarith

section Naturals

variable {n : Nat}

/-- A number that is not too large becomes the nearest double. -/
theorem rankOf_natural (hMost : (n : Rat) ≤ moderate) : rankOf n 1 = rounded n := by
  have hDiv : (n : Rat) / (1 : Nat) = n := by simp
  rw [← hDiv] at hMost
  rw [rankOf_eq_rounded Nat.one_pos hMost, hDiv]

/-- A number that is not too large is off by one rounding at most. -/
theorem near_natural (hPos : 0 < n) (hMost : (n : Rat) ≤ moderate) :
    Near (magnitude (rankOf n 1)) n := by
  have hRat : (0 : Rat) < n := by exact_mod_cast hPos
  have hOne : (1 : Rat) ≤ n := by exact_mod_cast hPos
  rw [rankOf_natural hMost]
  refine near_rounded hRat (le_trans ?_ hOne)
  exact zpow_le_one_of_nonpos₀ (by norm_num) (by decide)

theorem magnitude_natural_pos (hPos : 0 < n) (hMost : (n : Rat) ≤ moderate) :
    0 < magnitude (rankOf n 1) :=
  (near_natural hPos hMost).symm.pos (by exact_mod_cast hPos)

theorem rankOf_natural_pos (hPos : 0 < n) (hMost : (n : Rat) ≤ moderate) : 0 < rankOf n 1 := by
  have hMagnitude := magnitude_natural_pos hPos hMost
  by_contra hZero
  rw [Nat.eq_zero_of_not_pos hZero, magnitude_zero] at hMagnitude
  exact lt_irrefl _ hMagnitude

/-- A whole number that needs no more than 53 binary digits is not rounded. -/
theorem magnitude_natural {m : Nat} (shift : Nat) (hPos : 0 < n) (hMost : (n : Rat) ≤ moderate)
    (hSmall : m < 2 ^ 53) (hEq : n = m * 2 ^ shift) : magnitude (rankOf n 1) = n := by
  rw [rankOf_natural hMost]
  refine magnitude_rounded (by exact_mod_cast hPos) hSmall shift (by omega) ?_
  rw [hEq, zpow_natCast]
  push_cast
  rfl

end Naturals

end Binary64

namespace Json.Numeral

open Binary64

theorem powerOfTen_le {power : Nat} (h : power ≤ 60) : ((10 ^ power : Nat) : Rat) ≤ moderate := by
  have hLe : 10 ^ power ≤ 10 ^ 60 := Nat.pow_le_pow_right (by decide) h
  calc ((10 ^ power : Nat) : Rat) ≤ (10 ^ 60 : Nat) := by exact_mod_cast hLe
    _ ≤ moderate := by norm_num [moderate]

/-- A power of ten that needs no more than 53 binary digits is not rounded. -/
theorem magnitude_powerOfTen {power : Nat} (h : power ≤ 22) :
    magnitude (powerOfTen power) = 10 ^ power := by
  have hSmall : 5 ^ power < 2 ^ 53 :=
    (Nat.pow_le_pow_right (by decide) h).trans_lt (by decide)
  have hEq : 10 ^ power = 5 ^ power * 2 ^ power := by rw [← Nat.mul_pow]
  have hPower :=
    magnitude_natural power (Nat.pow_pos (by decide)) (powerOfTen_le (by omega)) hSmall hEq
  exact hPower.trans (by push_cast; rfl)

/-- A power of ten that comes up is off by one rounding at most. -/
theorem near_powerOfTen {power : Nat} (h : power ≤ 60) :
    Near (magnitude (powerOfTen power)) (10 ^ power) := by
  have near := near_natural (Nat.pow_pos (n := power) (by decide : 0 < 10)) (powerOfTen_le h)
  push_cast at near
  exact near

theorem powerOfTen_pos {power : Nat} (h : power ≤ 60) : 0 < powerOfTen power :=
  rankOf_natural_pos (Nat.pow_pos (by decide)) (powerOfTen_le h)

section Scaled

variable {rank : Nat} {power : Int} (hPower : power.natAbs ≤ 60)

include hPower

/-- A power of ten that is not small takes one division. -/
theorem scale_of_neg (hDown : power < 0)
    (hLe : magnitude rank / magnitude (powerOfTen power.natAbs) ≤ moderate) :
    scale rank power =
      some (rounded (magnitude rank / magnitude (powerOfTen power.natAbs))) := by
  have hTimes : (power.natAbs - 1) / maxPower = 0 := by
    refine Nat.div_eq_of_lt ?_
    simp only [maxPower]
    omega
  rw [scale, if_pos hDown, reduce, hTimes, Nat.zero_mul, Nat.sub_zero, shrink,
    divRank_eq _ (powerOfTen_pos hPower) hLe]

/-- One that is not large takes one multiplication. -/
theorem scale_of_nonneg (hUp : 0 ≤ power) (hRank : 0 < rank)
    (hLe : magnitude rank * magnitude (powerOfTen power.natAbs) ≤ moderate) :
    scale rank power =
      some (rounded (magnitude rank * magnitude (powerOfTen power.natAbs))) := by
  have hFinite := rounded_lt_infinity
    (mul_nonneg (magnitude_nonneg rank) (magnitude_nonneg _)) hLe
  have hPowers : ¬ maxPower < power.natAbs := by
    simp only [maxPower]
    omega
  rw [scale, if_neg (not_lt.mpr hUp), enlarge, if_neg hRank.ne', if_neg hPowers,
    mulRank_eq _ _ hLe]
  exact if_pos (by omega)

end Scaled

/-- How many roundings come before the last one, those left out that are exact for
certain. -/
def roundings (digits : Nat) (power : Int) : Nat :=
  (if digits < 2 ^ 53 then 0 else 1) + if power.natAbs ≤ 22 then 0 else 1

/-- Digits in a word, scaled by a power of ten, are read as a finite number, one place
away from the nearest for each rounding at most. -/
theorem scale_apart {digits : Nat} {power : Int} (hPos : 0 < digits)
    (hWord : digits < wordLimit) (hPower : power.natAbs ≤ 60)
    (hMost : (digits : Rat) * 10 ^ power ≤ 2 ^ 190) :
    ∃ rank, scale (rankOf digits 1) power = some rank ∧ rank < infinity ∧
      Apart (roundings digits power) rank (rounded (digits * 10 ^ power)) := by
  have hDigits : (digits : Rat) ≤ moderate := by
    calc (digits : Rat) ≤ (wordLimit : Nat) := by exact_mod_cast hWord.le
      _ ≤ moderate := by norm_num [moderate, wordLimit]
  have hDigitsRat : (0 : Rat) < digits := by exact_mod_cast hPos
  have hA := magnitude_natural_pos hPos hDigits
  have hT := magnitude_pos (powerOfTen_pos hPower)
  have nearA := near_natural hPos hDigits
  have nearT := near_powerOfTen hPower
  have exactA (hSmall : digits < 2 ^ 53) : magnitude (rankOf digits 1) = digits :=
    magnitude_natural 0 hPos hDigits hSmall (by simp)
  -- The digits are rounded first, and then the power of ten.
  rcases lt_or_ge power 0 with hDown | hUp
  · have hPowerEq : (digits : Rat) * 10 ^ power = digits / 10 ^ power.natAbs := by
      rw [div_eq_mul_inv, ← zpow_natCast, ← zpow_neg]
      congr 2
      omega
    rw [hPowerEq] at hMost ⊢
    have first := nearA.div_right hT.le
    have second := nearT.div_left hT hDigitsRat.le
    have hLe := le_moderate_of_near (by positivity) first second hMost
    have hFinite := rounded_lt_infinity (div_nonneg hA.le hT.le) hLe
    refine ⟨_, scale_of_neg hPower hDown hLe, by omega,
      (apart_rounded (div_pos hA hT) first fun hSmall => ?_).trans
        (apart_rounded (div_pos hDigitsRat hT) second fun hSmall => ?_)⟩
    · rw [exactA hSmall]
    · rw [magnitude_powerOfTen hSmall]
  · have hPowerEq : (digits : Rat) * 10 ^ power = digits * 10 ^ power.natAbs := by
      rw [← zpow_natCast]
      congr 2
      omega
    rw [hPowerEq] at hMost ⊢
    have first := nearA.mul_right hT.le
    have second := nearT.mul_left hDigitsRat.le
    have hLe := le_moderate_of_near (by positivity) first second hMost
    have hFinite := rounded_lt_infinity (mul_nonneg hA.le hT.le) hLe
    refine ⟨_, scale_of_nonneg hPower hUp (rankOf_natural_pos hPos hDigits) hLe, by omega,
      (apart_rounded (mul_pos hA hT) first fun hSmall => ?_).trans
        (apart_rounded (mul_pos hDigitsRat hT) second fun hSmall => ?_)⟩
    · rw [exactA hSmall]
    · rw [magnitude_powerOfTen hSmall]

end Json.Numeral

end HexFilter
