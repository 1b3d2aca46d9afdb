import HexFilter.Binary64
import Mathlib.Algebra.Order.Field.Power
import Mathlib.Data.Rat.Cast.Order
import Mathlib.Tactic.FieldSimp
import Mathlib.Tactic.Linarith
import Mathlib.Tactic.NormNum
import Mathlib.Tactic.Positivity
import Mathlib.Tactic.Ring

/-! The magnitudes of all ranks as rational numbers. From one rank to the next
the magnitude grows by a power of two, which never shrinks and is never small
against the magnitude itself. -/
namespace HexFilter.Binary64

theorem binade_eq : binade = 4503599627370496 := rfl

/-- The magnitude of a rank, with the powers of two going on beyond the finite
ones. -/
def magnitude (rank : Nat) : Rat := significand rank * 2 ^ exponent rank

/-- The distance of the magnitudes of a binade from each other. The first two
binades have the same. -/
def spacing (step : Nat) : Rat := 2 ^ ((step : Int) - 1074)

/-- How far the next magnitude is. -/
def gap (rank : Nat) : Rat := spacing (rank / binade - 1)

theorem spacing_pos (step : Nat) : 0 < spacing step := zpow_pos (by norm_num) _

/-- The doubles lie farther apart the larger they are. -/
theorem spacing_mono {first second : Nat} (h : first ≤ second) : spacing first ≤ spacing second :=
  zpow_le_zpow_right₀ (by norm_num) (by omega)

/-- The magnitudes of a binade are the multiples of its spacing, and so is the one
that follows them. -/
theorem magnitude_step {step n : Nat} (hLow : step = 0 ∨ binade ≤ n) (hHigh : n ≤ 2 * binade) :
    magnitude (step * binade + n) = n * spacing step := by
  rw [binade_eq] at hLow hHigh
  rcases Nat.lt_or_ge n 4503599627370496 with hSmall | hLarge
  · obtain rfl : step = 0 := hLow.resolve_right (Nat.not_le.mpr hSmall)
    have hSignificand : significand (0 * binade + n) = n := by
      simp [significand, binade_eq, hSmall]
    have hExponent : exponent (0 * binade + n) = (0 : Nat) - 1074 := by
      simp only [exponent, binade_eq]
      omega
    rw [magnitude, hSignificand, hExponent, spacing]
  · rcases Nat.lt_or_eq_of_le hHigh with hBelow | rfl
    · have hSignificand : significand (step * binade + n) = n := by
        rw [significand, binade_eq, if_neg (by omega)]
        omega
      have hExponent : exponent (step * binade + n) = (step : Int) - 1074 := by
        simp only [exponent, binade_eq]
        omega
      rw [magnitude, hSignificand, hExponent, spacing]
    · have hSignificand :
          significand (step * binade + 2 * 4503599627370496) = 4503599627370496 := by
        rw [significand, binade_eq, if_neg (by omega)]
        omega
      have hExponent : exponent (step * binade + 2 * 4503599627370496) =
          ((step : Int) - 1074) + 1 := by
        simp only [exponent, binade_eq]
        omega
      rw [magnitude, hSignificand, hExponent, spacing, zpow_add_one₀ (by norm_num)]
      push_cast
      ring

/-- Where a rank stands in its binade. -/
theorem exists_step (rank : Nat) : ∃ n, rank = (rank / binade - 1) * binade + n ∧
    (rank / binade - 1 = 0 ∨ binade ≤ n) ∧ n < 2 * binade := by
  refine ⟨rank - (rank / binade - 1) * binade, ?_⟩
  rw [binade_eq]
  omega

/-- A magnitude and the next one are multiples of the gap between them that follow each
other. -/
theorem exists_multiple (rank : Nat) : ∃ n < 2 * binade, magnitude rank = n * gap rank ∧
    magnitude (rank + 1) = (n + 1 : Nat) * gap rank := by
  obtain ⟨n, hRank, hLow, hHigh⟩ := exists_step rank
  refine ⟨n, hHigh, ?_, ?_⟩
  · conv_lhs => rw [hRank]
    exact magnitude_step hLow hHigh.le
  · conv_lhs => rw [hRank, Nat.add_assoc]
    exact magnitude_step (hLow.imp_right fun h => h.trans (Nat.le_succ n)) hHigh

theorem magnitude_succ (rank : Nat) : magnitude (rank + 1) = magnitude rank + gap rank := by
  obtain ⟨n, _, hHere, hNext⟩ := exists_multiple rank
  rw [hNext, hHere]
  push_cast
  ring

theorem gap_pos (rank : Nat) : 0 < gap rank := spacing_pos _

/-- Gaps do not get smaller. -/
theorem gap_mono {first second : Nat} (h : first ≤ second) : gap first ≤ gap second :=
  spacing_mono (Nat.sub_le_sub_right (Nat.div_le_div_right h) 1)

/-- A magnitude has no more than 53 binary digits. -/
theorem magnitude_succ_le (rank : Nat) : magnitude (rank + 1) ≤ 2 ^ 53 * gap rank := by
  obtain ⟨n, hHigh, _, hNext⟩ := exists_multiple rank
  have hCount : ((n + 1 : Nat) : Rat) ≤ 2 ^ 53 := by
    rw [binade_eq] at hHigh
    exact_mod_cast hHigh
  rw [hNext]
  exact mul_le_mul_of_nonneg_right hCount (gap_pos rank).le

/-- Ranks are in the order of the magnitudes. -/
theorem magnitude_strictMono : StrictMono magnitude := by
  refine strictMono_nat_of_lt_succ fun rank => ?_
  rw [magnitude_succ]
  exact lt_add_of_pos_right _ (gap_pos rank)

@[simp] theorem magnitude_zero : magnitude 0 = 0 := by simp [magnitude, significand, binade_eq]

theorem magnitude_pos {rank : Nat} (h : 0 < rank) : 0 < magnitude rank := by
  have hLess := magnitude_strictMono h
  rwa [magnitude_zero] at hLess

theorem magnitude_nonneg (rank : Nat) : 0 ≤ magnitude rank := by
  rw [← magnitude_zero]
  exact magnitude_strictMono.monotone (Nat.zero_le rank)

end HexFilter.Binary64
