import HexFilter.Proofs.Additions
import HexFilter.Proofs.Figures
import HexFilter.Summary

/-! The ratios of a summary. They are quotients of counts and times that are rounded
first, and so they are zero, or neither very small nor very large. -/
namespace HexFilter

namespace Binary64

section Ranges

variable {low high low' high' : Int} {a b : Nat}

theorem Within.mono (within : Within low high a) (hLow : low' ≤ low) (hHigh : high ≤ high') :
    Within low' high' a :=
  within.imp_right fun ⟨hBelow, hAbove⟩ =>
    ⟨(zpow_le_zpow_right₀ (by norm_num) hLow).trans hBelow,
      hAbove.trans (zpow_le_zpow_right₀ (by norm_num) hHigh)⟩

/-- A whole number of so many bits. -/
theorem within_natural {n : Nat} (bits : Nat) (hBits : bits ≤ 199) (hn : n ≤ 2 ^ bits) :
    Within (-1) (bits + 1) (rankOf n 1) := by
  have hMost : (n : Rat) ≤ 2 ^ (bits : Int) := by
    rw [zpow_natCast]
    exact_mod_cast hn
  have hModerate : (n : Rat) ≤ moderate := by
    refine hMost.trans ?_
    rw [zpow_natCast, moderate]
    exact pow_le_pow_right₀ (by norm_num) (by omega)
  rw [rankOf_natural hModerate]
  rcases Nat.eq_zero_or_pos n with rfl | hPos
  · exact .inl (by simp)
  · have hOne : (2 : Rat) ^ (0 : Int) ≤ n := by exact_mod_cast hPos
    exact within_rounded (by decide) hOne hMost

theorem zpow_le_moderate {power : Int} (h : power ≤ 200) : (2 : Rat) ^ power ≤ moderate := by
  rw [moderate, ← zpow_natCast]
  exact zpow_le_zpow_right₀ (by norm_num) h

theorem Within.magnitude_le (within : Within low high a) : magnitude a ≤ 2 ^ high := by
  rcases within with rfl | ⟨_, hAbove⟩
  · rw [magnitude_zero]
    positivity
  · exact hAbove

theorem Within.le_magnitude (within : Within low high a) (ha : a ≠ 0) : 2 ^ low ≤ magnitude a :=
  (within.resolve_left ha).1

/-- The range of a quotient, a binade wider on either side for its rounding. -/
theorem Within.div (first : Within low high a) (second : Within low' high' b) (hb : b ≠ 0)
    (hLow : -1022 ≤ low - high') (hHigh : high - low' ≤ 200) :
    Within (low - high' - 1) (high - low' + 1) (divRank a b) := by
  have hPos := magnitude_pos (Nat.pos_of_ne_zero hb)
  have hMost : magnitude a / magnitude b ≤ 2 ^ (high - low') := by
    rw [zpow_sub₀ (by norm_num)]
    exact div_le_div₀ (by positivity) first.magnitude_le (by positivity) (second.le_magnitude hb)
  rw [divRank_eq _ (Nat.pos_of_ne_zero hb) (hMost.trans (zpow_le_moderate hHigh))]
  by_cases ha : a = 0
  · exact .inl (by simp [ha])
  · have hLeast : (2 : Rat) ^ (low - high') ≤ magnitude a / magnitude b := by
      rw [zpow_sub₀ (by norm_num)]
      exact div_le_div₀ (magnitude_nonneg a) (first.le_magnitude ha) hPos second.magnitude_le
    exact within_rounded hLow hLeast hMost

/-- The range of a sum, wider by what adding and rounding may bring. -/
theorem Within.add (first : Within low high a) (second : Within low high b)
    (hLow : -1022 ≤ low) (hHigh : high ≤ 199) :
    Within (low - 1) (high + 2) (addRank a b) := by
  have hMost : magnitude a + magnitude b ≤ 2 ^ (high + 1) := by
    rw [zpow_add_one₀ (by norm_num)]
    linarith [first.magnitude_le, second.magnitude_le]
  have hLeft := magnitude_nonneg a
  have hRight := magnitude_nonneg b
  rw [addRank_eq _ _ (hMost.trans (zpow_le_moderate (by omega)))]
  by_cases hZero : a = 0 ∧ b = 0
  · exact .inl (by simp [hZero.1, hZero.2])
  · have hLeast : (2 : Rat) ^ low ≤ magnitude a + magnitude b := by
      rcases not_and_or.mp hZero with ha | hb
      · linarith [first.le_magnitude ha]
      · linarith [second.le_magnitude hb]
    exact (within_rounded hLow hLeast hMost).mono (Int.le_refl _) (by omega)

end Ranges

end Binary64

open Binary64

/-- The count of a word. -/
theorem within_word {n : Nat} (hn : n < UInt64.size) : Within (-1) 65 (ofNat n).rank :=
  within_natural 64 (by decide) hn.le

/-- A duration that is not zero is a nanosecond at least, and none is longer than the
longest one. -/
theorem Duration.within_toSeconds (d : Duration) : Within (-34) 67 d.toSeconds.rank := by
  have hSecs := within_word d.secs_lt
  have hNanos : Within (-1) 31 (ofNat d.subsecNanos).rank :=
    within_natural 30 (by decide) (d.subsecNanos_lt.le.trans (by decide))
  have hSecond : Within (-1) 31 (ofNat second).rank :=
    within_natural 30 (by decide) (by decide : second ≤ 2 ^ 30)
  have hRank : d.toSeconds.rank = addRank (ofNat d.secs).rank
      (divRank (ofNat d.subsecNanos).rank (ofNat second).rank) := rfl
  have hRest := hNanos.div hSecond (by decide +kernel) (by decide) (by decide)
  have hWhole : Within (-33) 65 (ofNat d.secs).rank := hSecs.mono (by decide) (by decide)
  rw [hRank]
  exact (hWhole.add (hRest.mono (by decide) (by decide)) (by decide) (by decide)).mono
    (by decide) (by decide)

namespace Summary

variable {low high low' high' : Int} {x y : Binary64}

/-- The range of a ratio, which is zero where the divisor is. -/
theorem within_ratio (first : Within low high x.rank) (second : Within low' high' y.rank)
    (hLow : -1022 ≤ low - high') (hHigh : high - low' ≤ 200) :
    Within (low - high' - 1) (high - low' + 1) (ratio x y).rank := by
  unfold ratio
  split
  · exact .inl rfl
  · rename_i hy
    exact first.div second hy hLow hHigh

/-- A ratio of two numbers that are not negative is not negative. -/
theorem ratio_negative (x y : Binary64) : (ratio x y).negative = false := by
  unfold ratio
  split <;> rfl

variable (mode : Mode) (tally : Tally) (watch : Stopwatch) (now : Duration)

/-- The ratio of two counts is not out of the ordinary. -/
theorem ordinary_expansionRatio : Ordinary (Summary.of mode tally watch now).expansionRatio.rank :=
  (within_ratio (within_word tally.bytesOut.toNat_lt) (within_word tally.bytesIn.toNat_lt)
    (by decide) (by decide)).mono (by decide) (by decide)

theorem ordinary_throughput : Ordinary (Summary.of mode tally watch now).throughput.rank :=
  (within_ratio (within_word tally.bytesIn.toNat_lt) (watch.elapsed now).within_toSeconds
    (by decide) (by decide)).mono (by decide) (by decide)

end Summary

end HexFilter
