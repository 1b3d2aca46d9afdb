import HexFilter.Proofs.Scaling
import HexFilter.Proofs.Shortest
import HexFilter.Proofs.Spelling

/-! Doubles as they are written, in front of a reader. The figures spell the shortest
decimal, so they are read as a number close to the one that was written. -/
namespace HexFilter

open Json Json.Spelling
open Json.Reader (values natural_ne_nil isDigit_of_mem_natural eq_zero_of_head?_values)

namespace Decimal

/-- The decimal that the figures spell with the point left out. A whole number that is
written in full has a zero behind the point. -/
def spelled (layout : Layout) (d : Decimal) : Decimal :=
  let leading := d.power + (width d.digits - 1 : Nat)
  if layout.smallest ≤ leading ∧ leading ≤ layout.largest ∧ 0 ≤ leading ∧ 0 ≤ d.power then
    ⟨d.digits * 10 ^ (d.power.toNat + 1), -1⟩
  else d

/-- A decimal is spelled with a zero behind the point where it is a whole number that
is not too large, and else with its own digits. -/
theorem spelled_cases (layout : Layout) (d : Decimal) :
    (0 ≤ d.power ∧ d.power + (width d.digits - 1 : Nat) ≤ layout.largest ∧
      d.spelled layout = ⟨d.digits * 10 ^ (d.power.toNat + 1), -1⟩) ∨ d.spelled layout = d := by
  unfold spelled
  dsimp only
  split
  · rename_i h
    exact .inl ⟨h.2.2.2, h.2.1, rfl⟩
  · exact .inr rfl

/-- How a decimal is spelled does not change its magnitude. -/
theorem magnitude_spelled (layout : Layout) (d : Decimal) :
    (d.spelled layout).magnitude = d.magnitude := by
  rcases d.spelled_cases layout with ⟨hWhole, _, hSpelled⟩ | hSpelled
  · have hPower : d.power = ((d.power.toNat + 1 : Nat) : Int) + -1 := by omega
    conv_rhs => rw [magnitude, hPower, zpow_add₀ (by norm_num), zpow_natCast]
    rw [hSpelled, magnitude]
    push_cast
    ring
  · rw [hSpelled]

section Layouts

variable {n : Nat} {leading : Int}

theorem length_natural (n : Nat) : (natural n).length = width n := rfl

theorem values_append (first second : List Char) :
    values (first ++ second) = values first ++ values second := List.map_append

theorem isDigit_of_mem_zeros {count : Nat} {c : Char} (h : c ∈ List.replicate count '0') :
    c.isDigit := by
  rw [List.eq_of_mem_replicate h]
  rfl

/-- A number above zero does not start with a zero. -/
theorem head?_values_natural (hn : 0 < n) (rest : List Nat) :
    (values (natural n) ++ rest).head? ≠ some 0 := by
  have hSome : values (natural n) ≠ [] := by simp [values, natural_ne_nil]
  rw [List.head?_append_of_ne_nil _ hSome]
  exact fun h => hn.ne' (eq_zero_of_head?_values h)

/-- The figures of a number below one. -/
theorem positional_below (n : Nat) (hLeading : leading < 0) :
    let s : Spelling := ⟨['0'], some (List.replicate (-leading - 1).toNat '0' ++ natural n), none⟩
    positional (natural n) leading = s.text ∧ s.IsDouble ∧ s.digits = n ∧
      s.power = leading - (width n - 1 : Nat) := by
  have hWidth := width_pos n
  refine ⟨?_, ?_, ?_, ?_⟩
  · simp [positional, hLeading, text, fractionText, exponentText]
  · refine ⟨List.cons_ne_nil _ _, by simp, fun _ => rfl, by simp [natural_ne_nil], ?_, .inl rfl⟩
    intro c hc
    rcases List.mem_append.mp hc with hZeros | hDigits
    · exact isDigit_of_mem_zeros hZeros
    · exact isDigit_of_mem_natural hDigits
  · have hZero : spell 0 (values ['0']) = 0 := rfl
    simp only [Spelling.digits, Option.getD_some, values_append, spell_append, spell_zeros, hZero,
      Nat.zero_mul, spell_natural]
  · simp only [Spelling.power, Option.getD_none, Option.getD_some, List.length_append,
      List.length_replicate, length_natural]
    omega

/-- The figures of a whole number that is written in full. -/
theorem positional_whole (hn : 0 < n) (leading : Int) (hWidth : (width n : Int) ≤ leading + 1) :
    let s : Spelling :=
      ⟨natural n ++ List.replicate (leading.toNat + 1 - width n) '0', some ['0'], none⟩
    positional (natural n) leading = s.text ∧ s.IsDouble ∧
      s.digits = n * 10 ^ (leading.toNat + 1 - width n + 1) ∧ s.power = -1 := by
  have hPos := width_pos n
  have hShort : (natural n).length ≤ leading.toNat + 1 := by
    rw [length_natural]
    omega
  refine ⟨?_, ?_, ?_, rfl⟩
  · have hNotBelow : ¬ leading < 0 := by omega
    simp [positional, hNotBelow, List.take_of_length_le hShort, List.drop_of_length_le hShort, text,
      fractionText, exponentText, length_natural]
  · refine ⟨by simp [natural_ne_nil], ?_, ?_, by simp, by simp, .inl rfl⟩
    · intro c hc
      rcases List.mem_append.mp hc with hDigits | hZeros
      · exact isDigit_of_mem_natural hDigits
      · exact isDigit_of_mem_zeros hZeros
    · intro h
      rw [values_append] at h
      exact absurd h (head?_values_natural hn _)
  · have hLast : ∀ value, spell value (values ['0']) = value * 10 := fun _ => rfl
    simp only [Spelling.digits, Option.getD_some, values_append, spell_append, spell_natural,
      spell_zeros, hLast]
    rw [Nat.pow_succ, Nat.mul_assoc]

/-- The figures of a number with a point among its digits. -/
theorem positional_among (hn : 0 < n) (hLeading : 0 ≤ leading) (hWidth : leading + 1 < width n) :
    let s : Spelling := ⟨(natural n).take (leading.toNat + 1),
      some ((natural n).drop (leading.toNat + 1)), none⟩
    positional (natural n) leading = s.text ∧ s.IsDouble ∧ s.digits = n ∧
      s.power = leading - (width n - 1 : Nat) := by
  have hLong : leading.toNat + 1 < (natural n).length := by
    rw [length_natural]
    omega
  have hSome : (natural n).drop (leading.toNat + 1) ≠ [] := by
    rw [Ne, List.drop_eq_nil_iff]
    omega
  refine ⟨?_, ?_, ?_, ?_⟩
  · have hNoZeros : leading.toNat + 1 - width n = 0 := by omega
    have hSomeBool : ((natural n).drop (leading.toNat + 1)).isEmpty = false := by
      simpa using hSome
    simp only [positional, if_neg (not_lt.mpr hLeading), length_natural, hNoZeros,
      List.replicate_zero, List.append_nil, hSomeBool, Bool.false_eq_true, if_false, text,
      fractionText, exponentText]
    simp
  · refine ⟨by simp [natural_ne_nil], ?_, ?_, by simpa using hSome, ?_, .inl rfl⟩
    · exact fun c hc => isDigit_of_mem_natural (List.mem_of_mem_take hc)
    · intro h
      have hHead : (values (natural n) ++ []).head? = some 0 := by
        rw [List.append_nil, ← h, values, values, List.map_take, List.head?_take,
          if_neg (Nat.succ_ne_zero _)]
      exact absurd hHead (head?_values_natural hn _)
    · exact fun c hc => isDigit_of_mem_natural (List.mem_of_mem_drop hc)
  · simp only [Spelling.digits, Option.getD_some, List.take_append_drop, spell_natural]
  · simp only [Spelling.power, Option.getD_none, Option.getD_some, List.length_drop, length_natural]
    omega

/-- The figures with the power of ten behind them. -/
theorem scientific_spelling (n : Nat) (leading : Int) :
    let fraction := (natural n).drop 1
    let s : Spelling := ⟨(natural n).take 1, if fraction.isEmpty then none else some fraction,
      some leading⟩
    scientific (natural n) leading = s.text ∧ s.IsDouble ∧ s.digits = n ∧
      s.power = leading - (width n - 1 : Nat) := by
  have hPos := width_pos n
  obtain ⟨c, cs, hCons⟩ := List.exists_cons_of_ne_nil (natural_ne_nil n)
  have hDigits : ∀ d ∈ c :: cs, d.isDigit := fun d hd => isDigit_of_mem_natural (hCons ▸ hd)
  have hSpell : spell 0 (values (c :: cs)) = n := by rw [← hCons, spell_natural]
  have hLength : cs.length + 1 = width n := by rw [← length_natural, hCons, List.length_cons]
  rw [hCons]
  simp only [List.take_succ_cons, List.take_zero, List.drop_succ_cons, List.drop_zero]
  cases cs with
  | nil =>
    refine ⟨?_, ?_, ?_, ?_⟩
    · simp [scientific, text, fractionText, exponentText, natural]
    · exact ⟨by simp, by simpa using hDigits, fun _ => rfl, by simp, by simp, .inr rfl⟩
    · simpa [Spelling.digits] using hSpell
    · simp only [List.length_nil] at hLength
      simp [Spelling.power, ← hLength]
  | cons d ds =>
    refine ⟨?_, ?_, ?_, ?_⟩
    · simp [scientific, text, fractionText, exponentText, natural]
    · rw [List.forall_mem_cons] at hDigits
      exact ⟨by simp, by simpa using hDigits.1, fun _ => rfl, by simp, hDigits.2, .inl rfl⟩
    · exact hSpell
    · simp only [List.length_cons] at hLength
      simp [Spelling.power, ← hLength]

end Layouts

/-- The figures of a decimal spell it. -/
theorem exists_spelling (layout : Layout) {d : Decimal} (hPos : 0 < d.digits) :
    ∃ s : Spelling, d.figures layout = s.text ∧ s.IsDouble ∧
      s.digits = (d.spelled layout).digits ∧ s.power = (d.spelled layout).power := by
  have hWidth := width_pos d.digits
  have hPower : d.power + (width d.digits - 1 : Nat) - (width d.digits - 1 : Nat) = d.power := by
    omega
  have hFigures : d.figures layout =
      let leading := d.power + (width d.digits - 1 : Nat)
      if layout.smallest ≤ leading ∧ leading ≤ layout.largest then
        positional (natural d.digits) leading
      else scientific (natural d.digits) leading := rfl
  rw [hFigures, spelled]
  generalize hLeading : d.power + (width d.digits - 1 : Nat) = leading at *
  dsimp only
  by_cases hFull : layout.smallest ≤ leading ∧ leading ≤ layout.largest
  · rw [if_pos hFull]
    rcases lt_or_ge leading 0 with hBelow | hAbove
    · obtain ⟨hText, isDouble, hDigits, hLast⟩ := positional_below d.digits hBelow
      rw [if_neg (by omega)]
      exact ⟨_, hText, isDouble, hDigits, hLast.trans hPower⟩
    · rcases lt_or_ge d.power 0 with hPoint | hWhole
      · obtain ⟨hText, isDouble, hDigits, hLast⟩ := positional_among hPos hAbove (by omega)
        rw [if_neg (by omega)]
        exact ⟨_, hText, isDouble, hDigits, hLast.trans hPower⟩
      · obtain ⟨hText, isDouble, hDigits, hLast⟩ := positional_whole hPos leading (by omega)
        have hZeros : leading.toNat + 1 - width d.digits = d.power.toNat := by omega
        rw [if_pos ⟨hFull.1, hFull.2, hAbove, hWhole⟩]
        exact ⟨_, hText, isDouble, hDigits.trans (by rw [hZeros]), hLast⟩
  · obtain ⟨hText, isDouble, hDigits, hLast⟩ := scientific_spelling d.digits leading
    rw [if_neg hFull, if_neg fun h => hFull ⟨h.1, h.2.1⟩]
    exact ⟨_, hText, isDouble, hDigits, hLast.trans hPower⟩

/-- The zero behind the point does not make the digits too many. -/
theorem spelled_digits_le {d : Decimal} (h : d.digits ≤ 10 ^ 17) :
    (d.spelled Json.layout).digits ≤ 10 ^ 17 := by
  rcases d.spelled_cases Json.layout with ⟨hWhole, hLargest, hSpelled⟩ | hSpelled
  · have hWidth := width_pos d.digits
    have hMost : d.power.toNat + 1 + width d.digits ≤ 17 := by
      simp only [Json.layout] at hLargest
      omega
    rw [hSpelled]
    calc d.digits * 10 ^ (d.power.toNat + 1)
        ≤ 10 ^ width d.digits * 10 ^ (d.power.toNat + 1) :=
          Nat.mul_le_mul_right _ (lt_pow_width d.digits).le
      _ = 10 ^ (d.power.toNat + 1 + width d.digits) := by
          rw [← Nat.pow_add, Nat.add_comm]
      _ ≤ 10 ^ 17 := Nat.pow_le_pow_right (by decide) hMost
  · rwa [hSpelled]

theorem spelled_digits_pos {layout : Layout} {d : Decimal} (h : 0 < d.digits) :
    0 < (d.spelled layout).digits := by
  rcases d.spelled_cases layout with ⟨_, _, hSpelled⟩ | hSpelled <;> rw [hSpelled]
  · exact Nat.mul_pos h (Nat.pow_pos (by decide))
  · exact h

/-- A decimal is spelled with its own power of ten, or with one place behind the
point. -/
theorem spelled_power (layout : Layout) (d : Decimal) :
    (d.spelled layout).power = -1 ∨ (d.spelled layout).power = d.power := by
  rcases d.spelled_cases layout with ⟨_, _, hSpelled⟩ | hSpelled <;> rw [hSpelled]
  · exact .inl rfl
  · exact .inr rfl

end Decimal

namespace Binary64

/-- A magnitude that is zero, or neither very small nor very large. -/
abbrev Ordinary (rank : Nat) : Prop := Within (-70) 100 rank

/-- How many roundings a written magnitude takes before the last one, when it is read. -/
def roundings (rank : Nat) : Nat :=
  if rank = 0 then 0
  else
    let d := (Decimal.shortest rank).spelled Json.layout
    Numeral.roundings d.digits d.power

variable {rank : Nat}

/-- What is ordinary is finite. -/
theorem Ordinary.lt_infinity (ordinary : Ordinary rank) : rank < infinity := by
  rcases ordinary with rfl | ⟨_, hHigh⟩
  · decide
  · have hMost : magnitude rank ≤ moderate := hHigh.trans (by norm_num [moderate])
    have hFinite := rounded_lt_infinity (magnitude_nonneg rank) hMost
    rw [rounded_magnitude] at hFinite
    omega

/-- The digits that are written fit into a word, and their power of ten is neither very
small nor very large. -/
theorem spelled_shortest (hLow : (2 : Rat) ^ (-70 : Int) ≤ magnitude rank)
    (hHigh : magnitude rank ≤ 2 ^ (100 : Int)) (hRank : 0 < rank) (hFinite : rank < infinity) :
    let d := (Decimal.shortest rank).spelled Json.layout
    rounded d.magnitude = rank ∧ 0 < d.digits ∧ d.digits ≤ 10 ^ 17 ∧ d.power.natAbs ≤ 60 ∧
      d.magnitude ≤ 2 ^ 190 := by
  obtain ⟨hRound, hPos, hDigits, hLarge, hSmall⟩ := Decimal.shortest_spec hRank hFinite
  have hSpelled := Decimal.spelled_power Json.layout (Decimal.shortest rank)
  have hUp : (10 : Rat) ^ (Decimal.shortest rank).power < 10 ^ (31 : Int) :=
    (hLarge.trans (mul_le_mul_of_nonneg_left hHigh (by norm_num))).trans_lt (by norm_num)
  have hDown : (10 : Rat) ^ (-22 : Int) < 10 ^ (17 + (Decimal.shortest rank).power) := by
    rw [zpow_add₀ (by norm_num)]
    exact (lt_of_lt_of_le (by norm_num) hLow).trans_le (by exact_mod_cast hSmall)
  have hUpPower := (zpow_lt_zpow_iff_right₀ (by norm_num)).mp hUp
  have hDownPower := (zpow_lt_zpow_iff_right₀ (by norm_num)).mp hDown
  have hDigitsRat : ((Decimal.shortest rank).digits : Rat) ≤ 10 ^ 17 := by exact_mod_cast hDigits
  dsimp only
  rw [Decimal.magnitude_spelled]
  refine ⟨hRound, Decimal.spelled_digits_pos hPos, Decimal.spelled_digits_le hDigits, by omega, ?_⟩
  calc (Decimal.shortest rank).magnitude ≤ 10 ^ 17 * 10 ^ (31 : Int) :=
        mul_le_mul hDigitsRat hUp.le (by positivity) (by norm_num)
    _ ≤ 2 ^ 190 := by norm_num

theorem takes_double_zero : Reader.Takes Reader.double (Json.double zero) zero := by
  have isDouble : Spelling.IsDouble ⟨['0'], some ['0'], none⟩ :=
    ⟨by simp, by simp, fun _ => rfl, by simp, by simp, .inl rfl⟩
  have hScale : Numeral.scale (rankOf 0 1) (-1) = some 0 := by decide +kernel
  exact Spelling.takes_double isDouble (by decide) hScale

/-- A written number is read as a finite one, one place away for each rounding at most. -/
theorem Ordinary.exists_takes (ordinary : Ordinary rank) :
    ∃ read, Reader.Takes Reader.double (Json.double ⟨false, rank⟩) ⟨false, read⟩ ∧
      read < infinity ∧ Apart (roundings rank) read rank := by
  have hFinite := ordinary.lt_infinity
  rcases ordinary with rfl | ⟨hLow, hHigh⟩
  · exact ⟨0, takes_double_zero, by decide, .refl 0⟩
  · have hRank : 0 < rank := by
      by_contra hZero
      rw [Nat.eq_zero_of_not_pos hZero, magnitude_zero] at hLow
      norm_num at hLow
    have hText : Json.double ⟨false, rank⟩ = (Decimal.shortest rank).figures Json.layout := by
      simp [Json.double, isFinite, hFinite, Json.figures, figures, hRank.ne']
    obtain ⟨_, hPos, _⟩ := Decimal.shortest_spec hRank hFinite
    obtain ⟨s, hFigures, isDouble, hDigits, hPower⟩ := Decimal.exists_spelling Json.layout hPos
    obtain ⟨hRound, hSpelledPos, hMost, hSmallPower, hModerate⟩ :=
      spelled_shortest hLow hHigh hRank hFinite
    have hWord : ((Decimal.shortest rank).spelled Json.layout).digits < Numeral.wordLimit :=
      hMost.trans_lt (by decide)
    obtain ⟨read, hScale, hReadFinite, apart⟩ :=
      Numeral.scale_apart hSpelledPos hWord hSmallPower hModerate
    rw [Decimal.magnitude] at hRound
    rw [hRound] at apart
    rw [← hDigits] at hWord
    rw [← hDigits, ← hPower] at hScale
    refine ⟨read, ?_, hReadFinite, ?_⟩
    · rw [hText, hFigures]
      exact Spelling.takes_double isDouble hWord hScale
    · rwa [roundings, if_neg hRank.ne']

end Binary64

end HexFilter
