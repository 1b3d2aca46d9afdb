import HexFilter.Proofs.Reading
import Mathlib.Algebra.GroupWithZero.Nat
import Mathlib.Data.List.Induction

/-! Numbers with a point or a power of ten as they stand in a text, in front of a
reader. What counts is the whole number that all the digits spell, the point left
out, and the power of ten that makes up for it. -/
namespace HexFilter.Json

/-- The digits before a point, the digits after it, and the power of ten after both. -/
structure Spelling where
  whole : List Char
  fraction : Option (List Char) := none
  exponent : Option Int := none

namespace Spelling

open Reader

/-- The digits go on with more digits. -/
def spell (start : Nat) (digits : List Nat) : Nat :=
  digits.foldl (fun value digit => value * 10 + digit) start

def fractionText : Option (List Char) → List Char
  | none => []
  | some digits => '.' :: digits

def exponentText : Option Int → List Char
  | none => []
  | some power => 'e' :: (if power < 0 then '-' else '+') :: natural power.natAbs

def text (s : Spelling) : List Char :=
  s.whole ++ (fractionText s.fraction ++ exponentText s.exponent)

/-- The number that all the digits spell. -/
def digits (s : Spelling) : Nat := spell 0 (values (s.whole ++ s.fraction.getD []))

/-- The power of ten of the last digit. -/
def power (s : Spelling) : Int := s.exponent.getD 0 - (s.fraction.getD []).length

/-- A number that can be read, and only as a double. -/
structure IsDouble (s : Spelling) : Prop where
  whole_ne : s.whole ≠ []
  whole_digits : ∀ c ∈ s.whole, c.isDigit
  whole_zero : (values s.whole).head? = some 0 → s.whole.length = 1
  fraction_ne : s.fraction ≠ some []
  fraction_digits : ∀ c ∈ s.fraction.getD [], c.isDigit
  shown : s.fraction.isSome ∨ s.exponent.isSome

section Spelled

theorem spell_append (start : Nat) (first second : List Nat) :
    spell start (first ++ second) = spell (spell start first) second := List.foldl_append

/-- Further digits never make a number smaller. -/
theorem le_spell (start : Nat) (digits : List Nat) : start ≤ spell start digits := by
  induction digits generalizing start with
  | nil => exact Nat.le_refl _
  | cons digit others ih => exact Nat.le_trans (by omega) (ih (start * 10 + digit))

/-- The digits of a number spell it. -/
theorem spell_natural (n : Nat) : spell 0 (values (natural n)) = n := by
  induction n using Nat.strongRecOn with
  | ind n ih =>
    rcases Nat.lt_or_ge n 10 with hBase | hMore
    · rw [natural_of_lt hBase, values_digitChar hBase]
      exact Nat.zero_add n
    · rw [values_natural_of_le hMore, spell_append, ih (n / 10) (by omega)]
      exact Nat.div_add_mod' n 10

/-- Zeros at the end are powers of ten. -/
theorem spell_zeros (start count : Nat) :
    spell start (values (List.replicate count '0')) = start * 10 ^ count := by
  induction count generalizing start with
  | zero => exact (Nat.mul_one start).symm
  | succ count ih =>
    have hNext : spell start (values (List.replicate (count + 1) '0')) =
        spell (start * 10) (values (List.replicate count '0')) := rfl
    rw [hNext, ih, Nat.pow_succ']
    exact Nat.mul_assoc ..

/-- The digits of a fraction are all taken, as long as they fit into a word. -/
theorem takeFraction_eq {start : Nat} {digits : List Nat}
    (hFits : spell start digits < Numeral.wordLimit) :
    Numeral.takeFraction start digits = (spell start digits, digits.length) := by
  induction digits generalizing start with
  | nil => rfl
  | cons digit others ih =>
    have hNext : start * 10 + digit < Numeral.wordLimit :=
      Nat.lt_of_le_of_lt (le_spell (start * 10 + digit) others) hFits
    rw [Numeral.takeFraction, if_pos hNext, ih hFits]
    rfl

/-- The digits of a whole part are all taken, as long as they fit into a word, and
none is left for a power of ten. -/
theorem takeWhole_eq {digits : List Nat} (hFits : spell 0 digits < Numeral.wordLimit) :
    Numeral.takeWhole digits = (spell 0 digits, 0) := by
  induction digits using List.reverseRecOn with
  | nil => rfl
  | append_singleton front digit ih =>
    have hSpell : spell 0 (front ++ [digit]) = spell 0 front * 10 + digit := spell_append ..
    rw [hSpell] at hFits ⊢
    have hFront := ih (by omega)
    rw [Numeral.takeWhole] at hFront
    rw [Numeral.takeWhole, List.foldl_append, hFront]
    exact if_pos ⟨rfl, hFits⟩

end Spelled

section Read

variable {s : Spelling}

theorem undigited_exponentText (exponent : Option Int) {rest : List Char}
    (hRest : Delimited rest) : Undigited (exponentText exponent ++ rest) := by
  cases exponent with
  | none => exact hRest.undigited
  | some power => simp [exponentText, Undigited]

/-- Behind a whole part no digit follows, whether there is a fraction or an exponent
or neither. -/
theorem undigited_fractionText (fraction : Option (List Char)) (exponent : Option Int)
    {rest : List Char} (hRest : Delimited rest) :
    Undigited (fractionText fraction ++ (exponentText exponent ++ rest)) := by
  cases fraction with
  | none => exact undigited_exponentText exponent hRest
  | some digits => simp [fractionText, Undigited]

theorem exponentPart_text (ended : Fault) (exponent : Option Int) {rest : List Char}
    (hRest : Delimited rest) :
    exponentPart ended (exponentText exponent ++ rest) = .ok (exponent, rest) := by
  cases exponent with
  | none => exact exponentPart_delimited ended hRest
  | some power =>
    obtain ⟨size, hSize⟩ : ∃ size : Nat, power.natAbs = size := ⟨_, rfl⟩
    have hDigits := someDigits_append ended (natural_ne_nil size)
      (fun c => isDigit_of_mem_natural) hRest.undigited
    have hValue : exponentSize (values (natural size)) = size := spell_natural size
    rw [exponentText, hSize]
    by_cases hMinus : power < 0
    · have hPower : -(size : Int) = power := by omega
      simp [exponentPart, exponentSign, peek, drop, hMinus, hDigits, hValue, hPower]
    · have hPower : (size : Int) = power := by omega
      simp [exponentPart, exponentSign, peek, drop, hMinus, hDigits, hValue, hPower]

/-- A written fraction is read as its digits, up to the exponent. -/
theorem fractionPart_text (ended : Fault) {fraction : Option (List Char)} (exponent : Option Int)
    (hSome : fraction ≠ some []) (hDigits : ∀ c ∈ fraction.getD [], c.isDigit) {rest : List Char}
    (hRest : Delimited rest) :
    fractionPart ended (fractionText fraction ++ (exponentText exponent ++ rest)) =
      .ok (fraction.map values, exponentText exponent ++ rest) := by
  cases fraction with
  | none =>
    cases exponent with
    | none => exact fractionPart_delimited ended hRest
    | some power => rfl
  | some digits =>
    have hDigits := someDigits_append ended (fun hNil => hSome (congrArg some hNil)) hDigits
      (undigited_exponentText exponent hRest)
    simp [fractionText, fractionPart, peek, drop, hDigits]

/-- The reader finds the three parts of a spelling again. -/
theorem numeral_text (h : s.IsDouble) (ended : Fault) {rest : List Char} (hRest : Delimited rest) :
    numeral ended (s.text ++ rest) =
      .ok (⟨false, values s.whole, s.fraction.map values, s.exponent⟩, rest) := by
  have hText : s.text ++ rest =
      s.whole ++ (fractionText s.fraction ++ (exponentText s.exponent ++ rest)) := by
    simp [text]
  have hSign : minusSign (s.text ++ rest) = .ok (false, s.text ++ rest) := by
    obtain ⟨c, cs, hCons⟩ := List.exists_cons_of_ne_nil h.whole_ne
    have hMinus : c ≠ '-' := by
      rintro rfl
      exact absurd (h.whole_digits '-' (hCons ▸ List.mem_cons_self)) (by decide)
    simp [minusSign, peek, hText, hCons, hMinus]
  have hZero : (values s.whole).head? = some 0 → (values s.whole).length = 1 := by
    simpa [values] using h.whole_zero
  have hWhole := wholePart_append ended h.whole_ne h.whole_digits hZero
    (undigited_fractionText s.fraction s.exponent hRest)
  have hFraction := fractionPart_text ended s.exponent h.fraction_ne h.fraction_digits hRest
  have hExponent := exponentPart_text ended s.exponent hRest
  rw [hText] at hSign ⊢
  simp [numeral, hSign, hWhole, hFraction, hExponent]

/-- What the reader makes of a spelling is its digits, scaled by its power of ten. -/
theorem value_eq (h : s.IsDouble) (hFits : s.digits < Numeral.wordLimit) :
    Numeral.value ⟨false, values s.whole, s.fraction.map values, s.exponent⟩ =
      (Numeral.scale (Binary64.rankOf s.digits 1) s.power).map fun rank =>
        .double ⟨false, rank⟩ := by
  have hSplit : s.digits = spell (spell 0 (values s.whole)) (values (s.fraction.getD [])) := by
    rw [digits, values, List.map_append]
    exact spell_append _ _ _
  have hWhole := takeWhole_eq (Nat.lt_of_le_of_lt (le_spell _ _) (hSplit ▸ hFits))
  have hFraction := takeFraction_eq (hSplit ▸ hFits)
  have hGet : (s.fraction.map values).getD [] = values (s.fraction.getD []) := by
    cases s.fraction <;> rfl
  have hShown : ¬ ((s.fraction.map values).isNone ∧ s.exponent.isNone ∧ 0 = 0) := by
    rintro ⟨hFraction, hExponent, _⟩
    have hNoFraction : s.fraction = none := by simpa using hFraction
    have hNoExponent : s.exponent = none := by simpa using hExponent
    rcases h.shown with hSome | hSome
    · simp [hNoFraction] at hSome
    · simp [hNoExponent] at hSome
  have hPower : ((0 : Nat) : Int) - (values (s.fraction.getD [])).length + s.exponent.getD 0 =
      s.power := by
    simp only [power, values, List.length_map]
    omega
  simp only [Numeral.value, hWhole, hGet, hFraction, ← hSplit, hPower]
  exact if_neg (by simpa using hShown)

/-- A spelled number is read as its scaled digits, wherever a value may end. -/
theorem takes_double (h : s.IsDouble) (hFits : s.digits < Numeral.wordLimit) {rank : Nat}
    (hScale : Numeral.scale (Binary64.rankOf s.digits 1) s.power = some rank) :
    Takes Reader.double s.text ⟨false, rank⟩ := by
  intro rest hRest
  have hNumber : number (s.text ++ rest) = .ok (.double ⟨false, rank⟩, rest) := by
    simp [number, numeral_text h .unfinished hRest, value_eq h hFits, hScale]
  have hAny : anyNumber "f64" (s.text ++ rest) = .ok (.double ⟨false, rank⟩, rest) := by
    obtain ⟨c, cs, hCons⟩ := List.exists_cons_of_ne_nil h.whole_ne
    have hDigit := h.whole_digits c (hCons ▸ List.mem_cons_self)
    have hText : s.text ++ rest =
        c :: (cs ++ (fractionText s.fraction ++ (exponentText s.exponent ++ rest))) := by
      simp [text, hCons]
    rw [hText] at hNumber ⊢
    simp [anyNumber, token_cons _ (isBlank_of_isDigit hDigit), hDigit, hNumber]
  simp [Reader.double, hAny]

end Read

end Spelling

end HexFilter.Json
