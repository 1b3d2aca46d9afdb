import HexFilter.Proofs.SameDigits
import Mathlib.Data.List.Induction

/-! Which texts are decoded, and to which bytes. A byte is found by the places of its
two digits among all digits of the text, and these are told without the decoder. -/
namespace HexFilter

namespace Nibble

/-- A bad digit is one that is not in the alphabet. -/
theorem isBad_iff (n : Nibble) : n.isBad ↔ ¬ Digit.IsHex n.digit := by
  rw [isBad, decide_eq_true_iff]

theorem isHex_of_isBad_eq_false {n : Nibble} (h : n.isBad = false) : Digit.IsHex n.digit := by
  by_contra hNot
  rw [n.isBad_iff.mpr hNot] at h
  cases h

/-- Where no bad digit is found all are in the alphabet. -/
theorem isHex_of_find?_eq_none {digits : List Nibble} (h : digits.find? isBad = none) :
    ∀ n ∈ digits, Digit.IsHex n.digit := fun n hMem =>
  isHex_of_isBad_eq_false (Bool.eq_false_iff.mpr (List.find?_eq_none.mp h n hMem))

/-- The first bad digit, with the good ones in front of it. -/
theorem split_of_find?_eq_some {digits : List Nibble} {bad : Nibble}
    (h : digits.find? isBad = some bad) : ∃ before after, digits = before ++ bad :: after ∧
      (∀ n ∈ before, Digit.IsHex n.digit) ∧ ¬ Digit.IsHex bad.digit := by
  obtain ⟨hBad, before, after, hDigits, hGood⟩ := List.find?_eq_some_iff_append.mp h
  refine ⟨before, after, hDigits, fun n hMem => ?_, bad.isBad_iff.mp hBad⟩
  exact isHex_of_isBad_eq_false ((Bool.not_eq_true' n.isBad).mp (hGood n hMem))

end Nibble

namespace Text

/-- The bytes are what these digits stand for, two by two. A last digit without a
partner stands for nothing. -/
structure Spells (digits : List Nibble) (bytes : List UInt8) : Prop where
  length_eq : bytes.length = digits.length / 2
  toNat_getElem (k : Nat) (hk : k < bytes.length) : bytes[k].toNat =
    16 * Digit.number digits[2 * k].digit + Digit.number digits[2 * k + 1].digit

theorem spells_nil {digits : List Nibble} (h : digits.length ≤ 1) : Spells digits [] where
  length_eq := by
    rw [List.length_nil]
    omega
  toNat_getElem k hk := absurd hk (Nat.not_lt_zero k)

/-- One more pair spells one more byte. -/
theorem Spells.cons_cons {high low : Nibble} {byte : UInt8} {digits : List Nibble}
    {bytes : List UInt8}
    (hByte : byte.toNat = 16 * Digit.number high.digit + Digit.number low.digit)
    (spells : Spells digits bytes) : Spells (high :: low :: digits) (byte :: bytes) where
  length_eq := by
    have hLength := spells.length_eq
    simp only [List.length_cons]
    omega
  toNat_getElem k hk := by
    cases k with
    | zero => exact hByte
    | succ k => exact spells.toNat_getElem k (Nat.lt_of_succ_lt_succ hk)

/-- Of digits that go on to the end, or to the first bad one, all pairs are read
and nothing after them. -/
theorem spells_bytes {before : List Nibble} {after : List UInt8}
    (hBefore : ∀ n ∈ before, Digit.IsHex n.digit)
    (hAfter : ∀ bad ∈ after.head?, ¬ Digit.IsHex bad) :
    Spells before (bytes (before.map Nibble.digit ++ after)) := by
  induction before using List.twoStepInduction with
  | nil =>
      have hBytes : bytes after = [] := by
        rcases after with _ | ⟨bad, _ | ⟨next, rest⟩⟩
        · rfl
        · rfl
        · exact bytes_cons_cons_of_none (byte?_eq_none_of_not_isHex (.inl (hAfter bad rfl))) rest
      rw [List.map_nil, List.nil_append, hBytes]
      exact spells_nil (Nat.zero_le 1)
  | singleton last =>
      -- The bad digit is the partner of the last good one, so their pair is lost.
      have hBytes : bytes (last.digit :: after) = [] := by
        rcases after with _ | ⟨bad, rest⟩
        · rfl
        · exact bytes_cons_cons_of_none (byte?_eq_none_of_not_isHex (.inr (hAfter bad rfl))) rest
      rw [List.map_singleton, List.singleton_append, hBytes]
      exact spells_nil (Nat.le_refl 1)
  | cons_cons high low rest ih =>
      obtain ⟨hHigh, hLow, hRest⟩ : Digit.IsHex high.digit ∧ Digit.IsHex low.digit ∧
          ∀ n ∈ rest, Digit.IsHex n.digit := by simpa using hBefore
      obtain ⟨byte, hByte, hNumber⟩ := byte?_of_isHex hHigh hLow
      rw [List.map_cons, List.map_cons, List.cons_append, List.cons_append,
        bytes_cons_cons_of_some hByte]
      exact (ih hRest).cons_cons hNumber

/-- A digit without a partner is in no pair, so it can as well be left out. -/
theorem pairs_paired (digits : List UInt8) : pairs (paired digits) = pairs digits := by
  fun_induction pairs digits with
  | case1 => rfl
  | case2 digit => rw [paired_singleton, pairs]
  | case3 high low rest ih => rw [paired_cons_cons, pairs, ih]

/-- A digit without a partner has no part in what is read. -/
theorem readable_eq_bytes_paired (text : List UInt8) :
    readable text = bytes ((paired (placed 0 text)).map Nibble.digit) := by
  rw [map_paired, map_digit_placed, readable, bytes, bytes, pairs_paired]

end Text

/-- A text is decoded exactly if all of its digits that have a partner are
hexadecimal, and then to the bytes that these stand for. Otherwise the first of
them that is not is the error, with its place in the text, and what is left in
the output are the bytes of the pairs in front of its own. -/
theorem decode_spells_paired_digits (text : List UInt8) :
    let paired := Text.paired (Text.placed 0 text)
    ((∃ bytes, decode text = .ok bytes) ↔ ∀ n ∈ paired, Digit.IsHex n.digit) ∧
    (∀ bytes, decode text = .ok bytes → Text.Spells paired bytes) ∧
    ((∃ n ∈ paired, ¬ Digit.IsHex n.digit) →
      ∃ before bad after, paired = before ++ bad :: after ∧
        (∀ n ∈ before, Digit.IsHex n.digit) ∧ ¬ Digit.IsHex bad.digit ∧
        decode text = .error ⟨bad.digit, bad.offset⟩ ∧
        Text.Spells before (Decoder.chunk {} #[] text).output.toList) := by
  intro paired
  have hReadable : Text.readable text = Text.bytes (paired.map Nibble.digit) :=
    Text.readable_eq_bytes_paired text
  have hFault := Decoder.fault_decoded text
  cases hFind : paired.find? Nibble.isBad with
  | none =>
      have hAll := Nibble.isHex_of_find?_eq_none hFind
      have hDecode : decode text = .ok (Text.readable text) :=
        Decoder.decode_of_fault_none (hFault.trans (congrArg _ hFind))
      refine ⟨iff_of_true ⟨_, hDecode⟩ hAll, ?_, ?_⟩
      · intro bytes hBytes
        cases hDecode.symm.trans hBytes
        rw [hReadable, ← List.append_nil (List.map _ _)]
        exact Text.spells_bytes hAll nofun
      · rintro ⟨n, hMem, hBad⟩
        exact absurd (hAll n hMem) hBad
  | some bad =>
      obtain ⟨before, after, hPaired, hBefore, hBad⟩ := Nibble.split_of_find?_eq_some hFind
      have hDecode : decode text = .error bad.reported :=
        Decoder.decode_of_fault_some (hFault.trans (congrArg _ hFind))
      have hOutput : (Decoder.chunk {} #[] text).output.toList = Text.readable text :=
        Decoder.toList_output_decoded text
      refine ⟨iff_of_false ?_ ?_, ?_, fun _ =>
        ⟨before, bad, after, hPaired, hBefore, hBad, hDecode, ?_⟩⟩
      · rintro ⟨bytes, hBytes⟩
        cases hDecode.symm.trans hBytes
      · intro hAll
        exact hBad (hAll bad (by simp [hPaired]))
      · intro bytes hBytes
        cases hDecode.symm.trans hBytes
      · rw [hOutput, hReadable, hPaired, List.map_append, List.map_cons]
        exact Text.spells_bytes hBefore (by simpa using hBad)

/-- The bad digit has a place among all bytes of the text, with a newline in its
pair. What has no partner may be anything. -/
example : decode [52, 65, 10, 51, 10, 103, 122] = .error ⟨103, 5⟩ ∧
    decode [52, 10, 65, 122] = .ok [74] := by decide

end HexFilter
