import HexFilter.Digit

/-! The hexadecimal digits, told by their places in an alphabet. What the digits are
worth and how a byte is spelled follows from it alone, and the arithmetic of the codec
agrees with it. -/
namespace HexFilter.Digit

/-- The letters from A to F in lower case, and all else as it is. -/
def lower (byte : UInt8) : UInt8 :=
  if 'A'.toUInt8 ≤ byte ∧ byte ≤ 'F'.toUInt8 then byte - 'A'.toUInt8 + 'a'.toUInt8 else byte

/-- A digit in either letter case. -/
def IsHex (byte : UInt8) : Prop := lower byte ∈ alphabet

instance (byte : UInt8) : Decidable (IsHex byte) := inferInstanceAs (Decidable (_ ∈ _))

/-- What a digit is worth: its place in the alphabet. -/
def number (byte : UInt8) : Nat := alphabet.idxOf (lower byte)

theorem number_lt {byte : UInt8} (h : IsHex byte) : number byte < 16 :=
  List.idxOf_lt_length_iff.mpr h

/-- There are only so many bytes, so what can be decided of one can be decided of
all of them. -/
theorem forall_byte {P : UInt8 → Prop} (h : ∀ n : Fin 256, P (UInt8.ofNat n)) (byte : UInt8) :
    P byte := by
  simpa using h ⟨byte.toNat, byte.toNat_lt⟩

/-- What has a value is in the alphabet, and its place there is the value. -/
theorem value?_eq (byte : UInt8) :
    value? byte = if IsHex byte then some (UInt8.ofNat (number byte)) else none := by
  revert byte
  apply forall_byte
  decide +kernel

/-- A byte is written as it is spelled. -/
theorem pair_eq_spelled (byte : UInt8) : pair byte = spelled byte := by
  revert byte
  apply forall_byte
  decide +kernel

/-- Both digits of a written byte are in the alphabet, and their places make up the
byte. -/
theorem number_pair (byte : UInt8) : IsHex (high byte) ∧ IsHex (low byte) ∧
    16 * number (high byte) + number (low byte) = byte.toNat := by
  revert byte
  apply forall_byte
  decide +kernel

/-- At the place of a digit the alphabet has it in lower case. -/
theorem getElem?_number {byte : UInt8} (h : IsHex byte) :
    alphabet[number byte]? = some (lower byte) := by
  rw [List.getElem?_eq_getElem (number_lt h)]
  exact congrArg some (List.getElem_idxOf (number_lt h))

/-- A byte is spelled with the digits whose places make it up, in lower case. -/
theorem spelled_eq {byte high low : UInt8} (hHigh : IsHex high) (hLow : IsHex low)
    (h : byte.toNat = 16 * number high + number low) : spelled byte = [lower high, lower low] := by
  have hLowLt := number_lt hLow
  have hDiv : byte.toNat / 16 = number high := by omega
  have hMod : byte.toNat % 16 = number low := by omega
  simp [spelled, hDiv, hMod, getElem?_number hHigh, getElem?_number hLow]

/-- What bytes are spelled with is in the alphabet, where all letters are in lower
case. -/
theorem mem_alphabet_of_mem_spelled {byte digit : UInt8} (h : digit ∈ spelled byte) :
    digit ∈ alphabet := by
  obtain ⟨place, -, hDigit⟩ := List.mem_filterMap.mp h
  exact List.mem_of_getElem? hDigit

/-- The alphabet has no letters in upper case. -/
theorem lower_of_mem_alphabet {digit : UInt8} (h : digit ∈ alphabet) : lower digit = digit := by
  revert digit
  apply forall_byte
  decide +kernel

theorem newline_notMem_alphabet : newline ∉ alphabet := by decide +kernel

theorem lower_lower (byte : UInt8) : lower (lower byte) = lower byte := by
  revert byte
  apply forall_byte
  decide +kernel

/-- Whether a byte is a digit has nothing to do with its letter case. -/
theorem isHex_lower (byte : UInt8) : IsHex (lower byte) ↔ IsHex byte := by
  rw [IsHex, lower_lower, IsHex]

theorem number_lower (byte : UInt8) : number (lower byte) = number byte := by
  rw [number, lower_lower, number]

/-- What is no digit has no letter case. -/
theorem lower_of_not_isHex {byte : UInt8} (h : ¬ IsHex byte) : lower byte = byte := by
  revert byte
  apply forall_byte
  decide +kernel

end HexFilter.Digit
