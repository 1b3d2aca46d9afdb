import HexFilter.Encoder
import HexFilter.Proofs.Digits
import Mathlib.Data.List.TakeWhile

/-! What a hexadecimal text says, told without any decoder: the newlines are
taken out, what is left is paired from the front, and the pairs are read one by
one up to the first that stands for no byte. The text of some bytes spells them one
after the other. -/
namespace HexFilter

/-- The codec's digits of a byte stand in front of the text of the others. -/
theorem hexText_cons (byte : UInt8) (rest : List UInt8) :
    hexText (byte :: rest) = Digit.high byte :: Digit.low byte :: hexText rest := by
  rw [hexText, List.flatMap_cons, ← Digit.pair_eq_spelled]
  rfl

/-- A chunk is written as the text of its bytes. -/
@[simp] theorem Encoder.toList_chunk (out : Array UInt8) (input : List UInt8) :
    (chunk out input).toList = out.toList ++ hexText input := by
  induction input generalizing out with
  | nil => simp [chunk, hexText]
  | cons byte rest ih =>
      have step : chunk out (byte :: rest) =
          chunk ((out.push (Digit.high byte)).push (Digit.low byte)) rest := rfl
      rw [step, ih, hexText_cons]
      simp

/-- A whole text is the text of its bytes and the closing newline. -/
theorem encode_eq (bytes : List UInt8) : encode bytes = hexText bytes ++ [newline] := by
  simp [encode, Encoder.finish]

namespace Text

/-- All of a text but its newlines. -/
def digits (text : List UInt8) : List UInt8 := text.filter (· ≠ newline)

/-- Digits two by two. A last one without a partner is left out. -/
def pairs : List UInt8 → List (UInt8 × UInt8)
  | [] => []
  | [_] => []
  | high :: low :: rest => (high, low) :: pairs rest

/-- The byte a pair stands for, if both of its halves are digits: sixteen times what
the first is worth, and what the second is. -/
def byte? (pair : UInt8 × UInt8) : Option UInt8 :=
  if Digit.IsHex pair.1 ∧ Digit.IsHex pair.2 then
    some (UInt8.ofNat (16 * Digit.number pair.1 + Digit.number pair.2))
  else none

/-- The bytes of paired digits that come before the first pair with a bad half. -/
def bytes (digits : List UInt8) : List UInt8 :=
  ((pairs digits).takeWhile fun pair => (byte? pair).isSome).filterMap byte?

/-- The bytes of a text that come before its first pair with a bad half. -/
def readable (text : List UInt8) : List UInt8 := bytes (digits text)

/-- One of the pairs has a half that is no hexadecimal digit. What stands
without a partner at the end is not looked at. -/
def BadPair (digits : List UInt8) : Prop :=
  ∃ pair ∈ pairs digits, ¬ Digit.IsHex pair.1 ∨ ¬ Digit.IsHex pair.2

/-- A text with a bad pair, once its newlines are taken out. -/
def Malformed (text : List UInt8) : Prop := BadPair (digits text)

/-- A pair stands for no byte exactly if one of its halves is no digit. -/
theorem byte?_eq_none_iff (pair : UInt8 × UInt8) :
    byte? pair = none ↔ ¬ Digit.IsHex pair.1 ∨ ¬ Digit.IsHex pair.2 := by
  rw [byte?, ite_eq_right_iff, ← not_and_or]
  exact forall_congr' fun _ => iff_false_intro (Option.some_ne_none _)

/-- Two digits stand for sixteen times the number of the first and the number of
the second. That is never too much for a byte. -/
theorem byte?_of_isHex {high low : UInt8} (hHigh : Digit.IsHex high) (hLow : Digit.IsHex low) :
    ∃ byte, byte? (high, low) = some byte ∧
      byte.toNat = 16 * Digit.number high + Digit.number low := by
  have hHighLt := Digit.number_lt hHigh
  have hLowLt := Digit.number_lt hLow
  refine ⟨UInt8.ofNat (16 * Digit.number high + Digit.number low), if_pos ⟨hHigh, hLow⟩, ?_⟩
  rw [UInt8.toNat_ofNat']
  omega

theorem byte?_eq_none_of_not_isHex {high low : UInt8}
    (h : ¬ Digit.IsHex high ∨ ¬ Digit.IsHex low) : byte? (high, low) = none :=
  (byte?_eq_none_iff (high, low)).mpr h

/-- Joined values make up the byte that the digits stand for. -/
theorem byte?_eq_join (high low : UInt8) : byte? (high, low) =
    (Digit.value? high).bind fun h => (Digit.value? low).map (Digit.join h) := by
  rw [Digit.value?_eq, Digit.value?_eq, byte?]
  by_cases hHigh : Digit.IsHex high
  · by_cases hLow : Digit.IsHex low
    · have hHighLt := Digit.number_lt hHigh
      have hLowLt := Digit.number_lt hLow
      simp only [hHigh, hLow, and_self, if_true, Option.bind_some, Option.map_some]
      congr 1
      apply UInt8.toNat_inj.mp
      simp only [Digit.join, UInt8.toNat_add, UInt8.toNat_mul, UInt8.toNat_ofNat',
        UInt8.reduceToNat]
      omega
    · simp [hLow]
  · simp [hHigh]

@[simp] theorem digits_append (first second : List UInt8) :
    digits (first ++ second) = digits first ++ digits second :=
  List.filter_append ..

@[simp] theorem digits_cons_newline (rest : List UInt8) :
    digits (newline :: rest) = digits rest := by
  simp [digits]

theorem digits_cons_of_ne {byte : UInt8} (h : byte ≠ newline) (rest : List UInt8) :
    digits (byte :: rest) = byte :: digits rest := by
  simp [digits, h]

theorem bytes_cons_cons_of_some {high low byte : UInt8} (h : byte? (high, low) = some byte)
    (rest : List UInt8) : bytes (high :: low :: rest) = byte :: bytes rest := by
  simp [bytes, pairs, h]

theorem bytes_cons_cons_of_none {high low : UInt8} (h : byte? (high, low) = none)
    (rest : List UInt8) : bytes (high :: low :: rest) = [] := by
  simp [bytes, pairs, h]

@[simp] theorem badPair_cons_cons (high low : UInt8) (rest : List UInt8) :
    BadPair (high :: low :: rest) ↔ byte? (high, low) = none ∨ BadPair rest := by
  simp [BadPair, pairs, byte?_eq_none_iff]

@[simp] theorem not_badPair_nil : ¬ BadPair [] := by
  simp [BadPair, pairs]

/-- A digit without a partner is in no pair. -/
@[simp] theorem not_badPair_singleton (digit : UInt8) : ¬ BadPair [digit] := by
  simp [BadPair, pairs]

theorem length_pairs (digits : List UInt8) : (pairs digits).length = digits.length / 2 := by
  fun_induction pairs digits with
  | case1 => rfl
  | case2 => simp
  | case3 high low rest ih =>
      simp only [List.length_cons, ih]
      omega

/-- Without a bad half every pair stands for a byte. -/
theorem length_readable {text : List UInt8} (h : ¬ Malformed text) :
    (readable text).length = (digits text).length / 2 := by
  have hSome : ∀ pair ∈ pairs (digits text), (byte? pair).isSome := by
    intro pair hPair
    rw [Option.isSome_iff_ne_none]
    intro hNone
    exact h ⟨pair, hPair, (byte?_eq_none_iff pair).mp hNone⟩
  rw [readable, bytes, List.takeWhile_eq_self_iff.mpr hSome,
    List.length_filterMap_eq_countP, List.countP_eq_length.mpr hSome, length_pairs]

/-- The written digits of a byte stand for it. -/
theorem byte?_pair (byte : UInt8) : byte? (Digit.high byte, Digit.low byte) = some byte := by
  obtain ⟨hHigh, hLow, hNumber⟩ := Digit.number_pair byte
  rw [byte?, if_pos ⟨hHigh, hLow⟩, hNumber, UInt8.ofNat_toNat]

theorem length_hexText (bytes : List UInt8) : (hexText bytes).length = 2 * bytes.length := by
  induction bytes with
  | nil => rfl
  | cons byte rest ih =>
      rw [hexText_cons, List.length_cons, List.length_cons, ih, List.length_cons]
      omega

theorem hexText_append (first second : List UInt8) :
    hexText (first ++ second) = hexText first ++ hexText second :=
  List.flatMap_append

/-- Encoded bytes hold no newline of their own. -/
theorem newline_notMem_hexText (bytes : List UInt8) : newline ∉ hexText bytes := by
  rw [hexText, List.mem_flatMap]
  rintro ⟨byte, _, hByte⟩
  exact Digit.newline_notMem_alphabet (Digit.mem_alphabet_of_mem_spelled hByte)

/-- Spelling bytes and reading the digits gives the bytes back. -/
theorem bytes_hexText (input : List UInt8) : bytes (hexText input) = input := by
  induction input with
  | nil => rfl
  | cons byte rest ih => rw [hexText_cons, bytes_cons_cons_of_some (byte?_pair byte), ih]

/-- There is no bad pair among the digits that bytes are spelled with. -/
theorem not_badPair_hexText (input : List UInt8) : ¬ BadPair (hexText input) := by
  induction input with
  | nil => exact not_badPair_nil
  | cons byte rest ih => simp [hexText_cons, byte?_pair, ih]

theorem digits_eq_self {text : List UInt8} (h : newline ∉ text) : digits text = text := by
  rw [digits, List.filter_eq_self]
  intro byte hByte
  have hNe : byte ≠ newline := fun hNewline => h (hNewline ▸ hByte)
  simpa using hNe

@[simp] theorem digits_hexText (input : List UInt8) : digits (hexText input) = hexText input :=
  digits_eq_self (newline_notMem_hexText input)

/-- Without its newline an encoded text is the text of its bytes. -/
theorem digits_encode (input : List UInt8) : digits (encode input) = hexText input := by
  rw [encode_eq, digits_append, digits_hexText]
  simp [digits]

/-- An encoded text says the bytes that it was made of. -/
theorem readable_encode (input : List UInt8) : readable (encode input) = input := by
  rw [readable, digits_encode, bytes_hexText]

/-- An encoded text can be read to its end. -/
theorem not_malformed_encode (input : List UInt8) : ¬ Malformed (encode input) := by
  rw [Malformed, digits_encode]
  exact not_badPair_hexText input

/-- The only newline of an encoded text is the closing one. -/
theorem count_newline_encode (input : List UInt8) : (encode input).count newline = 1 := by
  rw [encode_eq, List.count_append, List.count_eq_zero.mpr (newline_notMem_hexText input)]
  simp

theorem length_encode (input : List UInt8) : (encode input).length = 2 * input.length + 1 := by
  rw [encode_eq, List.length_append, length_hexText, List.length_singleton]

end Text

end HexFilter
