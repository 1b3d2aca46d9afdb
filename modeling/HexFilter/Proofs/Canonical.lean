import HexFilter.Proofs.SameDigits

/-! Encoding what was decoded. Of all the texts that say the same bytes one is
canonical, and this one comes back. -/
namespace HexFilter

namespace Text

/-- A byte is spelled with the digits that it was read from, in lower case. -/
theorem spelled_of_byte? {high low byte : UInt8} (h : byte? (high, low) = some byte) :
    Digit.spelled byte = [Digit.lower high, Digit.lower low] := by
  by_cases hHex : Digit.IsHex high ∧ Digit.IsHex low
  · obtain ⟨hHigh, hLow⟩ := hHex
    obtain ⟨other, hOther, hNumber⟩ := byte?_of_isHex hHigh hLow
    rw [h] at hOther
    cases hOther
    exact Digit.spelled_eq hHigh hLow hNumber
  · rw [byte?, if_neg hHex] at h
    cases h

/-- What was read from digits is written with the same digits in lower case. Only
one without a partner is lost. -/
theorem hexText_bytes {digits : List UInt8} (h : ¬ BadPair digits) :
    hexText (bytes digits) = (paired digits).map Digit.lower := by
  fun_induction pairs digits with
  | case1 => rfl
  | case2 digit =>
      rw [paired_singleton]
      rfl
  | case3 high low rest ih =>
      rw [badPair_cons_cons, not_or] at h
      obtain ⟨byte, hByte⟩ := Option.ne_none_iff_exists'.mp h.1
      rw [bytes_cons_cons_of_some hByte, paired_cons_cons, List.map_cons, List.map_cons,
        ← ih h.2, hexText, List.flatMap_cons, spelled_of_byte? hByte]
      rfl

/-- No letter is in upper case, no digit is without a partner, and the only
newline is at the end. -/
structure Canonical (text : List UInt8) : Prop where
  lowercase : ∀ byte ∈ text, Digit.lower byte = byte
  even : (digits text).length % 2 = 0
  closed : text.getLast? = some newline
  count_newline : text.count newline = 1

theorem canonical_encode (bytes : List UInt8) : Canonical (encode bytes) where
  lowercase := by
    intro byte hByte
    rw [encode_eq, List.mem_append, hexText, List.mem_flatMap, List.mem_singleton] at hByte
    rcases hByte with ⟨source, _, hPair⟩ | rfl
    · exact Digit.lower_of_mem_alphabet (Digit.mem_alphabet_of_mem_spelled hPair)
    · decide
  even := by
    rw [digits_encode, length_hexText]
    omega
  closed := by rw [encode_eq, List.getLast?_concat]
  count_newline := count_newline_encode bytes

/-- In a canonical text nothing has to be changed. -/
theorem Canonical.eq {text : List UInt8} (canonical : Canonical text) :
    (paired (digits text)).map Digit.lower ++ [newline] = text := by
  obtain ⟨content, rfl⟩ := List.getLast?_eq_some_iff.mp canonical.closed
  have hNone : newline ∉ content := by
    rw [← List.count_eq_zero]
    simpa using canonical.count_newline
  have hDigits : digits (content ++ [newline]) = content := by
    rw [digits_append, digits_eq_self hNone]
    simp [digits]
  have hLower : content.map Digit.lower = content := by
    rw [List.map_congr_left fun byte hByte =>
      canonical.lowercase byte (List.mem_append_left _ hByte)]
    exact List.map_id' content
  have hEven := canonical.even
  rw [hDigits] at hEven ⊢
  rw [paired_eq_self hEven, hLower]

end Text

/-- Bytes come back from their text. From its bytes a text comes back without its
newlines, without a last digit that has no partner, in lower case, and with one
newline at the end; so it comes back as it was exactly if it was canonical. -/
theorem encode_decode_canonical (bytes text : List UInt8) :
    decode (encode bytes) = .ok bytes ∧
    (decode text = .ok bytes →
      encode bytes = (Text.paired (Text.digits text)).map Digit.lower ++ [newline] ∧
      (encode bytes = text ↔ Text.Canonical text)) := by
  refine ⟨Decoder.decode_of_digits_eq (Text.digits_encode bytes), fun hDecode => ?_⟩
  obtain ⟨hText, rfl⟩ := Decoder.decode_eq_ok_iff.mp hDecode
  have hEncode : encode (Text.readable text) =
      (Text.paired (Text.digits text)).map Digit.lower ++ [newline] := by
    rw [encode_eq, Text.readable, Text.hexText_bytes hText]
  refine ⟨hEncode, ?_, ?_⟩
  · intro hSame
    rw [← hSame]
    exact Text.canonical_encode _
  · intro canonical
    rw [hEncode, canonical.eq]

/-- A newline in a pair, a letter in upper case, and a digit without a partner. -/
example : (decode [52, 10, 65, 122]).map encode = .ok [52, 97, 10] := by decide

end HexFilter
