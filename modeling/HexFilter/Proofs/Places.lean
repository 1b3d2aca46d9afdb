import HexFilter.Proofs.Position

/-! Where the digits of a text stand in it, and which of them a decoder reports:
the first bad one among those that have a partner. Digits are found by their
places in the text, or by their numbers among the digits; the first change with
every newline, the second do not. -/
namespace HexFilter

/-- A half of a pair that is no hexadecimal digit. -/
def Nibble.isBad (n : Nibble) : Bool := decide (¬ Digit.IsHex n.digit)

/-- The half of a pair as it is reported. -/
def Nibble.reported (n : Nibble) : InvalidDigit := ⟨n.digit, n.offset⟩

namespace Text

/-- The digits of a text with their places, which are counted from `start`. -/
def placed (start : Nat) (text : List UInt8) : List Nibble :=
  ((text.zipIdx start).map fun (byte, offset) => ⟨byte, offset⟩).filter (·.digit ≠ newline)

/-- All that have a partner: a last one without is left out. -/
def paired {α : Type} (l : List α) : List α := l.take (2 * (l.length / 2))

/-- The number of digits in front of a place. -/
def rank (text : List UInt8) (offset : Nat) : Nat := (digits (text.take offset)).length

@[simp] theorem placed_nil (start : Nat) : placed start [] = [] := rfl

theorem placed_cons_newline (start : Nat) (rest : List UInt8) :
    placed start (newline :: rest) = placed (start + 1) rest := by
  simp [placed]

/-- A digit keeps the place that it has in the text. -/
theorem placed_cons_of_ne {byte : UInt8} (h : byte ≠ newline) (start : Nat) (rest : List UInt8) :
    placed start (byte :: rest) = ⟨byte, start⟩ :: placed (start + 1) rest := by
  simp [placed, h]

/-- Without their places the digits are those of the text. -/
theorem map_digit_placed (start : Nat) (text : List UInt8) :
    (placed start text).map Nibble.digit = digits text := by
  induction text generalizing start with
  | nil => rfl
  | cons byte rest ih =>
      by_cases hByte : byte = newline
      · subst hByte
        rw [placed_cons_newline, digits_cons_newline, ih]
      · rw [placed_cons_of_ne hByte, digits_cons_of_ne hByte, List.map_cons, ih]

section Paired

variable {α β : Type}

@[simp] theorem paired_nil : paired ([] : List α) = [] := by
  simp [paired]

@[simp] theorem paired_singleton (x : α) : paired [x] = [] := by
  simp [paired]

@[simp] theorem paired_cons_cons (x y : α) (rest : List α) :
    paired (x :: y :: rest) = x :: y :: paired rest := by
  have hLength : 2 * ((rest.length + 1 + 1) / 2) = 2 * (rest.length / 2) + 1 + 1 := by omega
  simp [paired, hLength]

/-- Which digits are paired does not depend on what they are. -/
theorem map_paired (f : α → β) (l : List α) : (paired l).map f = paired (l.map f) := by
  rw [paired, paired, List.map_take, List.length_map]

/-- An even number of digits is paired to the last. -/
theorem paired_eq_self {l : List α} (h : l.length % 2 = 0) : paired l = l := by
  rw [paired, List.take_of_length_le]
  omega

end Paired

/-- A text is its newlines and its digits. -/
theorem length_digits (text : List UInt8) :
    (digits text).length + text.count newline = text.length := by
  induction text with
  | nil => rfl
  | cons byte rest ih =>
      by_cases hByte : byte = newline
      · subst hByte
        rw [digits_cons_newline, List.count_cons_self, List.length_cons]
        omega
      · rw [digits_cons_of_ne hByte, List.count_cons_of_ne hByte, List.length_cons,
          List.length_cons]
        omega

/-- A place less the newlines in front of it is a number among the digits. -/
theorem sub_count_newline {text : List UInt8} {offset : Nat} (h : offset ≤ text.length) :
    offset - (text.take offset).count newline = rank text offset := by
  have hLength := length_digits (text.take offset)
  rw [List.length_take_of_le h] at hLength
  unfold rank
  omega

/-- The digits have all places and, by their numbers, no gaps. -/
theorem map_rank_placed (past text : List UInt8) :
    (placed past.length text).map (fun n => (n.digit, rank (past ++ text) n.offset)) =
      (digits text).zipIdx (digits past).length := by
  induction text generalizing past with
  | nil => rfl
  | cons byte rest ih =>
      have hRest := ih (past ++ [byte])
      rw [List.append_assoc, List.singleton_append, List.length_append, List.length_singleton,
        digits_append] at hRest
      by_cases hByte : byte = newline
      · subst hByte
        rw [placed_cons_newline, digits_cons_newline, hRest, digits_cons_newline]
        simp [digits]
      · have hHere : rank (past ++ byte :: rest) past.length = (digits past).length := by
          rw [rank, List.take_left]
        rw [placed_cons_of_ne hByte, digits_cons_of_ne hByte, List.map_cons, hRest, hHere,
          List.zipIdx_cons, digits_cons_of_ne hByte]
        simp [digits]

end Text

namespace Decoder

/-- Of a pair the first half is looked at first. -/
theorem fault_of_join_eq_error {high low : Nibble} {error : InvalidDigit}
    (h : Nibble.join high low = .error error) (rest : List Nibble) :
    ((high :: low :: rest).find? Nibble.isBad).map Nibble.reported = some error := by
  rcases of_join_eq_error h with ⟨hHigh, rfl⟩ | ⟨hHigh, hLow, rfl⟩
  · have hBad : high.isBad := by simpa [Nibble.isBad] using hHigh
    rw [List.find?_cons_of_pos hBad]
    rfl
  · have hGood : ¬ high.isBad := by simpa [Nibble.isBad] using hHigh
    have hBad : low.isBad := by simpa [Nibble.isBad] using hLow
    rw [List.find?_cons_of_neg hGood, List.find?_cons_of_pos hBad]
    rfl

/-- The first bad digit is behind a good pair. -/
theorem find?_of_join_eq_ok {high low : Nibble} {byte : UInt8}
    (h : Nibble.join high low = .ok byte) (rest : List Nibble) :
    (high :: low :: rest).find? Nibble.isBad = rest.find? Nibble.isBad := by
  have hByte := (join_eq_ok_iff high low byte).mp h
  have hSome : ¬ (¬ Digit.IsHex high.digit ∨ ¬ Digit.IsHex low.digit) := by
    rw [← Text.byte?_eq_none_iff (high.digit, low.digit), hByte]
    exact Option.some_ne_none byte
  rw [not_or, not_not, not_not] at hSome
  have hHigh : ¬ high.isBad := by simpa [Nibble.isBad] using hSome.1
  have hLow : ¬ low.isBad := by simpa [Nibble.isBad] using hSome.2
  rw [List.find?_cons_of_neg hHigh, List.find?_cons_of_neg hLow]

/-- What is reported is the first bad digit among those with a partner, the
waiting one in front. -/
theorem Reads.fault_eq {d : Decoder} {out : Array UInt8} {text : List UInt8} {result : Decoded}
    (reads : Reads d out text result) :
    result.fault =
      ((Text.paired (d.pending.toList ++ Text.placed d.offset text)).find? Nibble.isBad).map
        Nibble.reported := by
  induction reads with
  | @nil d out =>
      cases hPending : d.pending with
      | none => simp
      | some high => simp
  | newline _ ih =>
      rw [ih, Text.placed_cons_newline]
      rfl
  | first hByte hPending _ ih =>
      rw [ih, Text.placed_cons_of_ne hByte, hPending]
      rfl
  | completed hByte hPending hJoin _ ih =>
      rw [ih, Text.placed_cons_of_ne hByte, hPending, Option.toList_some, List.singleton_append,
        Text.paired_cons_cons, find?_of_join_eq_ok hJoin]
      rfl
  | bad hByte hPending hJoin =>
      rw [Text.placed_cons_of_ne hByte, hPending, Option.toList_some, List.singleton_append,
        Text.paired_cons_cons, fault_of_join_eq_error hJoin]

/-- The bad digit of a text is the first one among its paired digits. -/
theorem fault_decoded (text : List UInt8) :
    (decoded text).fault =
      ((Text.paired (Text.placed 0 text)).find? Nibble.isBad).map Nibble.reported :=
  (reads_chunk {} #[] text).fault_eq

/-- Told by its number among the digits, the bad digit of a text has nothing to
do with the newlines. -/
theorem fault_decoded_by_rank (text : List UInt8) :
    (decoded text).fault.map (fun error => (error.byte, Text.rank text error.offset)) =
      (Text.paired (Text.digits text).zipIdx).find? fun digit =>
        decide (¬ Digit.IsHex digit.1) := by
  have hRank := Text.map_rank_placed [] text
  simp only [List.nil_append, List.length_nil, Text.digits, List.filter_nil] at hRank
  rw [Text.digits, ← hRank, ← Text.map_paired, List.find?_map, fault_decoded, Option.map_map]
  rfl

end Decoder

end HexFilter
