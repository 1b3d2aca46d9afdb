import HexFilter.Decoder
import HexFilter.Proofs.Text

/-! What a decoder makes of a text, whether it gets the text at once or in
chunks, and how far before a bad digit its output reaches. -/
namespace HexFilter.Decoder

section Pair

variable {Count : Type}

/-- A pair joins to the byte that it stands for. -/
theorem join_eq_ok_iff (high low : Nibble Count) (byte : UInt8) :
    Nibble.join high low = .ok byte ↔ Text.byte? (high.digit, low.digit) = some byte := by
  rw [Text.byte?_eq_join]
  unfold Nibble.join Nibble.value
  cases Digit.value? high.digit <;> cases Digit.value? low.digit <;> simp

theorem byte?_eq_none_of_join_eq_error {high low : Nibble Count} {error : InvalidDigit Count}
    (h : Nibble.join high low = .error error) : Text.byte? (high.digit, low.digit) = none := by
  cases hByte : Text.byte? (high.digit, low.digit) with
  | none => rfl
  | some byte =>
      rw [(join_eq_ok_iff high low byte).mpr hByte] at h
      cases h

/-- The first half of a bad pair is reported if it is bad, else the second. -/
theorem of_join_eq_error {high low : Nibble Count} {error : InvalidDigit Count}
    (h : Nibble.join high low = .error error) :
    (¬ Digit.IsHex high.digit ∧ error = ⟨high.digit, high.offset⟩) ∨
      (Digit.IsHex high.digit ∧ ¬ Digit.IsHex low.digit ∧ error = ⟨low.digit, low.offset⟩) := by
  unfold Nibble.join Nibble.value at h
  rw [Digit.value?_eq, Digit.value?_eq] at h
  by_cases hHigh : Digit.IsHex high.digit
  · by_cases hLow : Digit.IsHex low.digit
    · simp [hHigh, hLow] at h
    · simp only [hHigh, hLow, if_true, if_false] at h
      exact .inr ⟨hHigh, hLow, (Except.error.inj h).symm⟩
  · simp only [hHigh, if_false] at h
    exact .inl ⟨hHigh, (Except.error.inj h).symm⟩

end Pair

section Anywhere

variable {Count : Type} [Add Count] [OfNat Count 0] [OfNat Count 1]

/-- After a newline. -/
def skip (d : Decoder Count) : Decoder Count :=
  { d with offset := d.offset + 1, newlines := d.newlines + 1 }

/-- After the first half of a pair. -/
def hold (d : Decoder Count) (byte : UInt8) : Decoder Count :=
  { d with pending := some ⟨byte, d.offset⟩, offset := d.offset + 1 }

/-- After the second half of a pair, good or bad. -/
def release (d : Decoder Count) : Decoder Count :=
  { d with pending := none, offset := d.offset + 1 }

@[simp] theorem offset_skip (d : Decoder Count) : d.skip.offset = d.offset + 1 := rfl

@[simp] theorem offset_hold (d : Decoder Count) (byte : UInt8) :
    (d.hold byte).offset = d.offset + 1 := rfl

@[simp] theorem offset_release (d : Decoder Count) : d.release.offset = d.offset + 1 := rfl

/-- The ways a decoder goes through a chunk, one for each kind of byte. -/
inductive Reads : Decoder Count → Array UInt8 → List UInt8 → Decoded Count → Prop where
  | nil (d : Decoder Count) (out : Array UInt8) : Reads d out [] ⟨d, out, none⟩
  | newline {d : Decoder Count} {out : Array UInt8} {rest : List UInt8} {result : Decoded Count}
      (later : Reads d.skip out rest result) : Reads d out (newline :: rest) result
  | first {d : Decoder Count} {out : Array UInt8} {byte : UInt8} {rest : List UInt8}
      {result : Decoded Count}
      (hByte : byte ≠ HexFilter.newline) (hPending : d.pending = none)
      (later : Reads (d.hold byte) out rest result) : Reads d out (byte :: rest) result
  | completed {d : Decoder Count} {out : Array UInt8} {high : Nibble Count} {byte joined : UInt8}
      {rest : List UInt8} {result : Decoded Count}
      (hByte : byte ≠ HexFilter.newline) (hPending : d.pending = some high)
      (hJoin : Nibble.join high ⟨byte, d.offset⟩ = .ok joined)
      (later : Reads d.release (out.push joined) rest result) : Reads d out (byte :: rest) result
  | bad {d : Decoder Count} {out : Array UInt8} {high : Nibble Count} {byte : UInt8}
      {rest : List UInt8} {error : InvalidDigit Count}
      (hByte : byte ≠ HexFilter.newline) (hPending : d.pending = some high)
      (hJoin : Nibble.join high ⟨byte, d.offset⟩ = .error error) :
      Reads d out (byte :: rest) ⟨d.release, out, some error⟩

theorem chunk_newline (d : Decoder Count) (out : Array UInt8) (rest : List UInt8) :
    d.chunk out (newline :: rest) = d.skip.chunk out rest := by
  rw [chunk, step, if_pos rfl]
  rfl

/-- The first half of a pair in front of a chunk is held while the rest is decoded. -/
theorem chunk_first {d : Decoder Count} {byte : UInt8} (hByte : byte ≠ newline)
    (hPending : d.pending = none) (out : Array UInt8) (rest : List UInt8) :
    d.chunk out (byte :: rest) = (d.hold byte).chunk out rest := by
  rw [chunk, step, if_neg hByte]
  simp only [hPending]
  rfl

/-- A good pair that is completed in front of a chunk is put out before the rest is
decoded. -/
theorem chunk_completed {d : Decoder Count} {high : Nibble Count} {byte joined : UInt8}
    (hByte : byte ≠ newline) (hPending : d.pending = some high)
    (hJoin : Nibble.join high ⟨byte, d.offset⟩ = .ok joined) (out : Array UInt8)
    (rest : List UInt8) :
    d.chunk out (byte :: rest) = d.release.chunk (out.push joined) rest := by
  rw [chunk, step, if_neg hByte]
  simp only [hPending, hJoin]
  rfl

/-- A bad pair that is completed in front of a chunk ends the decoding. -/
theorem chunk_bad {d : Decoder Count} {high : Nibble Count} {byte : UInt8}
    {error : InvalidDigit Count} (hByte : byte ≠ newline) (hPending : d.pending = some high)
    (hJoin : Nibble.join high ⟨byte, d.offset⟩ = .error error) (out : Array UInt8)
    (rest : List UInt8) :
    d.chunk out (byte :: rest) = ⟨d.release, out, some error⟩ := by
  rw [chunk, step, if_neg hByte]
  simp only [hPending, hJoin]
  rfl

/-- The decoder goes through every chunk in one of these ways, and ends where
`chunk` says. -/
theorem reads_chunk (d : Decoder Count) (out : Array UInt8) (text : List UInt8) :
    Reads d out text (d.chunk out text) := by
  induction text generalizing d out with
  | nil => exact .nil d out
  | cons byte rest ih =>
      by_cases hByte : byte = newline
      · subst hByte
        rw [chunk_newline]
        exact .newline (ih _ _)
      · cases hPending : d.pending with
        | none =>
            rw [chunk_first hByte hPending]
            exact .first hByte hPending (ih _ _)
        | some high =>
            cases hJoin : Nibble.join high ⟨byte, d.offset⟩ with
            | ok joined =>
                rw [chunk_completed hByte hPending hJoin]
                exact .completed hByte hPending hJoin (ih _ _)
            | error error =>
                rw [chunk_bad hByte hPending hJoin]
                exact .bad hByte hPending hJoin

/-- Go on with a further chunk, unless a bad digit came up before. -/
def resume (decoded : Decoded Count) (text : List UInt8) : Decoded Count :=
  match decoded.fault with
  | none => decoded.decoder.chunk decoded.output text
  | some _ => decoded

/-- What was decoded of a chunk is resumed with the next one. -/
theorem Reads.append {d : Decoder Count} {out : Array UInt8} {first : List UInt8}
    {result : Decoded Count} (reads : Reads d out first result) (second : List UInt8) :
    d.chunk out (first ++ second) = resume result second := by
  induction reads with
  | nil d out => rfl
  | newline _ ih => rw [List.cons_append, chunk_newline, ih]
  | first hByte hPending _ ih => rw [List.cons_append, chunk_first hByte hPending, ih]
  | completed hByte hPending hJoin _ ih =>
      rw [List.cons_append, chunk_completed hByte hPending hJoin, ih]
  | bad hByte hPending hJoin =>
      rw [List.cons_append, chunk_bad hByte hPending hJoin]
      rfl

/-- A text may be cut anywhere. After a bad digit the rest does not matter. -/
theorem chunk_append (d : Decoder Count) (out : Array UInt8) (first second : List UInt8) :
    d.chunk out (first ++ second) = resume (d.chunk out first) second :=
  (reads_chunk d out first).append second

/-- Decoding appends to the output and does not look at it. -/
theorem Reads.behind {d : Decoder Count} {out : Array UInt8} {text : List UInt8}
    {result : Decoded Count} (reads : Reads d out text result) (before : Array UInt8) :
    d.chunk (before ++ out) text = ⟨result.decoder, before ++ result.output, result.fault⟩ := by
  induction reads with
  | nil d out => rfl
  | newline _ ih => rw [chunk_newline, ih]
  | first hByte hPending _ ih => rw [chunk_first hByte hPending, ih]
  | completed hByte hPending hJoin _ ih =>
      rw [chunk_completed hByte hPending hJoin, ← Array.append_push, ih]
  | bad hByte hPending hJoin => rw [chunk_bad hByte hPending hJoin]

/-- What stands in the output already is kept, and changes nothing else. -/
theorem chunk_behind (d : Decoder Count) (before : Array UInt8) (text : List UInt8) :
    d.chunk before text =
      ⟨(d.chunk #[] text).decoder, before ++ (d.chunk #[] text).output,
        (d.chunk #[] text).fault⟩ := by
  simpa using (reads_chunk d #[] text).behind before

/-- The digit that waits for its partner. -/
def waiting (d : Decoder Count) : List UInt8 := (d.pending.map Nibble.digit).toList

/-- The output is what the digits say, the waiting one in front. -/
theorem Reads.toList_output {d : Decoder Count} {out : Array UInt8} {text : List UInt8}
    {result : Decoded Count} (reads : Reads d out text result) :
    result.output.toList = out.toList ++ Text.bytes (d.waiting ++ Text.digits text) := by
  induction reads with
  | @nil d out =>
      cases hPending : d.pending with
      | none => simp [waiting, hPending, Text.digits, Text.bytes, Text.pairs]
      | some high => simp [waiting, hPending, Text.digits, Text.bytes, Text.pairs]
  | newline _ ih =>
      rw [ih, Text.digits_cons_newline]
      rfl
  | first hByte hPending _ ih =>
      rw [ih, Text.digits_cons_of_ne hByte]
      simp [waiting, hold, hPending]
  | @completed d out high byte joined rest result hByte hPending hJoin _ ih =>
      have hSome := (join_eq_ok_iff _ _ _).mp hJoin
      rw [ih, Text.digits_cons_of_ne hByte]
      simp [waiting, release, hPending, Text.bytes_cons_cons_of_some hSome]
  | bad hByte hPending hJoin =>
      have hNone := byte?_eq_none_of_join_eq_error hJoin
      rw [Text.digits_cons_of_ne hByte]
      simp [waiting, hPending, Text.bytes_cons_cons_of_none hNone]

/-- A bad digit comes up exactly if there is a bad pair among the digits. -/
theorem Reads.fault_eq_none_iff {d : Decoder Count} {out : Array UInt8} {text : List UInt8}
    {result : Decoded Count} (reads : Reads d out text result) :
    result.fault = none ↔ ¬ Text.BadPair (d.waiting ++ Text.digits text) := by
  induction reads with
  | @nil d out =>
      cases hPending : d.pending with
      | none => simp [waiting, hPending, Text.digits]
      | some high => simp [waiting, hPending, Text.digits]
  | newline _ ih =>
      rw [ih, Text.digits_cons_newline]
      rfl
  | first hByte hPending _ ih =>
      rw [ih, Text.digits_cons_of_ne hByte]
      simp [waiting, hold, hPending]
  | completed hByte hPending hJoin _ ih =>
      have hSome := (join_eq_ok_iff _ _ _).mp hJoin
      rw [ih, Text.digits_cons_of_ne hByte]
      simp [waiting, release, hPending, hSome]
  | bad hByte hPending hJoin =>
      have hNone := byte?_eq_none_of_join_eq_error hJoin
      rw [Text.digits_cons_of_ne hByte]
      simp [waiting, hPending, hNone]

end Anywhere

/-- The text in front of a bad digit is read without fault and to the same
output. The digit may be the one that was waiting before the text began. -/
theorem Reads.take_offset {d : Decoder} {out : Array UInt8} {text : List UInt8} {result : Decoded}
    {error : InvalidDigit} (reads : Reads d out text result) (hFault : result.fault = some error) :
    ((∃ high, d.pending = some high ∧ error.offset = high.offset) ∧ result.output = out) ∨
    (∃ length < text.length, error.offset = d.offset + length ∧
      (d.chunk out (text.take length)).fault = none ∧
      (d.chunk out (text.take length)).output = result.output) := by
  induction reads with
  | nil d out => cases hFault
  | newline _ ih =>
      rcases ih hFault with hWaiting | ⟨length, hLength, hOffset, hTake⟩
      · exact .inl hWaiting
      · refine .inr ⟨length + 1, by simpa using hLength, ?_, ?_⟩
        · rw [hOffset, offset_skip]
          omega
        · rwa [List.take_succ_cons, chunk_newline]
  | first hByte hPending _ ih =>
      rcases ih hFault with ⟨⟨high, hHigh, hOffset⟩, hOutput⟩ | ⟨length, hLength, hOffset, hTake⟩
      · cases hHigh
        exact .inr ⟨0, by simp, hOffset, rfl, hOutput.symm⟩
      · refine .inr ⟨length + 1, by simpa using hLength, ?_, ?_⟩
        · rw [hOffset, offset_hold]
          omega
        · rwa [List.take_succ_cons, chunk_first hByte hPending]
  | completed hByte hPending hJoin _ ih =>
      rcases ih hFault with ⟨⟨high, hHigh, _⟩, _⟩ | ⟨length, hLength, hOffset, hTake⟩
      · cases hHigh
      · refine .inr ⟨length + 1, by simpa using hLength, ?_, ?_⟩
        · rw [hOffset, offset_release]
          omega
        · rwa [List.take_succ_cons, chunk_completed hByte hPending hJoin]
  | @bad d out high byte rest _ hByte hPending hJoin =>
      cases hFault
      rcases of_join_eq_error hJoin with ⟨-, rfl⟩ | ⟨-, -, rfl⟩
      · exact .inl ⟨⟨high, hPending, rfl⟩, rfl⟩
      · exact .inr ⟨0, by simp, rfl, rfl, rfl⟩

/-- What a new decoder makes of a text. -/
def decoded (text : List UInt8) : Decoded := chunk {} #[] text

/-- A text is decoded part by part. -/
theorem decoded_append (first second : List UInt8) :
    decoded (first ++ second) = resume (decoded first) second :=
  chunk_append {} #[] first second

@[simp] theorem toList_output_decoded (text : List UInt8) :
    (decoded text).output.toList = Text.readable text := by
  simpa [waiting, decoded, Text.readable] using (reads_chunk {} #[] text).toList_output

/-- A text is decoded to its end exactly if it has no bad pair. -/
theorem fault_decoded_eq_none_iff (text : List UInt8) :
    (decoded text).fault = none ↔ ¬ Text.Malformed text := by
  simpa [waiting, decoded, Text.Malformed] using (reads_chunk {} #[] text).fault_eq_none_iff

/-- A bad digit stays where it is when the text goes on. -/
theorem fault_decoded_append {first : List UInt8} {error : InvalidDigit}
    (h : (decoded first).fault = some error) (second : List UInt8) :
    decoded (first ++ second) = decoded first := by
  rw [decoded_append, resume, h]

theorem decode_of_fault_none {text : List UInt8} (h : (decoded text).fault = none) :
    decode text = .ok (Text.readable text) := by
  rw [← toList_output_decoded]
  unfold decoded at h ⊢
  simp only [decode, h]

theorem decode_of_fault_some {text : List UInt8} {error : InvalidDigit}
    (h : (decoded text).fault = some error) : decode text = .error error := by
  unfold decoded at h
  simp only [decode, h]

/-- A whole text is decoded exactly if it has no bad pair, to the bytes that can be
read from it. -/
theorem decode_eq_ok_iff {text bytes : List UInt8} :
    decode text = .ok bytes ↔ ¬ Text.Malformed text ∧ Text.readable text = bytes := by
  rw [← fault_decoded_eq_none_iff]
  cases hFault : (decoded text).fault with
  | none => simp [decode_of_fault_none hFault]
  | some error => simp [decode_of_fault_some hFault]

/-- With the digits of some bytes a text is decoded to these bytes, wherever its
newlines stand. -/
theorem decode_of_digits_eq {text bytes : List UInt8} (h : Text.digits text = hexText bytes) :
    decode text = .ok bytes := by
  refine decode_eq_ok_iff.mpr ⟨?_, ?_⟩
  · rw [Text.Malformed, h]
    exact Text.not_badPair_hexText bytes
  · rw [Text.readable, h, Text.bytes_hexText]

/-- The text in front of a bad digit is read without fault, and to the output
that the whole text leaves. -/
theorem decode_take_offset {text : List UInt8} {error : InvalidDigit}
    (h : (decoded text).fault = some error) :
    error.offset < text.length ∧
      decode (text.take error.offset) = .ok (Text.readable text) := by
  rcases (reads_chunk {} #[] text).take_offset h with ⟨⟨high, hHigh, _⟩, _⟩ |
    ⟨length, hLength, hOffset, hFault, hOutput⟩
  · cases hHigh
  · have hOffset : error.offset = length := by simpa using hOffset
    subst hOffset
    refine ⟨hLength, ?_⟩
    rw [decode_of_fault_none hFault, ← toList_output_decoded, ← toList_output_decoded]
    exact congrArg (fun output => Except.ok output.toList) hOutput

end HexFilter.Decoder

namespace HexFilter.Text

/-- More text leaves what is readable of it and adds to it. -/
theorem readable_prefix (first second : List UInt8) :
    readable first <+: readable (first ++ second) := by
  rw [← Decoder.toList_output_decoded, ← Decoder.toList_output_decoded, Decoder.decoded_append,
    Decoder.resume]
  split
  · rw [Decoder.chunk_behind, Array.toList_append]
    exact List.prefix_append ..
  · exact List.prefix_rfl

end HexFilter.Text
