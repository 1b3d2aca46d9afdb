import HexFilter.Proofs.Decoder
import Mathlib.Data.List.Infix

/-! Where a decoder stands in what it has taken. Its offset counts all of it and
its newlines those among it; a waiting digit is found at its offset, and so is a
bad digit when it is reported. A chunk with a bad pair is not taken to its end. -/
namespace HexFilter

namespace Text

instance (digits : List UInt8) : Decidable (BadPair digits) :=
  inferInstanceAs (Decidable (∃ pair ∈ pairs digits, _))

/-- The part of a chunk that is taken while these digits wait: up to and
including the second half of the first bad pair, or all of it. -/
def taken (waiting text : List UInt8) : List UInt8 :=
  (text.inits.find? fun part => decide (BadPair (waiting ++ digits part))).getD text

@[simp] theorem taken_nil (waiting : List UInt8) : taken waiting [] = [] := by
  by_cases hBad : BadPair (waiting ++ digits [])
  · simp [taken, hBad]
  · simp [taken, hBad]

/-- A byte is taken where no pair is bad yet, and the rest is taken after it, if what
waits after the byte turns bad with the same rests. -/
theorem taken_cons {waiting later rest : List UInt8} {byte : UInt8} (hWaiting : ¬ BadPair waiting)
    (hSame : ∀ part, BadPair (waiting ++ digits (byte :: part)) ↔ BadPair (later ++ digits part)) :
    taken waiting (byte :: rest) = byte :: taken later rest := by
  have hNil : decide (BadPair (waiting ++ digits [])) = false := by simpa [digits] using hWaiting
  have hTail : ((fun part => decide (BadPair (waiting ++ digits part))) ∘ (byte :: ·)) =
      fun part => decide (BadPair (later ++ digits part)) := by
    funext part
    simp [hSame part]
  rw [taken, List.inits_cons, List.find?_cons_of_neg (by simpa using hNil), List.find?_map, hTail,
    taken]
  cases rest.inits.find? fun part => decide (BadPair (later ++ digits part)) with
  | none => rfl
  | some part => rfl

end Text

namespace Decoder

/-- A digit that waits is in no pair yet. -/
theorem not_badPair_waiting (d : Decoder) : ¬ Text.BadPair d.waiting := by
  cases hPending : d.pending with
  | none => simp [waiting, hPending]
  | some high => simp [waiting, hPending]

/-- At most one digit waits. -/
theorem length_waiting_le (d : Decoder) : d.waiting.length ≤ 1 := by
  cases hPending : d.pending with
  | none => simp [waiting, hPending]
  | some high => simp [waiting, hPending]

theorem taken_newline (d : Decoder) (rest : List UInt8) :
    Text.taken d.waiting (newline :: rest) = newline :: Text.taken d.skip.waiting rest :=
  Text.taken_cons d.not_badPair_waiting fun part => by rw [Text.digits_cons_newline]; rfl

/-- The first half of a pair is always taken. -/
theorem taken_first {d : Decoder} {byte : UInt8} (hByte : byte ≠ newline)
    (hPending : d.pending = none) (rest : List UInt8) :
    Text.taken d.waiting (byte :: rest) = byte :: Text.taken (d.hold byte).waiting rest :=
  Text.taken_cons d.not_badPair_waiting fun part => by
    rw [Text.digits_cons_of_ne hByte]
    simp [waiting, hold, hPending]

/-- The second half of a good pair is taken, and more after it. -/
theorem taken_completed {d : Decoder} {high : Nibble} {byte joined : UInt8}
    (hByte : byte ≠ newline) (hPending : d.pending = some high)
    (hJoin : Nibble.join high ⟨byte, d.offset⟩ = .ok joined) (rest : List UInt8) :
    Text.taken d.waiting (byte :: rest) = byte :: Text.taken d.release.waiting rest :=
  Text.taken_cons d.not_badPair_waiting fun part => by
    rw [Text.digits_cons_of_ne hByte]
    simp [waiting, release, hPending, (join_eq_ok_iff _ _ _).mp hJoin]

/-- The second half of a bad pair is taken, and nothing after it. -/
theorem taken_bad {d : Decoder} {high : Nibble} {byte : UInt8} {error : InvalidDigit}
    (hByte : byte ≠ newline) (hPending : d.pending = some high)
    (hJoin : Nibble.join high ⟨byte, d.offset⟩ = .error error) (rest : List UInt8) :
    Text.taken d.waiting (byte :: rest) = [byte] := by
  have hNil : ¬ Text.BadPair (d.waiting ++ Text.digits []) := by
    simpa [Text.digits] using d.not_badPair_waiting
  have hBad : Text.BadPair (d.waiting ++ Text.digits [byte]) := by
    rw [Text.digits_cons_of_ne hByte]
    simp [waiting, hPending, byte?_eq_none_of_join_eq_error hJoin]
  cases rest <;> simp [Text.taken, hNil, hBad]

/-- A chunk without a bad pair is taken to its end. -/
theorem Reads.taken_eq {d : Decoder} {out : Array UInt8} {text : List UInt8} {result : Decoded}
    (reads : Reads d out text result) (hFault : result.fault = none) :
    Text.taken d.waiting text = text := by
  induction reads with
  | nil d out => exact Text.taken_nil _
  | @newline d _ rest _ _ ih => rw [d.taken_newline, ih hFault]
  | first hByte hPending _ ih => rw [taken_first hByte hPending, ih hFault]
  | completed hByte hPending hJoin _ ih => rw [taken_completed hByte hPending hJoin, ih hFault]
  | bad => cases hFault

/-- All that a decoder went through counts: a newline for itself, a completed
pair and a bad one for two digits, and a waiting digit for one. -/
theorem Reads.balance {d : Decoder} {out : Array UInt8} {text : List UInt8} {result : Decoded}
    (reads : Reads d out text result) :
    result.decoder.offset + d.newlines + d.waiting.length + 2 * out.size =
      d.offset + result.decoder.newlines + result.decoder.waiting.length + 2 * result.output.size +
        2 * result.fault.toList.length := by
  induction reads with
  | nil d out => simp
  | @newline d _ _ _ _ ih =>
      have hWaiting : d.skip.waiting = d.waiting := rfl
      rw [hWaiting] at ih
      simp only [skip] at ih
      omega
  | first hByte hPending _ ih =>
      simp only [hold, waiting, hPending, Option.map_none, Option.map_some, Option.toList_none,
        Option.toList_some, List.length_nil, List.length_singleton] at ih ⊢
      omega
  | completed hByte hPending hJoin _ ih =>
      simp only [release, waiting, hPending, Array.size_push, Option.map_none, Option.map_some,
        Option.toList_none, Option.toList_some, List.length_nil, List.length_singleton] at ih ⊢
      omega
  | bad hByte hPending hJoin =>
      simp only [release, waiting, hPending, Option.map_none, Option.map_some,
        Option.toList_none, Option.toList_some, List.length_nil, List.length_singleton]
      omega

/-- A decoder at the end of the bytes it has taken. -/
structure StandsAt (d : Decoder) (past : List UInt8) : Prop where
  offset_eq : d.offset = past.length
  newlines_eq : d.newlines = past.count newline
  waits : ∀ nibble, d.pending = some nibble → nibble.digit ≠ newline ∧
    ∃ before after, past = before ++ nibble.digit :: after ∧ before.length = nibble.offset ∧
      ∀ byte ∈ after, byte = newline

variable {d : Decoder} {past : List UInt8} {byte : UInt8}

theorem standsAt_new : StandsAt {} [] := ⟨rfl, rfl, by simp⟩

/-- After a newline the decoder stands one byte further on, with one more newline
behind it. -/
theorem StandsAt.skip (stands : d.StandsAt past) : d.skip.StandsAt (past ++ [newline]) where
  offset_eq := by simp [stands.offset_eq]
  newlines_eq := by simp [Decoder.skip, stands.newlines_eq]
  waits := by
    intro nibble hPending
    obtain ⟨hDigit, before, after, rfl, hLength, hAfter⟩ := stands.waits nibble hPending
    refine ⟨hDigit, before, after ++ [newline], by simp, hLength, ?_⟩
    exact List.forall_mem_append.mpr ⟨hAfter, by simp⟩

/-- After the first half of a pair the decoder stands behind it and waits with it. -/
theorem StandsAt.hold (stands : d.StandsAt past) (hByte : byte ≠ newline) :
    (d.hold byte).StandsAt (past ++ [byte]) where
  offset_eq := by simp [stands.offset_eq]
  newlines_eq := by simp [Decoder.hold, stands.newlines_eq, hByte]
  waits := by
    intro nibble hPending
    cases hPending
    exact ⟨hByte, past, [], rfl, stands.offset_eq.symm, by simp⟩

/-- After the second half of a pair the decoder stands behind it and waits no more. -/
theorem StandsAt.release (stands : d.StandsAt past) (hByte : byte ≠ newline) :
    d.release.StandsAt (past ++ [byte]) where
  offset_eq := by simp [stands.offset_eq]
  newlines_eq := by simp [Decoder.release, stands.newlines_eq, hByte]
  waits := by
    intro nibble hPending
    cases hPending

theorem StandsAt.finish (stands : d.StandsAt past) : d.finish.1.StandsAt past where
  offset_eq := stands.offset_eq
  newlines_eq := stands.newlines_eq
  waits := by
    intro nibble hPending
    cases hPending

/-- A decoder takes what it should of a chunk, and stands behind it then. -/
theorem Reads.standsAt {out : Array UInt8} {text : List UInt8} {result : Decoded}
    (reads : Reads d out text result) (stands : d.StandsAt past) :
    result.decoder.StandsAt (past ++ Text.taken d.waiting text) := by
  induction reads generalizing past with
  | nil d out => simpa using stands
  | @newline d _ rest _ _ ih =>
      rw [d.taken_newline]
      simpa using ih stands.skip
  | first hByte hPending _ ih =>
      rw [taken_first hByte hPending]
      simpa using ih (stands.hold hByte)
  | completed hByte hPending hJoin _ ih =>
      rw [taken_completed hByte hPending hJoin]
      simpa using ih (stands.release hByte)
  | bad hByte hPending hJoin =>
      rw [taken_bad hByte hPending hJoin]
      exact stands.release hByte

end Decoder

/-- The byte at this place of a text is as the error says, and it is neither a
newline nor a digit. -/
structure InvalidDigit.Within (error : InvalidDigit) (text : List UInt8) : Prop where
  byte_eq : text[error.offset]? = some error.byte
  ne_newline : error.byte ≠ newline
  not_isHex : ¬ Digit.IsHex error.byte

/-- A bad digit stays where it is when the text goes on. -/
theorem InvalidDigit.Within.append {error : InvalidDigit} {text : List UInt8}
    (within : error.Within text) (more : List UInt8) : error.Within (text ++ more) where
  byte_eq := by
    obtain ⟨hLength, hByte⟩ := List.getElem?_eq_some_iff.mp within.byte_eq
    rw [List.getElem?_append_left hLength, within.byte_eq]
  ne_newline := within.ne_newline
  not_isHex := within.not_isHex

/-- The place of a bad digit is in the text. -/
theorem InvalidDigit.Within.offset_lt {error : InvalidDigit} {text : List UInt8}
    (within : error.Within text) : error.offset < text.length :=
  (List.getElem?_eq_some_iff.mp within.byte_eq).1

namespace Decoder

variable {d : Decoder} {past : List UInt8}

/-- The first half of a bad pair stands where it was found, the second one at
the end. -/
theorem StandsAt.within {high : Nibble} {byte : UInt8} {error : InvalidDigit}
    (stands : d.StandsAt past) (hByte : byte ≠ newline) (hPending : d.pending = some high)
    (hJoin : Nibble.join high ⟨byte, d.offset⟩ = .error error) : error.Within (past ++ [byte]) := by
  rcases of_join_eq_error hJoin with ⟨hNot, rfl⟩ | ⟨-, hNot, rfl⟩
  · obtain ⟨hDigit, before, after, rfl, hLength, _⟩ := stands.waits high hPending
    exact ⟨by simp [← hLength], hDigit, hNot⟩
  · exact ⟨by simp [stands.offset_eq], hByte, hNot⟩

/-- A bad digit that comes up is in what was taken by then. -/
theorem Reads.within {out : Array UInt8} {text : List UInt8} {result : Decoded}
    {error : InvalidDigit} (reads : Reads d out text result) (stands : d.StandsAt past)
    (hFault : result.fault = some error) : error.Within (past ++ Text.taken d.waiting text) := by
  induction reads generalizing past with
  | nil => cases hFault
  | @newline d _ rest _ _ ih =>
      rw [d.taken_newline]
      simpa using ih stands.skip hFault
  | first hByte hPending _ ih =>
      rw [taken_first hByte hPending]
      simpa using ih (stands.hold hByte) hFault
  | completed hByte hPending hJoin _ ih =>
      rw [taken_completed hByte hPending hJoin]
      simpa using ih (stands.release hByte) hFault
  | bad hByte hPending hJoin =>
      cases hFault
      rw [taken_bad hByte hPending hJoin]
      exact stands.within hByte hPending hJoin

/-- A text without a bad pair is taken to its end. -/
theorem standsAt_decoded {text : List UInt8} (hFault : (decoded text).fault = none) :
    (decoded text).decoder.StandsAt text := by
  have reads := reads_chunk {} #[] text
  have stands := reads.standsAt standsAt_new
  rwa [reads.taken_eq hFault] at stands

/-- A text without a bad pair has nothing in it but newlines, pairs, and a digit
that may be left over. -/
theorem length_of_fault_none {text : List UInt8} (hFault : (decoded text).fault = none) :
    text.length = text.count newline + 2 * (Text.readable text).length +
      (decoded text).decoder.waiting.length := by
  have stands := standsAt_decoded hFault
  have hBalance := (reads_chunk {} #[] text).balance
  rw [← decoded, hFault, stands.offset_eq, stands.newlines_eq] at hBalance
  have hOutput : (Text.readable text).length = (decoded text).output.size := by
    rw [← toList_output_decoded, Array.length_toList]
  have hNew : waiting {} = [] := rfl
  rw [hOutput]
  simp only [hNew, Option.toList_none, List.length_nil, Array.size_empty] at hBalance
  omega

/-- A digit is dropped at the end of a text if there is an odd number of them. -/
theorem isSome_finish_decoded {text : List UInt8} (hFault : (decoded text).fault = none) :
    (decoded text).decoder.finish.2.isSome = ((text.length - text.count newline) % 2 == 1) := by
  have hLength := length_of_fault_none hFault
  have hFinish : (decoded text).decoder.finish.2 =
      (decoded text).decoder.pending.map Nibble.digit := rfl
  rw [hFinish]
  cases hPending : (decoded text).decoder.pending with
  | none =>
      have hWaiting : (decoded text).decoder.waiting.length = 0 := by simp [waiting, hPending]
      have hEven : (text.length - text.count newline) % 2 = 0 := by omega
      simp [hEven]
  | some nibble =>
      have hWaiting : (decoded text).decoder.waiting.length = 1 := by simp [waiting, hPending]
      have hOdd : (text.length - text.count newline) % 2 = 1 := by omega
      simp [hOdd]

end Decoder

end HexFilter
