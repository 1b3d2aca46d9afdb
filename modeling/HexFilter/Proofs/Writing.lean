import HexFilter.Proofs.Decoder

/-! An encoder in use. Chunks and finishes may come in any order, also after the
first finish, and all of them write behind the same output. -/
namespace HexFilter.Encoder

inductive Call where
  | chunk (bytes : List UInt8)
  | finish
deriving DecidableEq

def Call.bytes : Call → List UInt8
  | chunk bytes => bytes
  | finish => []

/-- A call takes the encoder and the output that the last call left. -/
def call (state : Encoder × Array UInt8) : Call → Encoder × Array UInt8
  | .chunk bytes => (state.1, chunk state.2 bytes)
  | .finish => state.1.finish state.2

def calls (e : Encoder) (out : Array UInt8) (calls : List Call) : Encoder × Array UInt8 :=
  calls.foldl call (e, out)

/-- All bytes of the chunks among these calls, in order. -/
def given (calls : List Call) : List UInt8 := calls.flatMap Call.bytes

/-- The calls before the first finish. -/
def opening (calls : List Call) : List Call := calls.takeWhile (· ≠ .finish)

/-- The calls from the first finish on. -/
def closing (calls : List Call) : List Call := calls.dropWhile (· ≠ .finish)

theorem given_append (first second : List Call) :
    given (first ++ second) = given first ++ given second :=
  List.flatMap_append

/-- All bytes were given before the first finish or after it. -/
theorem given_opening_append_given_closing (calls : List Call) :
    given (opening calls) ++ given (closing calls) = given calls := by
  rw [← given_append, opening, closing, List.takeWhile_append_dropWhile]

/-- What these calls write, if no call before them was a finish. -/
def written (calls : List Call) : List UInt8 :=
  hexText (given (opening calls)) ++ (if .finish ∈ calls then [newline] else []) ++
    hexText (given (closing calls))

theorem written_chunk (bytes : List UInt8) (rest : List Call) :
    written (.chunk bytes :: rest) = hexText bytes ++ written rest := by
  simp [written, opening, closing, given, Call.bytes, Text.hexText_append]

/-- The first finish writes the newline, and every further one nothing. -/
theorem written_finish (rest : List Call) :
    written (.finish :: rest) = newline :: hexText (given rest) := by
  simp [written, opening, closing, given, Call.bytes, hexText]

/-- Once the closing newline is out, only chunks add to the output. -/
theorem toList_calls_of_finished (out : Array UInt8) (calls : List Call) :
    (Encoder.calls { finished := true } out calls).2.toList =
      out.toList ++ hexText (given calls) := by
  induction calls generalizing out with
  | nil => simp [Encoder.calls, given, hexText]
  | cons call rest ih =>
      cases call with
      | chunk bytes =>
          have hRest := ih (chunk out bytes)
          rw [toList_chunk, List.append_assoc, ← Text.hexText_append] at hRest
          exact hRest
      | finish => exact ih out

/-- Calls append to the buffer what they should write. -/
theorem toList_calls (out : Array UInt8) (calls : List Call) :
    (Encoder.calls {} out calls).2.toList = out.toList ++ written calls := by
  induction calls generalizing out with
  | nil => simp [Encoder.calls, written, opening, closing, given, hexText]
  | cons call rest ih =>
      cases call with
      | chunk bytes =>
          have hRest := ih (chunk out bytes)
          rw [toList_chunk, List.append_assoc, ← written_chunk] at hRest
          exact hRest
      | finish =>
          have hRest := toList_calls_of_finished (out.push newline) rest
          rw [Array.toList_push, List.append_assoc, List.singleton_append,
            ← written_finish] at hRest
          exact hRest

/-- Wherever the newline went, the digits are those of all bytes given. -/
theorem digits_written (calls : List Call) :
    Text.digits (written calls) = hexText (given calls) := by
  have hNewline : Text.digits (if .finish ∈ calls then [newline] else []) = [] := by
    split
    · simp [Text.digits]
    · rfl
  rw [written, Text.digits_append, Text.digits_append, hNewline, List.append_nil,
    Text.digits_hexText, Text.digits_hexText, ← Text.hexText_append,
    given_opening_append_given_closing]

/-- Whatever the order of the calls, behind what was in the output before stand the
digits of all bytes given before the first finish, one newline if there was a
finish at all, and the digits of all bytes given after it. Nothing else about the
calls shows, and what they wrote is decoded to all bytes that were given. -/
theorem calls_write_hexText (out : Array UInt8) (calls : List Call) :
    let before := given (opening calls)
    let after := given (closing calls)
    let output := (Encoder.calls {} out calls).2.toList
    output = out.toList ++ hexText before ++ (if .finish ∈ calls then [newline] else []) ++
      hexText after ∧
    (∀ others : List Call, given (opening others) = before → given (closing others) = after →
      (.finish ∈ others ↔ .finish ∈ calls) → (Encoder.calls {} out others).2.toList = output) ∧
    decode (output.drop out.size) = .ok (given calls) := by
  intro before after output
  have hOutput : output = out.toList ++ written calls := toList_calls out calls
  refine ⟨?_, ?_, ?_⟩
  · rw [hOutput, written, ← List.append_assoc, ← List.append_assoc]
  · intro others hBefore hAfter hFinish
    have hWritten : written others = written calls := by
      simp only [written, hBefore, hAfter, hFinish, before, after]
    rw [toList_calls, hWritten, hOutput]
  · rw [hOutput, ← Array.length_toList, List.drop_left]
    exact Decoder.decode_of_digits_eq (digits_written calls)

/-- A chunk may come after the end, and a second end adds nothing. -/
example : (calls {} #[0] [.chunk [74], .finish, .chunk [255], .finish]).2 =
    #[0, 52, 97, 10, 102, 102] := by decide

end HexFilter.Encoder
