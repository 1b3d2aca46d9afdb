import HexFilter.Proofs.Position

/-! A decoder in use. It may be fed a text chunk after chunk, and it may be used
on after a bad digit or a finish. -/
namespace HexFilter.Decoder

variable {Count : Type} [Add Count] [OfNat Count 0] [OfNat Count 1]

/-- Chunk after chunk onto the same output, until one of them has a bad digit. -/
def chunks (d : Decoder Count) (out : Array UInt8) : List (List UInt8) → Decoded Count
  | [] => ⟨d, out, none⟩
  | text :: rest =>
      let decoded := d.chunk out text
      match decoded.fault with
      | none => decoded.decoder.chunks decoded.output rest
      | some _ => decoded

/-- In whatever state a decoder is, cutting a text into chunks changes neither
the state it ends in nor the output nor the bad digit, and it does not matter
whether the counts are numbers or words that start over. What was in the output
before stays in front of it, and has no part in what is added. -/
theorem chunks_eq_chunk_flatten (d : Decoder Count) (out : Array UInt8)
    (texts : List (List UInt8)) :
    d.chunks out texts = d.chunk out texts.flatten ∧
      (d.chunks out texts).output = out ++ (d.chunk #[] texts.flatten).output := by
  have hWhole : d.chunks out texts = d.chunk out texts.flatten := by
    induction texts generalizing d out with
    | nil => rfl
    | cons text rest ih =>
        rw [List.flatten_cons, chunk_append, resume, chunks]
        cases (d.chunk out text).fault with
        | none => exact ih _ _
        | some error => rfl
  refine ⟨hWhole, ?_⟩
  rw [hWhole, chunk_behind]

/-- A call on a decoder. A chunk comes with the output that its bytes are put
behind, which need not be the one that an earlier call left. -/
inductive Call where
  | chunk (out : Array UInt8) (text : List UInt8)
  | finish
deriving DecidableEq

/-- What a call gives back. -/
inductive Answer (Count : Type := Nat) where
  /-- The bytes put behind the output, and the bad digit if there was one. -/
  | decoded (appended : List UInt8) (fault : Option (InvalidDigit Count))
  /-- The digit that was dropped, if one was waiting. -/
  | finished (dropped : Option UInt8)
deriving DecidableEq

namespace Answer

def appended : Answer Count → List UInt8
  | decoded appended _ => appended
  | finished _ => []

def fault? : Answer Count → Option (InvalidDigit Count)
  | decoded _ fault => fault
  | finished _ => none

def dropped? : Answer Count → Option UInt8
  | decoded _ _ => none
  | finished dropped => dropped

end Answer

/-- A decoder together with all it has taken and answered so far. Of a chunk
with a bad pair no more is taken than up to the end of that pair. -/
structure Usage (Count : Type := Nat) [OfNat Count 0] where
  decoder : Decoder Count := {}
  taken : List UInt8 := []
  answers : List (Answer Count) := []
deriving DecidableEq

namespace Usage

def call (u : Usage Count) : Call → Usage Count
  | .chunk out text =>
      let decoded := u.decoder.chunk out text
      { decoder := decoded.decoder
        taken := u.taken ++ Text.taken u.decoder.waiting text
        answers := u.answers ++ [.decoded (decoded.output.toList.drop out.size) decoded.fault] }
  | .finish =>
      { u with
        decoder := u.decoder.finish.1
        answers := u.answers ++ [.finished u.decoder.finish.2] }

def calls (u : Usage Count) (calls : List Call) : Usage Count := calls.foldl call u

def appended (u : Usage Count) : List UInt8 := u.answers.flatMap Answer.appended

def faults (u : Usage Count) : List (InvalidDigit Count) := u.answers.filterMap Answer.fault?

def dropped (u : Usage Count) : List UInt8 := u.answers.filterMap Answer.dropped?

/-- What a decoder knows and what it has answered account for all it has taken. -/
structure Accounted (u : Usage) : Prop where
  stands : u.decoder.StandsAt u.taken
  balance : u.decoder.offset = u.decoder.newlines + 2 * u.appended.length + 2 * u.faults.length +
    u.dropped.length + u.decoder.waiting.length
  within : ∀ error ∈ u.faults, error.Within u.taken

theorem accounted_new : Accounted {} := ⟨standsAt_new, rfl, by simp [faults]⟩

section Views

variable (u : Usage) (out : Array UInt8) (text : List UInt8)

/-- A call with a chunk appends what a decoder would put out from nothing. -/
theorem appended_chunk : (u.call (.chunk out text)).appended =
    u.appended ++ (u.decoder.chunk #[] text).output.toList := by
  have hDrop : (u.decoder.chunk out text).output.toList.drop out.size =
      (u.decoder.chunk #[] text).output.toList := by
    rw [chunk_behind, Array.toList_append, ← Array.length_toList, List.drop_left]
  simp [call, appended, Answer.appended, hDrop]

/-- A call with a chunk reports one bad digit at most. -/
theorem faults_chunk : (u.call (.chunk out text)).faults =
    u.faults ++ (u.decoder.chunk #[] text).fault.toList := by
  have hFault : (u.decoder.chunk out text).fault = (u.decoder.chunk #[] text).fault := by
    rw [chunk_behind]
  rw [faults, call, List.filterMap_append, ← hFault]
  cases (u.decoder.chunk out text).fault with
  | none => rfl
  | some error => rfl

theorem dropped_chunk : (u.call (.chunk out text)).dropped = u.dropped := by
  rw [dropped, call, List.filterMap_append]
  exact List.append_nil _

theorem appended_finish : (u.call .finish).appended = u.appended := by
  simp [call, appended, Answer.appended]

theorem faults_finish : (u.call .finish).faults = u.faults := by
  rw [faults, call, List.filterMap_append]
  exact List.append_nil _

/-- Finishing drops the digit that waits. -/
theorem dropped_finish : (u.call .finish).dropped = u.dropped ++ u.decoder.waiting := by
  have hFinish : u.decoder.finish.2 = u.decoder.pending.map Nibble.digit := rfl
  rw [dropped, call, List.filterMap_append, hFinish, waiting]
  cases u.decoder.pending with
  | none => rfl
  | some nibble => rfl

end Views

variable {u : Usage}

/-- A call with a chunk is accounted for, whether it ends well or at a bad pair. -/
theorem Accounted.chunk (accounted : u.Accounted) (out : Array UInt8) (text : List UInt8) :
    (u.call (.chunk out text)).Accounted where
  stands := (reads_chunk u.decoder out text).standsAt accounted.stands
  balance := by
    have hBefore := accounted.balance
    have hChunk := (reads_chunk u.decoder #[] text).balance
    have hDecoder : (u.call (.chunk out text)).decoder = (u.decoder.chunk #[] text).decoder := by
      rw [call, chunk_behind]
    rw [appended_chunk, faults_chunk, dropped_chunk, hDecoder]
    simp only [List.length_append, Array.length_toList, Array.size_empty] at hChunk ⊢
    omega
  within := by
    intro error hError
    rw [faults_chunk, List.mem_append, Option.mem_toList] at hError
    rcases hError with hBefore | hNow
    · exact (accounted.within error hBefore).append _
    · exact (reads_chunk u.decoder #[] text).within accounted.stands hNow

/-- Finishing is accounted for by the digit that is dropped. -/
theorem Accounted.finish (accounted : u.Accounted) : (u.call .finish).Accounted where
  stands := accounted.stands.finish
  balance := by
    have hBefore := accounted.balance
    have hOffset : (u.call .finish).decoder.offset = u.decoder.offset := rfl
    have hNewlines : (u.call .finish).decoder.newlines = u.decoder.newlines := rfl
    have hWaiting : (u.call .finish).decoder.waiting = [] := rfl
    rw [appended_finish, faults_finish, dropped_finish, hOffset, hNewlines, hWaiting,
      List.length_append, List.length_nil]
    omega
  within := by
    rw [faults_finish]
    exact accounted.within

/-- Any sequence of calls is accounted for, call by call. -/
theorem Accounted.calls (accounted : u.Accounted) (calls : List Call) :
    (u.calls calls).Accounted := by
  induction calls generalizing u with
  | nil => exact accounted
  | cons call rest ih =>
      cases call with
      | chunk out text => exact ih (accounted.chunk out text)
      | finish => exact ih accounted.finish

end Usage

/-- However a decoder is used, its offset and its newlines count all it has
taken, of which every byte is a newline, half of a pair that gave a byte or an
error, a digit dropped by a finish, or the one that waits. A waiting digit and
every bad digit ever reported are found in what was taken, at their offsets. -/
theorem accounted_after_calls (calls : List Call) :
    let u := Usage.calls {} calls
    u.decoder.offset = u.taken.length ∧
    u.decoder.newlines = u.taken.count newline ∧
    u.decoder.offset = u.decoder.newlines + 2 * u.appended.length + 2 * u.faults.length +
      u.dropped.length + (if u.decoder.pending.isSome then 1 else 0) ∧
    (∀ nibble, u.decoder.pending = some nibble →
      u.taken[nibble.offset]? = some nibble.digit ∧ nibble.digit ≠ newline ∧
        ∀ byte ∈ u.taken.drop (nibble.offset + 1), byte = newline) ∧
    (∀ error ∈ u.faults, error.offset < u.decoder.offset ∧
      u.taken[error.offset]? = some error.byte ∧ error.byte ≠ newline ∧
        ¬ Digit.IsHex error.byte) := by
  intro u
  obtain ⟨stands, balance, within⟩ := Usage.accounted_new.calls calls
  have hWaiting : u.decoder.waiting.length = if u.decoder.pending.isSome then 1 else 0 := by
    cases hPending : u.decoder.pending with
    | none => simp [waiting, hPending]
    | some nibble => simp [waiting, hPending]
  refine ⟨stands.offset_eq, stands.newlines_eq, ?_, ?_, ?_⟩
  · rw [← hWaiting]
    exact balance
  · intro nibble hPending
    obtain ⟨hDigit, before, after, hTaken, hLength, hAfter⟩ := stands.waits nibble hPending
    have hTaken : u.taken = before ++ nibble.digit :: after := hTaken
    rw [hTaken, ← hLength]
    refine ⟨by simp, hDigit, ?_⟩
    simpa using hAfter
  · intro error hError
    have h := within error hError
    refine ⟨?_, h.byte_eq, h.ne_newline, h.not_isHex⟩
    rw [stands.offset_eq]
    exact h.offset_lt

/-- The digit behind the bad pair is not taken, and the decoder is used on. -/
example : Usage.calls {} [.chunk #[] [52, 103, 53], .chunk #[] [97, 10], .finish] =
    { decoder := { offset := 4, newlines := 1 }
      taken := [52, 103, 97, 10]
      answers := [.decoded [] (some ⟨103, 1⟩), .decoded [] none, .finished (some 97)] } := by
  decide

end HexFilter.Decoder
