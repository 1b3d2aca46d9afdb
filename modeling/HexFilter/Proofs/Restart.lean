import HexFilter.Proofs.Usage

/-! A decoder that waits for no digit remembers nothing of what it has taken but
how much it was. It goes on like a new one, in a text that begins further on. That
is a map of its counts which keeps one after the other, and so is the passage from
numbers to words of 64 bits; every call goes along with such a map. -/
namespace HexFilter

section Maps

variable {Count Count' : Type} (f g : Count → Count')

/-- The same bad digit, with another count of its place. -/
def InvalidDigit.map (error : InvalidDigit Count) : InvalidDigit Count' :=
  ⟨error.byte, f error.offset⟩

/-- The same half of a pair, with another count of its place. -/
def Nibble.map (nibble : Nibble Count) : Nibble Count' :=
  ⟨nibble.digit, f nibble.offset⟩

/-- Whether a pair is good or bad has nothing to do with its place. -/
theorem Nibble.join_map (high low : Nibble Count) :
    Nibble.join (high.map f) (low.map f) =
      (Nibble.join high low).mapError (InvalidDigit.map f) := by
  unfold Nibble.join Nibble.value
  cases hHigh : Digit.value? high.digit with
  | none => simp [map, hHigh, Except.mapError, InvalidDigit.map]
  | some h =>
      cases hLow : Digit.value? low.digit with
      | none => simp [map, hHigh, hLow, Except.mapError, InvalidDigit.map]
      | some l => simp [map, hHigh, hLow, Except.mapError]

namespace Decoder

/-- The same answer, with another count of the place. Only a bad digit has one. -/
def Answer.map : Answer Count → Answer Count'
  | decoded appended fault => decoded appended (fault.map (InvalidDigit.map f))
  | finished dropped => finished dropped

variable [OfNat Count 0] [OfNat Count' 0]

/-- The same decoder, with other counts of the bytes and of the newlines. -/
def map (d : Decoder Count) : Decoder Count' where
  pending := d.pending.map (Nibble.map f)
  offset := f d.offset
  newlines := g d.newlines

/-- The same history, with other counts of the bytes and of the newlines. -/
def Usage.map (u : Usage Count) : Usage Count' where
  decoder := u.decoder.map f g
  taken := u.taken
  answers := u.answers.map (Answer.map f)

theorem waiting_map (d : Decoder Count) : (d.map f g).waiting = d.waiting := by
  cases hPending : d.pending with
  | none => simp [waiting, map, hPending]
  | some nibble => simp [waiting, map, hPending, Nibble.map]

/-- Finishing drops the same digit. -/
theorem finish_map (d : Decoder Count) :
    (d.map f g).finish = (d.finish.1.map f g, d.finish.2) := by
  cases hPending : d.pending with
  | none => simp [finish, map, hPending]
  | some nibble => simp [finish, map, hPending, Nibble.map]

/-- A history reports the same bad digits, with other counts of their places. -/
theorem Usage.faults_map (u : Usage Count) :
    (u.map f g).faults = u.faults.map (InvalidDigit.map f) := by
  have hAnswer (answer : Answer Count) :
      (answer.map f).fault? = answer.fault?.map (InvalidDigit.map f) := by
    cases answer <;> rfl
  simp only [faults, Usage.map, List.filterMap_map, List.map_filterMap, Function.comp_def, hAnswer]

end Decoder

def Decoded.map [OfNat Count 0] [OfNat Count' 0] (decoded : Decoded Count) : Decoded Count' where
  decoder := decoded.decoder.map f g
  output := decoded.output
  fault := decoded.fault.map (InvalidDigit.map f)

end Maps

namespace Decoder

section Chunks

variable {Count Count' : Type} [Add Count] [OfNat Count 0] [OfNat Count 1] [Add Count']
  [OfNat Count' 0] [OfNat Count' 1] {f g : Count → Count'} (hf : ∀ n, f (n + 1) = f n + 1)
  (hg : ∀ n, g (n + 1) = g n + 1)

include hf

theorem hold_map (d : Decoder Count) (byte : UInt8) :
    (d.map f g).hold byte = (d.hold byte).map f g := by
  simp [hold, map, hf, Nibble.map]

theorem release_map (d : Decoder Count) : (d.map f g).release = d.release.map f g := by
  simp [release, map, hf]

include hg

theorem skip_map (d : Decoder Count) : (d.map f g).skip = d.skip.map f g := by
  simp [skip, map, hf, hg]

/-- Other counts move the places in a chunk, and nothing else. -/
theorem Reads.map {d : Decoder Count} {out : Array UInt8} {text : List UInt8}
    {result : Decoded Count} (reads : Reads d out text result) :
    (d.map f g).chunk out text = result.map f g := by
  induction reads with
  | nil d out => rfl
  | newline _ ih => rw [chunk_newline, skip_map hf hg, ih]
  | first hByte hPending _ ih =>
      have hFree := congrArg (Option.map (Nibble.map f)) hPending
      rw [chunk_first hByte hFree, hold_map hf, ih]
  | @completed d _ high byte joined _ _ hByte hPending hJoin _ ih =>
      have hWaits := congrArg (Option.map (Nibble.map f)) hPending
      have hSame := Nibble.join_map f high ⟨byte, d.offset⟩
      rw [hJoin] at hSame
      rw [chunk_completed hByte hWaits hSame, release_map hf, ih]
  | @bad d _ high byte _ error hByte hPending hJoin =>
      have hWaits := congrArg (Option.map (Nibble.map f)) hPending
      have hMoved := Nibble.join_map f high ⟨byte, d.offset⟩
      rw [hJoin] at hMoved
      rw [chunk_bad hByte hWaits hMoved, release_map hf]
      rfl

/-- A chunk is decoded alike with other counts, to the same output. -/
theorem chunk_map (d : Decoder Count) (out : Array UInt8) (text : List UInt8) :
    (d.map f g).chunk out text = (d.chunk out text).map f g :=
  (reads_chunk d out text).map hf hg

theorem Usage.call_map (u : Usage Count) (call : Call) :
    (u.map f g).call call = (u.call call).map f g := by
  cases call with
  | chunk out text =>
      simp only [Usage.call, Usage.map, chunk_map hf hg, waiting_map, List.map_append]
      rfl
  | finish =>
      simp only [Usage.call, Usage.map, finish_map, List.map_append]
      rfl

/-- A whole history of calls goes along with a map of the counts. -/
theorem Usage.calls_map (u : Usage Count) (calls : List Call) :
    (u.map f g).calls calls = (u.calls calls).map f g :=
  List.foldl_hom (Usage.map f g) (call_map hf hg)

end Chunks

/-- A bad pair is gone when it is reported. -/
theorem Reads.pending_eq_none {Count : Type} [Add Count] [OfNat Count 0] [OfNat Count 1]
    {d : Decoder Count} {out : Array UInt8} {text : List UInt8} {result : Decoded Count}
    (reads : Reads d out text result) (hFault : result.fault ≠ none) :
    result.decoder.pending = none := by
  induction reads with
  | nil d out => exact absurd rfl hFault
  | newline _ ih => exact ih hFault
  | first _ _ _ ih => exact ih hFault
  | completed _ _ _ _ ih => exact ih hFault
  | bad => rfl

namespace Usage

/-- The history of a new decoder that counts in words is that of one that counts in
numbers, with every number taken as a word. -/
theorem calls_word (calls : List Call) : Usage.calls ({} : Usage UInt64) calls =
    Usage.map Nat.toUInt64 Nat.toUInt64 (Usage.calls {} calls) := by
  -- A word that is full starts over, so one more in numbers is one more in words.
  have hSucc (n : Nat) : (n + 1).toUInt64 = n.toUInt64 + 1 := UInt64.ofNat_add n 1
  rw [← calls_map hSucc hSucc]
  rfl

/-- The history of a decoder in which no digit waits is that of a new one, with all
that was taken before in front of it. -/
theorem calls_of_pending {d : Decoder UInt64} (hPending : d.pending = none)
    (calls : List Call) : Usage.calls { decoder := d } calls =
      Usage.map (d.offset + ·) (d.newlines + ·) (Usage.calls ({} : Usage UInt64) calls) := by
  have hSucc (start n : UInt64) : start + (n + 1) = start + n + 1 := (UInt64.add_assoc _ _ _).symm
  have hStart : ({ decoder := d } : Usage UInt64) =
      Usage.map (d.offset + ·) (d.newlines + ·) ({} : Usage UInt64) := by
    cases d
    cases hPending
    simp [Usage.map, Decoder.map]
  rw [hStart, calls_map (hSucc d.offset) (hSucc d.newlines)]

/-- What a new decoder counts in words are places in what it has taken. -/
theorem offsets_le (calls : List Call) :
    let new := Usage.calls ({} : Usage UInt64) calls
    new.decoder.offset.toNat ≤ new.taken.length ∧
    new.decoder.newlines.toNat ≤ new.taken.count newline ∧
    (∀ nibble, new.decoder.pending = some nibble → nibble.offset.toNat ≤ new.taken.length) ∧
    ∀ error ∈ new.faults, error.offset.toNat ≤ new.taken.length := by
  have hMod (n : Nat) : n.toUInt64.toNat ≤ n := by
    rw [Nat.toUInt64, UInt64.toNat_ofNat']
    exact Nat.mod_le ..
  obtain ⟨stands, _, within⟩ := accounted_new.calls calls
  rw [calls_word]
  refine ⟨?_, ?_, ?_, ?_⟩
  · exact (hMod _).trans stands.offset_eq.le
  · exact (hMod _).trans stands.newlines_eq.le
  · intro nibble hPending
    obtain ⟨found, hFound, rfl⟩ := Option.map_eq_some_iff.mp hPending
    obtain ⟨_, before, after, hTaken, hLength, _⟩ := stands.waits found hFound
    refine (hMod _).trans ?_
    have hTaken : (Usage.calls {} calls).taken = before ++ found.digit :: after := hTaken
    simp only [Usage.map, hTaken, List.length_append]
    omega
  · intro error hError
    rw [faults_map, List.mem_map] at hError
    obtain ⟨found, hFound, rfl⟩ := hError
    exact (hMod _).trans (within found hFound).offset_lt.le

end Usage

/-- Words are added as numbers as long as the sum fits into a word. -/
theorem toNat_add_of_le {start word : UInt64} {bound : Nat} (hWord : word.toNat ≤ bound)
    (hFits : start.toNat + bound < UInt64.size) :
    (start + word).toNat = start.toNat + word.toNat := by
  rw [UInt64.toNat_add]
  exact Nat.mod_eq_of_lt (Nat.lt_of_le_of_lt (Nat.add_le_add_left hWord _) hFits)

/-- A reported bad digit and a finish leave no digit waiting. From there on, and
wherever else no digit waits, a decoder answers all further calls as a new one
does, errors among them included: it appends the same bytes, finds the same bad
digits and drops the same digits. Only their places count what was taken before,
and so do its own offset and its newlines. As the calls are any calls, this holds
after each of them. The counts are words of 64 bits: they are added as such, and
as numbers until all that was ever taken is too much for a word. -/
theorem calls_restart (d : Decoder UInt64) :
    (∀ out text, (d.chunk out text).fault ≠ none → (d.chunk out text).decoder.pending = none) ∧
    d.finish.1.pending = none ∧
    (d.pending = none → ∀ calls : List Call,
      let used : Usage UInt64 := Usage.calls { decoder := d } calls
      let new : Usage UInt64 := Usage.calls {} calls
      used.taken = new.taken ∧
      used.answers = new.answers.map (Answer.map (d.offset + ·)) ∧
      used.decoder.pending = new.decoder.pending.map (Nibble.map (d.offset + ·)) ∧
      used.decoder.offset = d.offset + new.decoder.offset ∧
      used.decoder.newlines = d.newlines + new.decoder.newlines ∧
      (d.offset.toNat + new.taken.length < UInt64.size →
        used.decoder.offset.toNat = d.offset.toNat + new.decoder.offset.toNat ∧
        (∀ nibble, new.decoder.pending = some nibble →
          (d.offset + nibble.offset).toNat = d.offset.toNat + nibble.offset.toNat) ∧
        ∀ error ∈ new.faults,
          (d.offset + error.offset).toNat = d.offset.toNat + error.offset.toNat) ∧
      (d.newlines.toNat + new.taken.count newline < UInt64.size →
        used.decoder.newlines.toNat = d.newlines.toNat + new.decoder.newlines.toNat)) := by
  refine ⟨?_, rfl, ?_⟩
  · intro out text hFault
    exact (reads_chunk d out text).pending_eq_none hFault
  · intro hPending calls used new
    obtain ⟨hOffset, hNewlines, hWaiting, hFaults⟩ := Usage.offsets_le calls
    have hUsed : used = Usage.map (d.offset + ·) (d.newlines + ·) new :=
      Usage.calls_of_pending hPending calls
    rw [hUsed]
    refine ⟨rfl, rfl, rfl, rfl, rfl, fun hFits => ⟨?_, ?_, ?_⟩, ?_⟩
    · exact toNat_add_of_le hOffset hFits
    · exact fun nibble hNibble => toNat_add_of_le (hWaiting nibble hNibble) hFits
    · exact fun error hError => toNat_add_of_le (hFaults error hError) hFits
    · exact toNat_add_of_le hNewlines

/-- A decoder has met a bad pair in its fourth and fifth byte. It meets another
one, of which a chunk holds the first half alone. -/
theorem calls_restart_after_fault :
    let decoded : Decoded UInt64 := chunk {} #[] [52, 97, 10, 48, 103, 55]
    let calls : List Call := [.chunk #[] [120], .chunk #[] [10, 49, 50], .finish]
    let used : Usage UInt64 := Usage.calls { decoder := decoded.decoder } calls
    let new : Usage UInt64 := Usage.calls {} calls
    decoded.fault = some ⟨103, 4⟩ ∧ decoded.decoder.pending = none ∧
      used.answers = [.decoded [] none, .decoded [] (some ⟨120, 5⟩), .finished none] ∧
      (decoded.decoder.offset.toNat + new.taken.length < UInt64.size ∧
        used.decoder.offset.toNat = decoded.decoder.offset.toNat + new.decoder.offset.toNat) ∧
      (decoded.decoder.newlines.toNat + new.taken.count newline < UInt64.size ∧
        used.decoder.newlines.toNat = 1 + new.decoder.newlines.toNat) := by
  intro decoded calls used new
  have hFault : decoded.fault = some ⟨103, 4⟩ := by decide
  have hPending : decoded.decoder.pending = none :=
    (calls_restart {}).1 _ _ (by rw [hFault]; exact Option.some_ne_none _)
  have hBytes : decoded.decoder.offset.toNat + new.taken.length < UInt64.size := by
    decide +kernel
  have hNewlines : decoded.decoder.newlines.toNat + new.taken.count newline < UInt64.size := by
    decide +kernel
  obtain ⟨-, hAnswers, -, -, -, hOffset, hLines⟩ :=
    (calls_restart decoded.decoder).2.2 hPending calls
  refine ⟨hFault, hPending, hAnswers.trans ?_, ⟨hBytes, (hOffset hBytes).1⟩, hNewlines,
    hLines hNewlines⟩
  decide

/-- A count that does not fit into a word starts over. -/
example : (chunk ({ offset := 18446744073709551615 } : Decoder UInt64) #[] [52, 103]).fault =
    some ⟨103, 0⟩ := by decide

end Decoder

end HexFilter
