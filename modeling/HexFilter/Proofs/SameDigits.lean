import HexFilter.Proofs.Accounts
import HexFilter.Proofs.Chunking
import HexFilter.Proofs.Places

/-! Texts that differ in their newlines and in the case of their letters. They say
the same bytes, and where one of them has a bad digit, so has the other. -/
namespace HexFilter

/-- Digit for digit the same, but for the case of the letters from A to F. Where
the newlines stand does not matter. -/
def Text.SameDigits (text text' : List UInt8) : Prop :=
  (Text.digits text).map Digit.lower = (Text.digits text').map Digit.lower

instance (text text' : List UInt8) : Decidable (Text.SameDigits text text') :=
  inferInstanceAs (Decidable ((Text.digits text).map Digit.lower = _))

namespace Text

/-- A pair stands for the same byte in either letter case. -/
theorem byte?_lower (pair : UInt8 × UInt8) :
    byte? (Prod.map Digit.lower Digit.lower pair) = byte? pair := by
  simp only [byte?, Prod.map, Digit.isHex_lower, Digit.number_lower]

theorem pairs_map (f : UInt8 → UInt8) (digits : List UInt8) :
    pairs (digits.map f) = (pairs digits).map (Prod.map f f) := by
  fun_induction pairs digits with
  | case1 => rfl
  | case2 => rfl
  | case3 high low rest ih => simp only [List.map_cons, pairs, ih, Prod.map]

/-- Digits are read alike in either letter case. -/
theorem bytes_map_lower (digits : List UInt8) : bytes (digits.map Digit.lower) = bytes digits := by
  rw [bytes, pairs_map, List.takeWhile_map, List.filterMap_map, bytes]
  simp only [Function.comp_def, byte?_lower]

variable {text text' : List UInt8}

/-- Texts with the same digits say the same. -/
theorem SameDigits.readable_eq (same : SameDigits text text') : readable text' = readable text := by
  rw [readable, readable, ← bytes_map_lower, ← same, bytes_map_lower]

theorem SameDigits.length_digits_eq (same : SameDigits text text') :
    (digits text').length = (digits text).length := by
  simpa using congrArg List.length same.symm

end Text

namespace Decoder

/-- The bad digit of a text, told by its number and without letter case. -/
theorem fault_decoded_lower (text : List UInt8) :
    (decoded text).fault.map (fun error => (Digit.lower error.byte, Text.rank text error.offset)) =
      (Text.paired ((Text.digits text).map Digit.lower).zipIdx).find?
        fun digit => decide (¬ Digit.IsHex digit.1) := by
  have hRank := congrArg (Option.map (Prod.map Digit.lower id)) (fault_decoded_by_rank text)
  rw [Option.map_map] at hRank
  rw [List.zipIdx_map, ← Text.map_paired, List.find?_map]
  simp only [Function.comp_def, Prod.map, Digit.isHex_lower, id] at hRank ⊢
  exact hRank

end Decoder

namespace Text.SameDigits

variable {text text' : List UInt8}

/-- Texts with the same digits have the same first bad digit, of the same rank among
the digits. -/
theorem fault_eq (same : SameDigits text text') :
    (Decoder.decoded text').fault.map
        (fun error => (Digit.lower error.byte, rank text' error.offset)) =
      (Decoder.decoded text).fault.map
        (fun error => (Digit.lower error.byte, rank text error.offset)) := by
  rw [Decoder.fault_decoded_lower, Decoder.fault_decoded_lower, same]

theorem fault_eq_none_iff (same : SameDigits text text') :
    (Decoder.decoded text').fault = none ↔ (Decoder.decoded text).fault = none := by
  have hFault := congrArg Option.isNone same.fault_eq
  rwa [Option.isNone_map, Option.isNone_map, Bool.eq_iff_iff, Option.isNone_iff_eq_none,
    Option.isNone_iff_eq_none] at hFault

/-- The bad digits of the two texts are the same byte, and have the same place
once the newlines in front of them are taken off. -/
theorem errors_eq (same : SameDigits text text') {error error' : InvalidDigit}
    (hFault : (Decoder.decoded text).fault = some error)
    (hFault' : (Decoder.decoded text').fault = some error') :
    error'.byte = error.byte ∧
      error'.offset - (text'.take error'.offset).count newline =
        error.offset - (text.take error.offset).count newline := by
  have hSame := same.fault_eq
  rw [hFault, hFault', Option.map_some, Option.map_some, Option.some_inj, Prod.mk.injEq] at hSame
  obtain ⟨hByte, hRank⟩ := hSame
  have hBad := ((Decoder.reads_chunk {} #[] text).within Decoder.standsAt_new hFault).not_isHex
  have hBad' := ((Decoder.reads_chunk {} #[] text').within Decoder.standsAt_new hFault').not_isHex
  rw [Digit.lower_of_not_isHex hBad, Digit.lower_of_not_isHex hBad'] at hByte
  refine ⟨hByte, ?_⟩
  rw [sub_count_newline (Decoder.decode_take_offset hFault).1.le,
    sub_count_newline (Decoder.decode_take_offset hFault').1.le, hRank]

/-- Of two texts that are decoded to their ends, the digits are counted alike. -/
theorem tally_alike {log log' : Log} (complete : log.Complete .decode)
    (complete' : log'.Complete .decode) (same : SameDigits log.delivered log'.delivered) :
    (log'.tally .decode).pairsDecoded = (log.tally .decode).pairsDecoded ∧
      (log'.tally .decode).bytesOut = (log.tally .decode).bytesOut ∧
      (log'.tally .decode).danglingNibble = (log.tally .decode).danglingNibble := by
  have hAccepted : log'.accepted = log.accepted := by
    rw [complete'.accepted_eq, complete.accepted_eq]
    exact same.readable_eq
  have hDigits : log'.delivered.length - log'.delivered.count newline =
      log.delivered.length - log.delivered.count newline := by
    have hLength := length_digits log.delivered
    have hLength' := length_digits log'.delivered
    have hSame := same.length_digits_eq
    omega
  rw [complete.tally_decode, complete'.tally_decode, hAccepted, hDigits]
  exact ⟨rfl, rfl, rfl⟩

end Text.SameDigits

/-- Newlines and letter case carry nothing. Texts with the same digits may be cut
in any two ways: the sink accepts the same bytes, and both decodings end well,
with the same counts of pairs and bytes and the same digit left over or none, or
both fail at the same bad digit. -/
theorem sameDigits_decode_alike {text text' : List UInt8} (same : Text.SameDigits text text')
    {chunkSize chunkSize' : Nat} (hSize : 1 ≤ chunkSize) (hMax : chunkSize ≤ Settings.maxChunkSize)
    (hSize' : 1 ≤ chunkSize') (hMax' : chunkSize' ≤ Settings.maxChunkSize) (trace trace' : Bool)
    {source source' : Source} (hSource : source.HandsOut text) (hSource' : source'.HandsOut text')
    {sink sink' : Sink} (hSink : sink.Willing) (hSink' : sink'.Willing) (clock clock' : Clock) :
    let (result, session) :=
      transfer { mode := .decode, chunkSize, trace } { source, sink } clock
    let (result', session') :=
      transfer { mode := .decode, chunkSize := chunkSize', trace := trace' }
        { source := source', sink := sink' } clock'
    session'.channel.accepted = session.channel.accepted ∧
    ((∃ summary summary', result = .ok summary ∧ result' = .ok summary' ∧
        summary'.tally.pairsDecoded = summary.tally.pairsDecoded ∧
        summary'.tally.bytesOut = summary.tally.bytesOut ∧
        summary'.tally.danglingNibble = summary.tally.danglingNibble) ∨
      (∃ error error', result = .error (.codec error) ∧ result' = .error (.codec error') ∧
        error'.byte = error.byte ∧
        error'.offset - (text'.take error'.offset).count newline =
          error.offset - (text.take error.offset).count newline)) := by
  have hValid : Settings.validate { mode := .decode, chunkSize, trace } = .ok () :=
    Settings.validate_eq_ok_iff.mpr ⟨hSize, hMax⟩
  have hValid' : Settings.validate
      { mode := .decode, chunkSize := chunkSize', trace := trace' } = .ok () :=
    Settings.validate_eq_ok_iff.mpr ⟨hSize', hMax'⟩
  rcases hRun : transfer { mode := .decode, chunkSize, trace } { source, sink } clock with
    ⟨result, session⟩
  rcases hRun' : transfer { mode := .decode, chunkSize := chunkSize', trace := trace' }
    { source := source', sink := sink' } clock' with ⟨result', session'⟩
  have hAccepted : session'.channel.accepted = session.channel.accepted := by
    rw [transfer_accepts hValid hSource hSink hRun, transfer_accepts hValid' hSource' hSink' hRun']
    exact same.readable_eq
  dsimp only
  refine ⟨hAccepted, ?_⟩
  have settles := transfer_settles hValid hSource hSink hRun
  have settles' := transfer_settles hValid' hSource' hSink' hRun'
  rcases settles with ⟨summary, rfl, hText, complete⟩ | ⟨error, rfl, -, hFault, -, -⟩
  · have hFault : (Decoder.decoded text).fault = none := hText ▸ complete.fault_eq_none
    rcases settles' with ⟨summary', rfl, hText', complete'⟩ | ⟨error', -, -, hFault', -, -⟩
    · obtain ⟨-, watch, now, rfl⟩ := transfer_summary hValid hRun
      obtain ⟨-, watch', now', rfl⟩ := transfer_summary hValid' hRun'
      rw [← hText, ← hText'] at same
      exact .inl ⟨_, _, rfl, rfl, same.tally_alike complete complete'⟩
    · rw [same.fault_eq_none_iff.mpr hFault] at hFault'
      cases hFault'
  · rcases settles' with ⟨summary', -, hText', complete'⟩ | ⟨error', rfl, -, hFault', -, -⟩
    · have hFault' : (Decoder.decoded text').fault = none := hText' ▸ complete'.fault_eq_none
      rw [same.fault_eq_none_iff.mp hFault'] at hFault
      cases hFault
    · exact .inr ⟨error, error', rfl, rfl, same.errors_eq hFault hFault'⟩

/-- A letter in either case, and newlines in a pair and right before the bad digit,
which move it by two places. -/
theorem sameDigits_decode_alike_moved :
    let text : List UInt8 := [52, 65, 52, 103]
    let text' : List UInt8 := [52, 10, 97, 52, 10, 103]
    let source : Source := [.data [52, 65, 52, 103] none]
    let source' : Source := [.data [52, 10] (some 1), .data [97, 52, 10, 103] none, .ended]
    (Text.SameDigits text text' ∧ source.HandsOut text ∧ source'.HandsOut text' ∧
      Sink.Willing {}) ∧
    (let (result, session) := transfer { mode := .decode, chunkSize := 4 } { source } {}
    let (result', session') :=
      transfer { mode := .decode, chunkSize := 3 } { source := source' } {}
    result = .error (.codec ⟨103, 3⟩) ∧
      (∃ error', result' = .error (.codec error') ∧ error'.byte = 103 ∧
        error'.offset - (text'.take error'.offset).count newline = 3) ∧
      session.channel.accepted = [74] ∧ session'.channel.accepted = [74]) := by
  intro text text' source source'
  have same : Text.SameDigits text text' := by decide
  have hSource : source.HandsOut text := .data (.inr (by decide)) .nothing
  have hSource' : source'.HandsOut text' :=
    .data (.inr (by decide)) (.data (.inr (by decide)) (.ended _))
  have hSink : Sink.Willing {} := ⟨by simp, by simp, rfl⟩
  have hFailed : (transfer { mode := .decode, chunkSize := 4 } { source } {}).1 =
      .error (.codec ⟨103, 3⟩) := by decide +kernel
  have hOut : (transfer { mode := .decode, chunkSize := 4 } { source } {}).2.channel.accepted =
      [74] := by decide +kernel
  obtain ⟨hAccepted, ⟨summary, -, hOk, -⟩ | ⟨error, error', hError, hError', hByte, hPlace⟩⟩ :=
    sameDigits_decode_alike same (by decide : 1 ≤ 4) (by decide) (by decide : 1 ≤ 3) (by decide)
      false false hSource hSource' hSink hSink {} {}
  · cases hFailed.symm.trans hOk
  · cases hFailed.symm.trans hError
    exact ⟨⟨same, hSource, hSource', hSink⟩, hFailed, ⟨error', hError', hByte, hPlace⟩, hOut,
      hAccepted.trans hOut⟩

end HexFilter
