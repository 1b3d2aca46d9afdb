import HexFilter.Proofs.Accounts
import HexFilter.Proofs.Chunking

/-! Encoded bytes decode to themselves, also when both directions run in chunks.
The two runs share nothing but the text between them: the decoding may cut it
anywhere, also between the two digits of a byte. -/
namespace HexFilter

/-- Where there is no bad pair, a transfer on a willing channel ends well. -/
theorem transfer_finishes {settings : Settings} (hValid : settings.validate = .ok ())
    {text : List UInt8} (hText : settings.mode = .decode → ¬ Text.Malformed text) {source : Source}
    (hSource : source.HandsOut text) {sink : Sink} (hSink : sink.Willing) {clock : Clock}
    {result : Except Failure Summary} {session : Session}
    (hRun : transfer settings { source, sink } clock = (result, session)) :
    ∃ summary, result = .ok summary ∧ Log.delivered session.channel.log.toList = text ∧
      Log.Complete settings.mode session.channel.log.toList := by
  rcases transfer_settles hValid hSource hSink hRun with hFinished | ⟨error, _, hMode, hFault, _⟩
  · exact hFinished
  · rw [(Decoder.fault_decoded_eq_none_iff text).mpr (hText hMode)] at hFault
    cases hFault

/-- What was encoded in any chunks comes back when the text is decoded in any
chunks, and the decoding has counted a pair for every byte and the one closing
newline. -/
theorem transfer_round_trip (bytes : List UInt8) (encodeSize decodeSize : Nat)
    (hEncodeSize : 1 ≤ encodeSize) (hEncodeMax : encodeSize ≤ Settings.maxChunkSize)
    (hDecodeSize : 1 ≤ decodeSize) (hDecodeMax : decodeSize ≤ Settings.maxChunkSize)
    (encodeTrace decodeTrace : Bool) {source : Source} (hSource : source.HandsOut bytes)
    {back : Source} (hBack : back.HandsOut (encode bytes)) {sink backSink : Sink}
    (hSink : sink.Willing) (hBackSink : backSink.Willing) (clock backClock : Clock) :
    let (encoded, encoding) := transfer
      { mode := .encode, chunkSize := encodeSize, trace := encodeTrace } { source, sink } clock
    let (decoded, decoding) := transfer
      { mode := .decode, chunkSize := decodeSize, trace := decodeTrace }
      { source := back, sink := backSink } backClock
    (∃ summary, encoded = .ok summary) ∧
    Log.accepted encoding.channel.log.toList = encode bytes ∧
    ∃ summary, decoded = .ok summary ∧ Log.accepted decoding.channel.log.toList = bytes ∧
      summary.tally.pairsDecoded = bytes.length.toUInt64 ∧
      (bytes.length < UInt64.size → summary.tally.pairsDecoded.toNat = bytes.length) ∧
      summary.tally.newlinesSkipped = 1 ∧ summary.tally.danglingNibble = false := by
  have hEncodeValid : Settings.validate
      { mode := .encode, chunkSize := encodeSize, trace := encodeTrace } = .ok () :=
    Settings.validate_eq_ok_iff.mpr ⟨hEncodeSize, hEncodeMax⟩
  have hDecodeValid : Settings.validate
      { mode := .decode, chunkSize := decodeSize, trace := decodeTrace } = .ok () :=
    Settings.validate_eq_ok_iff.mpr ⟨hDecodeSize, hDecodeMax⟩
  rcases hEncode : transfer { mode := .encode, chunkSize := encodeSize, trace := encodeTrace }
    { source, sink } clock with ⟨encoded, encoding⟩
  rcases hDecode : transfer { mode := .decode, chunkSize := decodeSize, trace := decodeTrace }
    { source := back, sink := backSink } backClock with ⟨decoded, decoding⟩
  obtain ⟨encodeSummary, rfl, hBytes, encodeComplete⟩ :=
    transfer_finishes hEncodeValid nofun hSource hSink hEncode
  obtain ⟨summary, rfl, hText, complete⟩ :=
    transfer_finishes hDecodeValid (fun _ => Text.not_malformed_encode bytes) hBack hBackSink
      hDecode
  dsimp only
  have hAccepted : Log.accepted decoding.channel.log.toList = bytes := by
    rw [complete.accepted_eq]
    simp only [Log.ideal, hText, Text.readable_encode]
  refine ⟨⟨_, rfl⟩, ?_, summary, rfl, hAccepted, ?_⟩
  · rw [encodeComplete.accepted_eq, encode_eq]
    simp [Log.ideal, hBytes, encodeComplete.ended]
  · obtain ⟨_, watch, now, rfl⟩ := transfer_summary hDecodeValid hDecode
    have hTally := Log.Complete.tally_decode complete
    rw [hAccepted, hText, Text.count_newline_encode, Text.length_encode] at hTally
    have hPairs := congrArg Tally.pairsDecoded hTally
    refine ⟨hPairs, ?_, congrArg Tally.newlinesSkipped hTally, ?_⟩
    · intro hSize
      exact (congrArg UInt64.toNat hPairs).trans (UInt64.toNat_ofNat_of_lt' hSize)
    · exact (congrArg Tally.danglingNibble hTally).trans (by simp)

/-- The encoding is cut in the middle of its bytes and the decoding in the middle
of its pairs, with interruptions on both ways. -/
theorem transfer_round_trip_in_pieces :
    let source : Source := [.data [74] none, .fail ⟨.interrupted, none⟩, .data [0, 255] (some 1)]
    let back : Source := [.data [52] none, .data [97, 48, 48, 102] (some 3),
      .fail ⟨.interrupted, none⟩, .data [102, 10] none, .ended]
    let sink : Sink := { writes := [.fail ⟨.interrupted, none⟩, .accept (some 1)] }
    source.HandsOut [74, 0, 255] ∧ back.HandsOut (encode [74, 0, 255]) ∧ sink.Willing ∧
    (let (_, encoding) := transfer { mode := .encode, chunkSize := 2 } { source, sink } {}
    let (decoded, decoding) := transfer { mode := .decode, chunkSize := 3 }
      { source := back, sink } {}
    Log.accepted encoding.channel.log.toList = encode [74, 0, 255] ∧
    ∃ summary, decoded = .ok summary ∧
      Log.accepted decoding.channel.log.toList = [74, 0, 255] ∧
      summary.tally.pairsDecoded.toNat = 3) := by
  intro source back sink
  have hSource : source.HandsOut [74, 0, 255] :=
    .data (.inr (by decide)) (.interrupted rfl (.data (.inr (by decide)) .nothing))
  have hBack : back.HandsOut (encode [74, 0, 255]) :=
    .data (.inr (by decide)) (.data (.inr (by decide))
      (.interrupted rfl (.data (.inr (by decide)) (.ended _))))
  have hSink : sink.Willing := by
    refine ⟨?_, by simp [sink], rfl⟩
    simp [sink, WriteStep.Willing, ChannelError.isInterrupted]
  refine ⟨hSource, hBack, hSink, ?_⟩
  obtain ⟨_, hEncoded, summary, hOk, hDecoded, _, hPairs, _⟩ :=
    transfer_round_trip [74, 0, 255] 2 3 (by decide) (by decide) (by decide) (by decide)
      false false hSource hBack hSink hSink {} {}
  exact ⟨hEncoded, summary, hOk, hDecoded, hPairs (by decide)⟩

end HexFilter
