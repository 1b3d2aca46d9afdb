import HexFilter.Proofs.Counting
import HexFilter.Proofs.Timing

/-! The summary of a transfer that ended well, against what was delivered and
what was accepted: nothing but the number of chunks tells how the input was
cut, and the summary passes its own check. -/
namespace HexFilter

namespace Log

/-- No chunk is empty. -/
theorem chunks_le_length (log : Log) : log.chunks ≤ log.delivered.length := by
  induction log with
  | nil => exact Nat.le_refl _
  | cons event rest ih =>
      have hOne : chunks [event] ≤ event.delivered.length := by
        rw [chunks_singleton]
        cases event.delivered <;> simp
      rw [← List.singleton_append, chunks_append, delivered_append, List.length_append,
        delivered_singleton]
      exact Nat.add_le_add hOne ih

variable {log : Log}

/-- A complete encoding has put out two digits for each byte and one newline. -/
theorem Complete.length_accepted (complete : Complete .encode log) :
    log.accepted.length = 2 * log.delivered.length + 1 := by
  rw [complete.accepted_eq]
  simp [ideal, complete.ended, Text.length_hexText]

/-- The bytes of a decoded text are newlines, pairs that gave a byte each, and at
most one digit over. -/
theorem Complete.length_delivered (complete : Complete .decode log) :
    log.delivered.length = log.delivered.count newline + 2 * log.accepted.length +
      (log.delivered.length - log.delivered.count newline) % 2 := by
  have hLength := Decoder.length_of_fault_none complete.fault_eq_none
  have hWaiting := Decoder.length_waiting_le (Decoder.decoded log.delivered).decoder
  have hAccepted : log.accepted.length = (Text.readable log.delivered).length := by
    rw [complete.accepted_eq]
    rfl
  omega

theorem Complete.tally_encode (complete : Complete .encode log) : log.tally .encode =
    { chunksRead := log.chunks.toUInt64
      bytesIn := log.delivered.length.toUInt64
      bytesOut := log.accepted.length.toUInt64 } := by
  rw [complete.accepted_eq]
  rfl

theorem Complete.tally_decode (complete : Complete .decode log) : log.tally .decode =
    { chunksRead := log.chunks.toUInt64
      bytesIn := log.delivered.length.toUInt64
      bytesOut := log.accepted.length.toUInt64
      newlinesSkipped := (log.delivered.count newline).toUInt64
      pairsDecoded := log.accepted.length.toUInt64
      danglingNibble := (log.delivered.length - log.delivered.count newline) % 2 == 1 } := by
  rw [complete.accepted_eq]
  simp [tally, complete.ended]

end Log

section Numbers

variable {mode : Mode} {log : Log}

theorem Log.bytesIn_tally : (log.tally mode).bytesIn = log.delivered.length.toUInt64 := by
  cases mode <;> rfl

theorem Log.chunksRead_tally : (log.tally mode).chunksRead = log.chunks.toUInt64 := by
  cases mode <;> rfl

/-- A complete transfer has counted what the sink has accepted. -/
theorem Log.Complete.bytesOut_tally (complete : log.Complete mode) :
    (log.tally mode).bytesOut = log.accepted.length.toUInt64 := by
  rw [complete.accepted_eq]
  cases mode <;> rfl

/-- Half a word of input makes no more than a word of output. -/
theorem Log.Complete.length_accepted_lt (complete : log.Complete mode)
    (hSize : log.delivered.length < UInt64.size / 2) : log.accepted.length < UInt64.size := by
  cases mode with
  | encode =>
      rw [complete.length_accepted]
      omega
  | decode =>
      have hLength := complete.length_delivered
      omega

/-- No count overflows on an input of less than half the size of a word. -/
theorem Log.Complete.toNat_tally (complete : log.Complete mode)
    (hSize : log.delivered.length < UInt64.size / 2) :
    (log.tally mode).bytesIn.toNat = log.delivered.length ∧
      (log.tally mode).chunksRead.toNat = log.chunks ∧
      (log.tally mode).bytesOut.toNat = log.accepted.length := by
  have hChunks := log.chunks_le_length
  rw [bytesIn_tally, chunksRead_tally, complete.bytesOut_tally]
  exact ⟨UInt64.toNat_ofNat_of_lt' (by omega), UInt64.toNat_ofNat_of_lt' (by omega),
    UInt64.toNat_ofNat_of_lt' (complete.length_accepted_lt hSize)⟩

/-- The newlines of a text that fits into a word are counted exactly. -/
theorem Log.Complete.toNat_newlinesSkipped (complete : log.Complete .decode)
    (hSize : log.delivered.length < UInt64.size) :
    (log.tally .decode).newlinesSkipped.toNat = log.delivered.count newline := by
  have hCount : log.delivered.count newline ≤ log.delivered.length := List.count_le_length
  rw [complete.tally_decode]
  exact UInt64.toNat_ofNat_of_lt' (Nat.lt_of_le_of_lt hCount hSize)

/-- There are no more newlines in a text than bytes. -/
theorem Log.Complete.newlinesSkipped_le_bytesIn (complete : log.Complete mode)
    (hSize : log.delivered.length < UInt64.size) :
    (log.tally mode).newlinesSkipped ≤ (log.tally mode).bytesIn := by
  rw [UInt64.le_iff_toNat_le]
  cases mode with
  | encode => exact Nat.zero_le _
  | decode =>
      have hIn : (log.tally .decode).bytesIn.toNat = log.delivered.length :=
        UInt64.toNat_ofNat_of_lt' hSize
      rw [complete.toNat_newlinesSkipped hSize, hIn]
      exact List.count_le_length

end Numbers

section Summaries

variable {mode : Mode} {log : Log}

/-- The bytes are accounted for, whatever their number: a word that overflows
does so on both sides. -/
theorem Log.Complete.isBalanced (complete : log.Complete mode) (watch : Stopwatch)
    (now : Duration) : (Summary.of mode (log.tally mode) watch now).isBalanced := by
  cases mode with
  | encode =>
      simp [Summary.isBalanced, Summary.of, complete.tally_encode, complete.length_accepted]
  | decode =>
      have hDigits (rest : Nat)
          (hRest : (log.delivered.length - log.delivered.count newline) % 2 = rest) :
          log.delivered.length.toUInt64 - (log.delivered.count newline).toUInt64 =
            2 * log.accepted.length.toUInt64 + rest.toUInt64 := by
        have hLength := complete.length_delivered
        rw [hRest, Nat.add_assoc, Nat.add_comm] at hLength
        rw [hLength, Nat.toUInt64_eq, UInt64.ofNat_add, UInt64.ofNat_add, UInt64.ofNat_mul]
        exact UInt64.add_sub_cancel _ _
      simp only [Summary.isBalanced, Summary.of, complete.tally_decode]
      rcases Nat.mod_two_eq_zero_or_one (log.delivered.length - log.delivered.count newline) with
        hEven | hOdd
      · simp [hEven, hDigits 0 hEven]
      · simp [hOdd, hDigits 1 hOdd]

/-- Two texts of the same bytes are counted alike but for their chunks. -/
theorem Log.Complete.tally_eq {other : Log} (complete : log.Complete mode)
    (hOther : other.Complete mode) (hDelivered : other.delivered = log.delivered) :
    other.tally mode = { log.tally mode with chunksRead := (other.tally mode).chunksRead } := by
  have hEnded : other.ended = log.ended := hOther.ended.trans complete.ended.symm
  cases mode <;> simp [tally, ideal, hDelivered, hEnded]

/-- The ratio has no part in how the input was cut, nor in the time. -/
theorem Summary.expansionRatio_of {tally other : Tally} (mode : Mode)
    (hTally : other = { tally with chunksRead := other.chunksRead }) (watch watch' : Stopwatch)
    (now now' : Duration) :
    (of mode other watch' now').expansionRatio = (of mode tally watch now).expansionRatio := by
  have hIn : other.bytesIn = tally.bytesIn := by rw [hTally]
  have hOut : other.bytesOut = tally.bytesOut := by rw [hTally]
  simp only [of, hIn, hOut]

/-- A summary passes its own check if its stages took no longer than it says. -/
theorem Summary.isSane_eq {s : Summary} {total : Duration} (hTotal : s.times.total = .ok total)
    (hElapsed : total ≤ s.elapsed) (hBalanced : s.isBalanced) : s.isSane = .ok true := by
  rw [isSane, hTotal]
  simp [Except.map, hElapsed, hBalanced]

end Summaries

/-- A transfer that ends well has counted what was delivered and what was
accepted, and its summary passes its own check. Of the counts only that of the
chunks depends on how the input came in. -/
theorem summary_accounts_for_transfer (settings : Settings) (hValid : settings.validate = .ok ())
    (source : Source) (sink : Sink) (clock : Clock) :
    let (result, session) := transfer settings { source, sink } clock
    let log : Log := session.channel.log.toList
    let text := log.delivered
    let newlines := text.count newline
    ∀ summary, result = .ok summary → text.length < UInt64.size / 2 →
      let tally := summary.tally
      (tally.bytesIn.toNat = text.length ∧ tally.chunksRead.toNat = log.chunks ∧
        tally.bytesOut.toNat = log.accepted.length) ∧
      (settings.mode = .encode → tally.bytesOut.toNat = 2 * text.length + 1 ∧
        tally.newlinesSkipped = 0 ∧ tally.pairsDecoded = 0 ∧ tally.danglingNibble = false) ∧
      (settings.mode = .decode → tally.newlinesSkipped.toNat = newlines ∧
        tally.pairsDecoded = tally.bytesOut ∧
        tally.bytesOut.toNat = (text.length - newlines) / 2 ∧
        (tally.danglingNibble ↔ (text.length - newlines) % 2 = 1)) ∧
      tally.newlinesSkipped ≤ tally.bytesIn ∧ summary.isSane = .ok true ∧
      (∀ (other : Settings) (source' : Source) (sink' : Sink) (clock' : Clock),
        other.validate = .ok () → other.mode = settings.mode →
        let (result', session') := transfer other { source := source', sink := sink' } clock'
        ∀ summary', result' = .ok summary' → Log.delivered session'.channel.log.toList = text →
          summary'.mode = summary.mode ∧ summary'.expansionRatio = summary.expansionRatio ∧
          summary'.tally = { tally with chunksRead := summary'.tally.chunksRead }) := by
  rcases hRun : transfer settings { source, sink } clock with ⟨result, session⟩
  dsimp only
  rintro summary rfl hSize
  obtain ⟨complete, watch, now, hSummary⟩ := transfer_summary hValid hRun
  obtain ⟨total, hTotal, hElapsed⟩ := transfer_inTime hRun
  have hTally : summary.tally = Log.tally settings.mode session.channel.log.toList :=
    congrArg Summary.tally hSummary
  have hOut := (complete.toNat_tally hSize).2.2
  rw [hTally]
  refine ⟨complete.toNat_tally hSize, ?_, ?_, ?_, ?_, ?_⟩
  · intro hMode
    rw [hMode] at complete hOut ⊢
    refine ⟨hOut.trans complete.length_accepted, rfl, rfl, rfl⟩
  · intro hMode
    rw [hMode] at complete hOut ⊢
    have hLength := complete.length_delivered
    refine ⟨complete.toNat_newlinesSkipped (by omega), rfl, by omega, ?_⟩
    simp [complete.tally_decode]
  · exact complete.newlinesSkipped_le_bytesIn (by omega)
  · exact Summary.isSane_eq hTotal hElapsed (hSummary ▸ complete.isBalanced watch now)
  · intro other source' sink' clock' hOther hMode
    rcases hRun' : transfer other { source := source', sink := sink' } clock' with
      ⟨result', session'⟩
    rintro summary' rfl hDelivered
    obtain ⟨complete', watch', now', hSummary'⟩ := transfer_summary hOther hRun'
    rw [hMode] at complete' hSummary'
    have hSame := complete.tally_eq complete' hDelivered
    rw [hSummary, hSummary']
    exact ⟨rfl, Summary.expansionRatio_of settings.mode hSame watch watch' now now', hSame⟩

theorem summary_accounts_for_transfer_left_over :
    let settings : Settings := { mode := .decode, chunkSize := 3 }
    let source : Source := [.data [52, 97, 10, 53] (some 2)]
    let (result, session) := transfer settings { source } {}
    ∃ summary, settings.validate = .ok () ∧ result = .ok summary ∧
      Log.delivered session.channel.log.toList = [52, 97, 10, 53] ∧
      summary.tally.bytesIn.toNat = 4 ∧ summary.tally.newlinesSkipped.toNat = 1 ∧
      summary.tally.bytesOut.toNat = 1 ∧ summary.tally.danglingNibble ∧
      summary.isSane = .ok true := by
  intro settings source
  have hValid : settings.validate = .ok () := by decide
  have h := summary_accounts_for_transfer settings hValid source {} {}
  have hText : Log.delivered (transfer settings { source } {}).2.channel.log.toList =
      [52, 97, 10, 53] := by decide +kernel
  have hOk : (transfer settings { source } {}).1.isOk := by decide +kernel
  rcases hRun : transfer settings { source } {} with ⟨result, session⟩
  rw [hRun] at h hText hOk
  cases result with
  | error failure => cases hOk
  | ok summary =>
      obtain ⟨⟨hIn, _⟩, _, hDecode, _, hSane, _⟩ := h summary rfl (by rw [hText]; decide)
      obtain ⟨hNewlines, _, hOut, hLeft⟩ := hDecode rfl
      rw [hText] at hIn hNewlines hOut hLeft
      exact ⟨summary, hValid, rfl, hText, hIn, hNewlines, hOut, hLeft.mpr (by decide), hSane⟩

end HexFilter
