import HexFilter.Proofs.Accounts
import HexFilter.Proofs.Places
import HexFilter.Proofs.Reread

/-! The reports of a transfer against its log and its result. They are made in
three places: when a transfer starts, when a text ends in the midst of a pair, and
on every way out. The phase tells which of them are made already. -/
namespace HexFilter

/-- The digit that has no partner when the text ends here. -/
def Text.leftOver (text : List UInt8) : Option UInt8 :=
  if (digits text).length % 2 = 1 then (digits text).getLast? else none

/-- A waiting digit is the last one of all that were taken. -/
theorem Decoder.StandsAt.getLast?_digits {d : Decoder} {past : List UInt8} {nibble : Nibble}
    (stands : d.StandsAt past) (hPending : d.pending = some nibble) :
    (Text.digits past).getLast? = some nibble.digit := by
  obtain ⟨hDigit, before, after, rfl, _, hAfter⟩ := stands.waits nibble hPending
  have hNone : Text.digits after = [] := by
    rw [Text.digits, List.filter_eq_nil_iff]
    intro byte hByte
    simp [hAfter byte hByte]
  rw [Text.digits_append, Text.digits_cons_of_ne hDigit, hNone, List.getLast?_concat]

/-- What a decoder drops at the end of a text without a bad pair. -/
theorem Decoder.finish_decoded {text : List UInt8} (hFault : (decoded text).fault = none) :
    (decoded text).decoder.finish.2 = Text.leftOver text := by
  have hSome := isSome_finish_decoded hFault
  have hLength := Text.length_digits text
  have hDigits : text.length - text.count newline = (Text.digits text).length := by omega
  have hFinish : (decoded text).decoder.finish.2 =
      (decoded text).decoder.pending.map Nibble.digit :=
    rfl
  rw [hDigits, hFinish] at hSome
  rw [hFinish, Text.leftOver]
  cases hPending : (decoded text).decoder.pending with
  | none =>
      rw [hPending] at hSome
      rw [if_neg (by simpa using hSome)]
      rfl
  | some nibble =>
      rw [hPending] at hSome
      rw [if_pos (by simpa using hSome), (standsAt_decoded hFault).getLast?_digits hPending]
      rfl

/-- The digit that a transfer drops, once the input has ended. -/
def Log.leftOver (mode : Mode) (log : Log) : Option UInt8 :=
  if mode = .decode ∧ log.ended then Text.leftOver log.delivered else none

/-- A digit is said to have been left over exactly if there is one. -/
theorem Log.Complete.isSome_leftOver {mode : Mode} {log : Log} (complete : log.Complete mode) :
    (log.leftOver mode).isSome = (log.tally mode).danglingNibble := by
  cases mode with
  | encode => rfl
  | decode =>
      have hSome := Decoder.isSome_finish_decoded complete.fault_eq_none
      rw [Decoder.finish_decoded complete.fault_eq_none] at hSome
      rw [complete.tally_decode, Log.leftOver, if_pos ⟨rfl, complete.ended⟩, hSome]

/-- The digit that a transfer drops is the last one that was delivered. -/
theorem Log.getLast?_of_leftOver {mode : Mode} {log : Log} {digit : UInt8}
    (h : log.leftOver mode = some digit) :
    mode = .decode ∧ (Text.digits log.delivered).getLast? = some digit := by
  unfold leftOver at h
  split at h
  · rename_i hDecode
    unfold Text.leftOver at h
    split at h
    · exact ⟨hDecode.1, h⟩
    · cases h
  · cases h

namespace Transfer

/-- The reports that follow the first one, in each phase. -/
def reports (mode : Mode) (t : Transfer) (log : Log) : List Notice :=
  match t.phase with
  | .closing => ((log.leftOver mode).map Notice.dropped).toList
  | .finished summary => ((log.leftOver mode).map Notice.dropped).toList ++ [.done summary]
  | .stopped failure => [.aborted log.delivered.length.toUInt64 failure]
  | .reading | .translating _ | .writing _ | .flushing _ => []

/-- A transfer whose reports are wanted and made. -/
structure Reported (settings : Settings) (t : Transfer) (log : Log) : Prop where
  loud : t.settings.trace
  notices_eq : t.notices = .started settings.mode settings.chunkSize :: t.reports settings.mode log

variable {settings : Settings} {t : Transfer} {log calls : Log}

/-- A report is made in the phase that it is expected in. -/
theorem reported_note (hLoud : t.settings.trace) {notice : Notice}
    (hNotices : t.notices ++ [notice] =
      .started settings.mode settings.chunkSize :: t.reports settings.mode log) :
    (t.note notice).Reported settings log := by
  rw [note, if_pos hLoud]
  exact ⟨hLoud, hNotices⟩

/-- A transfer that stops tells how many bytes were read. -/
theorem reported_stop (hLoud : t.settings.trace)
    (hNotices : t.notices = [.started settings.mode settings.chunkSize])
    (hTally : t.tally.bytesIn = log.delivered.length.toUInt64) (failure : Failure) :
    (t.stop failure).Reported settings log := by
  refine reported_note (t := { t with phase := .stopped failure }) hLoud ?_
  rw [hNotices, hTally]
  rfl

/-- When the input has ended the digit that is dropped is reported, and nothing
else. -/
theorem reported_endInput {past : Log} {limit : Nat} (hLoud : t.settings.trace)
    (hNotices : t.notices = [.started settings.mode settings.chunkSize])
    (hMode : t.codec.mode = settings.mode) (follows : t.codec.Follows past) :
    t.endInput.Reported settings (past ++ [.received limit []]) := by
  unfold endInput
  cases hCodec : t.codec with
  | encoder e => exact ⟨hLoud, hNotices⟩
  | decoder d =>
      have hDecode : settings.mode = .decode := by rw [← hMode, hCodec]; rfl
      rw [hCodec] at follows
      obtain ⟨rfl, hFault⟩ := follows
      have hLeft : Log.leftOver settings.mode (past ++ [.received limit []]) =
          (Decoder.decoded past.delivered).decoder.finish.2 := by
        rw [Decoder.finish_decoded hFault, Log.leftOver, if_pos ⟨hDecode, by simp [Event.isEnd]⟩]
        simp [Event.delivered]
      dsimp only
      cases hDropped : (Decoder.decoded past.delivered).decoder.finish.2 with
      | none =>
          rw [hDropped] at hLeft
          refine ⟨hLoud, ?_⟩
          simp only [reports, hLeft]
          exact hNotices
      | some digit =>
          rw [hDropped] at hLeft
          apply reported_note
          · exact hLoud
          · simp only [reports, hLeft, hNotices]
            rfl

theorem Reported.charge (reported : t.Reported settings log) (stage : Stage)
    (began ended : Duration) : (t.charge stage began ended).Reported settings log :=
  ⟨reported.loud, reported.notices_eq⟩

/-- A read is reported only if it fails. -/
theorem Reported.onRead {answer : Except ChannelError (List UInt8)}
    (reported : t.Reported settings log) (tallied : t.Tallied settings log)
    (sound : t.Sound settings log) (hPhase : t.phase = .reading)
    (receives : Channel.Receives t.buffer.length calls answer) :
    (t.onRead (answer.map (Channel.fill t.buffer))).Reported settings (log ++ calls) := by
  obtain ⟨hLoud, hNotices⟩ := reported
  obtain ⟨framed, agrees⟩ := sound
  have counts := tallied.counts
  simp only [reports, hPhase] at hNotices
  simp only [Counts, hPhase] at counts
  simp only [Agrees, hPhase] at agrees
  obtain ⟨ready, follows, _⟩ := agrees
  obtain ⟨past, hPast, _, hDelivered, _, _⟩ :=
    receives.ready ready (framed.length_buffer ▸ framed.orderly)
  cases answer with
  | error error =>
      refine reported_stop hLoud hNotices ?_ _
      rw [hPast, counts, Log.bytesIn_tally]
      simp [Event.ofRead, Event.delivered, hDelivered]
  | ok bytes =>
      cases bytes with
      | nil =>
          have hBuffer : Channel.fill t.buffer [] = (0, t.buffer) := by simp [Channel.fill]
          simp only [Except.map, hBuffer, Transfer.onRead]
          rw [hPast]
          exact reported_endInput hLoud hNotices framed.mode_eq (follows.congr hDelivered)
      | cons byte bytes => exact ⟨hLoud, hNotices⟩

/-- Translating is not reported: a bad digit waits until the output is out. -/
theorem Reported.translate {count : Nat} (reported : t.Reported settings log)
    (hPhase : t.phase = .translating count) : (t.translate count).Reported settings log := by
  obtain ⟨hLoud, hNotices⟩ := reported
  simp only [reports, hPhase] at hNotices
  exact ⟨hLoud, hNotices⟩

/-- A write is reported only if it fails. -/
theorem Reported.onWritten {next : Next} {answer : Except ChannelError Unit}
    (reported : t.Reported settings log) (tallied : t.Tallied settings log)
    (hPhase : t.phase = .writing next) (hWrites : ∀ call ∈ calls, call.isWrite) :
    (t.onWritten next answer).Reported settings (log ++ calls) := by
  obtain ⟨hLoud, hNotices⟩ := reported
  have counts := tallied.counts
  simp only [reports, hPhase] at hNotices
  simp only [Counts, hPhase] at counts
  cases answer with
  | error error =>
      refine reported_stop hLoud hNotices ?_ _
      rw [counts, Log.bytesIn_tally, Log.delivered_append, Log.delivered_eq_nil hWrites,
        List.append_nil]
  | ok => exact ⟨hLoud, hNotices⟩

/-- After a flush a failure is reported, its own or the bad digit that waited for
it. -/
theorem Reported.onFlushed {next : Next} (reported : t.Reported settings log)
    (tallied : t.Tallied settings log) (sound : t.Sound settings log)
    (hPhase : t.phase = .flushing next) (answer : Except ChannelError Unit) :
    (t.onFlushed next answer).Reported settings (log ++ [Event.ofFlush answer]) := by
  obtain ⟨hLoud, hNotices⟩ := reported
  have counts := tallied.counts
  have agrees := sound.agrees
  simp only [reports, hPhase] at hNotices
  simp only [Counts, hPhase] at counts
  simp only [Agrees, hPhase] at agrees
  have hBytes : t.tally.bytesIn =
      (Log.delivered (log ++ [Event.ofFlush answer])).length.toUInt64 := by
    rw [counts, Log.bytesIn_tally]
    cases answer <;> simp [Event.ofFlush, Event.delivered]
  cases answer with
  | error error => exact reported_stop hLoud hNotices hBytes _
  | ok =>
      cases next with
      | read => exact ⟨hLoud, hNotices⟩
      | fail error => exact reported_stop (t := { t with output := #[] }) hLoud hNotices hBytes _
      | close =>
          have hEncode : settings.mode = .encode := agrees.2.1
          have hNone : Log.leftOver settings.mode (log ++ [.flushed]) = none := by
            rw [Log.leftOver, hEncode]
            rfl
          refine ⟨hLoud, ?_⟩
          simp only [reports, Transfer.onFlushed, Event.ofFlush, hNone]
          exact hNotices

theorem Reported.close (reported : t.Reported settings log) (hPhase : t.phase = .closing)
    (now : Duration) : (t.close now).Reported settings log := by
  obtain ⟨hLoud, hNotices⟩ := reported
  simp only [reports, hPhase] at hNotices
  apply reported_note
  · exact hLoud
  · simp only [reports, hNotices]
    rfl

/-- The start is reported as soon as the settings are good. -/
theorem reported_start (hValid : settings.validate = .ok ()) (hTrace : settings.trace)
    (now : Duration) : (start settings now).Reported settings [] := by
  unfold start
  rw [hValid]
  exact reported_note hTrace rfl

end Transfer

namespace Session

def Reported (settings : Settings) (s : Session) : Prop :=
  s.transfer.Reported settings s.channel.log.toList

/-- Every step makes the reports that are expected in the phase it leads to. -/
theorem Moves.reported {settings : Settings} {s next : Session} (moves : s.Moves next)
    (sound : s.Sound settings) (tallied : s.Tallied settings) (reported : s.Reported settings) :
    next.Reported settings := by
  have sound : s.transfer.Sound settings s.channel.log.toList := sound
  have tallied : s.transfer.Tallied settings s.channel.log.toList := tallied
  have reported : s.transfer.Reported settings s.channel.log.toList := reported
  cases moves with
  | read began ended clock hPhase =>
      obtain ⟨calls, answer, receives, hAnswer, hLog⟩ := s.channel.readInto_calls s.transfer.buffer
      rw [Session.Reported, hAnswer, hLog]
      exact (reported.charge .read began ended).onRead (tallied.charge .read began ended)
        (sound.charge .read began ended) hPhase receives
  | translate count stage began ended clock hPhase =>
      exact (reported.charge stage began ended).translate hPhase
  | write next began ended clock hPhase =>
      obtain ⟨calls, offers, hLog⟩ := s.channel.writeAll_calls s.transfer.output.toList
      rw [Session.Reported, hLog]
      exact (reported.charge .write began ended).onWritten (tallied.charge .write began ended)
        hPhase offers.isWrite
  | flush next began ended clock hPhase =>
      rw [Session.Reported, s.channel.flush_call]
      exact (reported.charge .flush began ended).onFlushed (tallied.charge .flush began ended)
        (sound.charge .flush began ended) hPhase s.channel.flush.1
  | close now clock hPhase => exact reported.close hPhase now
  | rest => exact reported

end Session

/-- What was reported on a transfer, seen from its end. -/
theorem transfer_reports {settings : Settings} (hValid : settings.validate = .ok ())
    (hTrace : settings.trace) {source : Source} {sink : Sink} {clock : Clock}
    {result : Except Failure Summary} {session : Session}
    (hRun : transfer settings { source, sink } clock = (result, session)) :
    let log : Log := session.channel.log.toList
    session.transfer.notices = .started settings.mode settings.chunkSize ::
      match result with
      | .ok summary => ((log.leftOver settings.mode).map Notice.dropped).toList ++ [.done summary]
      | .error failure => [.aborted log.delivered.length.toUInt64 failure] := by
  obtain ⟨⟨-, -, reported⟩, hPhase⟩ := transfer_preserves
    (motive := fun s => s.Sound settings ∧ s.Tallied settings ∧ s.Reported settings) hRun
    ⟨Transfer.sound_start hValid clock.read.1, Transfer.tallied_start hValid clock.read.1,
      Transfer.reported_start hValid hTrace clock.read.1⟩
    (fun s h => ⟨s.moves_step.sound h.1, s.moves_step.tallied h.1 h.2.1,
      s.moves_step.reported h.1 h.2.1 h.2.2⟩)
  have hNotices := Transfer.Reported.notices_eq reported
  rw [Transfer.reports, hPhase] at hNotices
  cases result with
  | ok summary => exact hNotices
  | error failure => exact hNotices

/-- With refused settings nothing is reported, wanted or not. -/
theorem transfer_silent {settings : Settings} {error : SettingsError}
    (hRefused : settings.validate = .error error) {channel : Channel} {clock : Clock}
    {result : Except Failure Summary} {session : Session}
    (hRun : transfer settings channel clock = (result, session)) :
    session.transfer.notices = [] := by
  rw [transfer_of_refused hRefused] at hRun
  cases hRun
  simp [Session.begin, Transfer.start, hRefused]

/-- The lines printed on a transfer tell what happened in it. The first names the
direction and the chunk size, and the last is the one line that closes the report:
it has the summary that is the result, or the text of the failure that is the
result and the number of all bytes that were read. Between them stands nothing but
the digit that was dropped, which is the last byte of the input that is no newline,
and that line is there exactly if the summary of a decoding says that a digit was
left over. With refused settings nothing is printed. The timesheet may have its
entries in any order, and whoever reads the text of the summary gets the summary
again, but for what becomes of its ratios. -/
theorem report_tells_transfer (mode : Mode) (chunkSize : Nat) (source : Source) (sink : Sink)
    (clock : Clock) (order : List Stage) :
    let (result, session) := transfer { mode, chunkSize, trace := true } { source, sink } clock
    let text := Log.delivered session.channel.log.toList
    let lines := session.transfer.notices.map (Notice.textIn order)
    let first := s!"[STREAM] start {mode.codecName} (chunk_size={chunkSize})"
    session.transfer.reportIn order = String.join (lines.map (· ++ "\n")) ∧
    (chunkSize = 0 ∨ Settings.maxChunkSize < chunkSize → lines = []) ∧
    (1 ≤ chunkSize → chunkSize ≤ Settings.maxChunkSize →
      (∀ failure, result = .error failure →
        lines = [first,
          s!"[STREAM] aborted after {text.length % UInt64.size} bytes in: {failure.message}"]) ∧
      (∀ summary, result = .ok summary →
        let json := String.ofList (summary.jsonIn order)
        let last := s!"[STREAM] done {json}"
        ((∀ stage, summary.times.contains stage → stage ∈ order) →
          ∃ read, Json.Reader.whole Summary.reader json = .ok read ∧
            read.mode = summary.mode ∧ read.tally = summary.tally ∧
            read.elapsed = summary.elapsed ∧ read.times = summary.times ∧
            Summary.Reread summary.expansionRatio read.expansionRatio ∧
            Summary.Reread summary.throughput read.throughput) ∧
        (mode = .decode ∧ summary.tally.danglingNibble → ∃ digit,
          (text.filter (· ≠ newline)).getLast? = some digit ∧
          let shown := String.ofList (Quoting.notice.char (latin digit))
          lines = [first, s!"[STREAM] dropping dangling nibble '{shown}' at EOF", last]) ∧
        (¬ (mode = .decode ∧ summary.tally.danglingNibble) → lines = [first, last]))) := by
  rcases hRun : transfer { mode, chunkSize, trace := true } { source, sink } clock with
    ⟨result, session⟩
  dsimp only
  refine ⟨?_, ?_, ?_⟩
  · rw [Transfer.reportIn, List.map_map]
    rfl
  · intro hInvalid
    have silent (error : SettingsError) (hRefused : Settings.validate
        { mode, chunkSize, trace := true } = .error error) :=
      transfer_silent hRefused hRun
    rw [List.map_eq_nil_iff]
    rcases hInvalid with hZero | hLarge
    · exact silent .zeroChunk (Settings.validate_of_eq_zero hZero)
    · exact silent (.largeChunk chunkSize) (Settings.validate_of_maxChunkSize_lt hLarge)
  · intro hOne hMax
    have hValid : Settings.validate { mode, chunkSize, trace := true } = .ok () :=
      Settings.validate_eq_ok_iff.mpr ⟨hOne, hMax⟩
    have hNotices := transfer_reports hValid rfl hRun
    refine ⟨?_, ?_⟩
    · rintro failure rfl
      rw [hNotices]
      rfl
    · rintro summary rfl
      obtain ⟨complete, watch, now, hSummary⟩ := transfer_summary hValid hRun
      refine ⟨?_, ?_⟩
      · -- Ratios of other numbers need not come back that close.
        rw [hSummary]
        exact Summary.exists_read_of _ _ _ _
      have hTally : summary.tally = Log.tally mode session.channel.log.toList :=
        congrArg Summary.tally hSummary
      have hSome := complete.isSome_leftOver
      rw [← hTally] at hSome
      refine ⟨?_, ?_⟩
      · rintro ⟨_, hDangling⟩
        obtain ⟨digit, hLeft⟩ := Option.isSome_iff_exists.mp (hSome.trans hDangling)
        refine ⟨digit, (Log.getLast?_of_leftOver hLeft).2, ?_⟩
        rw [hNotices, hLeft]
        rfl
      · intro hNot
        have hLeft : Log.leftOver mode session.channel.log.toList = none := by
          by_contra hDigit
          obtain ⟨digit, hLeft⟩ := Option.ne_none_iff_exists'.mp hDigit
          rw [hLeft] at hSome
          exact hNot ⟨(Log.getLast?_of_leftOver hLeft).1, hSome.symm⟩
        rw [hNotices, hLeft]
        rfl

/-- A transfer that is timed, and whose timesheet is written in an order that is not
the one of the stages' names. -/
theorem report_tells_transfer_left_over :
    let source : Source := [.data [52, 97, 10, 53, 10] (some 2)]
    let clock : Clock := { gaps := List.replicate 40 ⟨250000000, by decide⟩ }
    let settings : Settings := { mode := .decode, chunkSize := 3, trace := true }
    let order : List Stage := [.flush, .decode, .write, .read]
    let counts : Tally :=
      { chunksRead := 3, bytesIn := 5, bytesOut := 1, newlinesSkipped := 2, pairsDecoded := 1,
        danglingNibble := true }
    let other : Duration := ⟨750000000, by decide⟩
    let times : Timesheet :=
      { read := some ⟨1000000000, by decide⟩, decode := other, write := other, flush := other }
    let (result, session) := transfer settings { source } clock
    ∃ summary read, result = .ok summary ∧ summary.jsonIn order ≠ summary.json ∧
      session.transfer.notices.map (Notice.textIn order) =
        ["[STREAM] start hex-decode (chunk_size=3)", "[STREAM] dropping dangling nibble '5' at EOF",
          s!"[STREAM] done {String.ofList (summary.jsonIn order)}"] ∧
      Json.Reader.whole Summary.reader (String.ofList (summary.jsonIn order)) = .ok read ∧
      read.tally = counts ∧ read.times = times := by
  intro source clock settings order counts other times
  have h := report_tells_transfer .decode 3 source {} clock order
  have hText : Log.delivered (transfer settings { source } clock).2.channel.log.toList =
      [52, 97, 10, 53, 10] := by decide +kernel
  have hSummary : (transfer settings { source } clock).1.toOption.map
      (fun summary => (summary.tally, summary.times)) = some (counts, times) := by decide +kernel
  have hOther : (transfer settings { source } clock).1.toOption.all
      (fun summary => summary.jsonIn order ≠ summary.json) := by decide +kernel
  have hShown : String.ofList (Quoting.notice.char (latin 53)) = "5" := by decide +kernel
  rcases hRun : transfer settings { source } clock with ⟨result, session⟩
  have hSame : transfer { mode := .decode, chunkSize := 3, trace := true } { source } clock =
      (result, session) := hRun
  rw [hRun] at hText hSummary hOther
  rw [hSame] at h
  obtain ⟨_, _, hTold⟩ := h
  cases result with
  | error failure => cases hSummary
  | ok summary =>
      obtain ⟨hTally, hTimes⟩ := Prod.mk.inj (Option.some.inj hSummary)
      obtain ⟨hReads, hDangling, _⟩ := (hTold (by decide) (by decide)).2 summary rfl
      have hTimed (stage : Stage) (hStage : summary.times.contains stage) : stage ∈ order := by
        rw [hTimes] at hStage
        revert hStage
        cases stage <;> decide
      obtain ⟨read, hRead, _, hCounts, _, hSheet, _⟩ := hReads hTimed
      obtain ⟨digit, hLast, hLines⟩ := hDangling ⟨rfl, by rw [hTally]⟩
      have hDigit : digit = 53 := by
        rw [hText] at hLast
        exact (Option.some.inj hLast).symm
      rw [hDigit, hShown] at hLines
      exact ⟨summary, read, rfl, of_decide_eq_true hOther, hLines, hRead, hCounts.trans hTally,
        hSheet.trans hTimes⟩

end HexFilter
