import HexFilter.Proofs.Discipline
import HexFilter.Proofs.Process
import HexFilter.Proofs.Values

/-! A transfer to a sink that nobody reads. It fails as soon as anything should come
out, in the write itself or in the flush behind it, so all depends on whether there is
anything to write: for a decoding, on the first two digits of the text alone. -/
namespace HexFilter

/-- The next write fails with this error. A flush with nothing to bring out does not
fail. -/
structure Sink.Refuses (error : ChannelError) (sink : Sink) : Prop where
  writes : ∃ later, sink.writes = .fail error :: later
  flushes : ∀ step ∈ sink.flushes, step = none

/-- A buffer takes what is written, unless a write has to bring some of it out and
fails with this error, as every flush does that has anything to bring out. -/
structure Sink.Buffers (error : ChannelError) (sink : Sink) : Prop where
  writes : ∀ step ∈ sink.writes, step.Willing ∨ step = .fail error
  flushes : sink.flushes = []
  unread : sink.unread = some error

/-- Nobody reads this sink any more. That shows in the next write, or a buffer stands
in front of it and it shows in the next flush. -/
def Sink.Unread (error : ChannelError) (sink : Sink) : Prop :=
  sink.Refuses error ∨ sink.Buffers error

/-- A call to a sink that nobody reads: a flush tells whether anything was taken before
it, and no other failure than this one is for good. -/
def Event.InVain (error : ChannelError) (past : Log) : Event → Prop
  | .received _ _ => True
  | .readFailed _ other => other.isInterrupted
  | .wrote _ count => count ≠ 0
  | .writeFailed _ other => other.isInterrupted ∨ other = error
  | .flushed => past.accepted = []
  | .flushFailed other => other = error ∧ past.accepted ≠ []

namespace Channel

/-- What came out of this channel, which is nothing, and what its sink is like as long as
no call has failed for good. -/
structure Unread (error : ChannelError) (text : List UInt8) (c : Channel) : Prop
    extends Delivers text c where
  inVain : Log.Throughout (Event.InVain error) c.log.toList
  emerged_eq : c.emerged = []
  unread : Log.Calm c.log.toList →
    (c.sink.Refuses error ∧ c.accepted = []) ∨ c.sink.Buffers error

/-- No bytes make no write call. -/
theorem writeAll_nil (c : Channel) : c.writeAll [] = (.ok (), c) := by
  cases c
  simp [writeAll, offer]

variable {error : ChannelError} {text : List UInt8} {c : Channel}

/-- Nothing comes out of a buffer that nobody reads, whatever it has taken. -/
theorem emerged_of_unread (h : c.sink.unread = some error) : c.emerged = [] := by
  rw [emerged, h]
  rfl

theorem emerged_of_accepted (h : c.accepted = []) : c.emerged = [] := by
  rw [emerged, h, ite_self]

/-- A sink that refuses fails the first write call, with nothing accepted. -/
theorem writeAll_refuses (hFatal : error.isInterrupted = false) (refuses : c.sink.Refuses error)
    {data : List UInt8} (hData : data ≠ []) :
    (c.writeAll data).2.log.toList = c.log.toList ++ [.writeFailed data error] := by
  obtain ⟨later, hWrites⟩ := refuses.writes
  cases data with
  | nil => exact absurd rfl hData
  | cons byte bytes => simp [writeAll, hWrites, offer, hFatal]

/-- A write to a buffer takes something with every call that does not fail, and fails
for good only with its error. -/
theorem offer_buffers (log : Array Event) {steps : List WriteStep}
    (hSteps : ∀ step ∈ steps, step.Willing ∨ step = .fail error) (data : List UInt8) :
    (∀ step ∈ (offer log steps data).2.1, step.Willing ∨ step = .fail error) ∧
      ∃ calls, (offer log steps data).2.2.toList = log.toList ++ calls ∧
        ∀ past, ∀ call ∈ calls, call.InVain error past := by
  fun_induction offer log steps data with
  | case1 log steps => exact ⟨hSteps, [], by simp⟩
  | case2 log data hData =>
      refine ⟨hSteps, [.wrote data data.length], by simp, fun past => ?_⟩
      rw [List.forall_mem_singleton]
      exact fun hZero => hData (List.length_eq_zero_iff.mp hZero)
  | case3 log other rest data hData after hInterrupted ih =>
      rw [List.forall_mem_cons] at hSteps
      obtain ⟨hLater, calls, hLog, hCalls⟩ := ih hSteps.2
      refine ⟨hLater, .writeFailed data other :: calls, by simp [hLog, after], fun past => ?_⟩
      exact List.forall_mem_cons.mpr ⟨.inl hInterrupted, hCalls past⟩
  | case4 log other rest data hData after hFatal =>
      rw [List.forall_mem_cons] at hSteps
      refine ⟨hSteps.2, [.writeFailed data other], by simp [after], fun past => ?_⟩
      rw [List.forall_mem_singleton]
      rcases hSteps.1 with hInterrupted | hSame
      · exact absurd hInterrupted hFatal
      · exact .inr (WriteStep.fail.inj hSame)
  | case5 log most rest data hData count after hZero =>
      rw [List.forall_mem_cons] at hSteps
      have hMost : WriteStep.Willing (.accept most) := hSteps.1.resolve_right (by simp)
      exact absurd hZero (taken_ne_zero hMost fun h => hData h)
  | case6 log most rest data hData count after hCount ih =>
      rw [List.forall_mem_cons] at hSteps
      obtain ⟨hLater, calls, hLog, hCalls⟩ := ih hSteps.2
      refine ⟨hLater, .wrote data count :: calls, by simp [hLog, after], fun past => ?_⟩
      exact List.forall_mem_cons.mpr ⟨hCount, hCalls past⟩

/-- Reading does not touch the sink, and goes on handing out the text. -/
theorem Unread.readInto (unread : c.Unread error text) (hOpen : Log.ended c.log.toList = false)
    {buffer : List UInt8} (hBuffer : 0 < buffer.length) :
    (c.readInto buffer).2.Unread error text := by
  obtain ⟨delivers, calls, hLog, calm, hAccepted, hReads⟩ :=
    unread.toDelivers.readInto hOpen hBuffer
  have hSink : (c.readInto buffer).2.sink = c.sink := rfl
  have hSame : (c.readInto buffer).2.accepted = c.accepted := by
    rw [accepted, hLog, List.flatMap_append, accepted]
    exact (congrArg _ hAccepted).trans (List.append_nil _)
  refine ⟨delivers, ?_, ?_, ?_⟩
  · rw [hLog]
    refine unread.inVain.append fun past call hCall => ?_
    have hNone := calm call hCall
    cases call with
    | received => trivial
    | readFailed limit other =>
        show other.isInterrupted
        simpa [Event.failure] using hNone
    | wrote | writeFailed | flushed | flushFailed => cases hReads _ hCall
  · rw [emerged, hSink, hSame]
    exact unread.emerged_eq
  · intro hCalm
    rw [hLog, Log.calm_append] at hCalm
    rw [hSink, hSame]
    exact unread.unread hCalm.1

/-- Unless there is nothing to write, writing fails at its first call or fills the
buffer. -/
theorem Unread.writeAll (hFatal : error.isInterrupted = false) (unread : c.Unread error text)
    (calm : Log.Calm c.log.toList) (data : List UInt8) :
    (c.writeAll data).2.Unread error text := by
  by_cases hData : data = []
  · rw [hData, writeAll_nil]
    exact unread
  rcases unread.unread calm with ⟨refuses, hNothing⟩ | buffers
  · have hLog := writeAll_refuses hFatal refuses hData
    have hFailure : (Event.writeFailed data error).failure = some error := by
      simp [Event.failure, hFatal]
    refine ⟨unread.toDelivers.append hLog rfl rfl, ?_, emerged_of_accepted ?_, fun hCalm => ?_⟩
    · rw [hLog]
      exact Log.throughout_concat.mpr ⟨unread.inVain, .inr rfl⟩
    · rw [accepted, hLog, List.flatMap_append]
      exact (congrArg (· ++ _) hNothing).trans rfl
    · rw [hLog] at hCalm
      exact absurd hCalm (Log.not_calm_of_failure (by simp) hFailure)
  · obtain ⟨hSteps, calls, hLog, hCalls⟩ := offer_buffers c.log buffers.writes data
    obtain ⟨_, offers, hSame⟩ := c.writeAll_calls data
    have hLog : (c.writeAll data).2.log.toList = c.log.toList ++ calls := hLog
    -- The same calls twice: those of a buffer, and those of any write.
    obtain rfl := List.append_cancel_left (hSame.symm.trans hLog)
    refine ⟨unread.toDelivers.append hLog (Log.delivered_eq_nil offers.isWrite)
      (Log.ended_eq_false offers.isWrite), ?_, emerged_of_unread buffers.unread, fun _ => ?_⟩
    · rw [hLog]
      exact unread.inVain.append hCalls
    · exact .inr ⟨hSteps, buffers.flushes, buffers.unread⟩

/-- A flush that has something to bring out fails, and any other does not. -/
theorem Unread.flush (unread : c.Unread error text) (calm : Log.Calm c.log.toList) :
    c.flush.2.Unread error text := by
  have hAccepted (event : Event) (hNone : event.accepted = []) :
      Log.accepted (c.log.toList ++ [event]) = c.accepted := by
    rw [Log.accepted_append, Log.accepted_singleton, hNone, List.append_nil]
    rfl
  have hFlushed : (c.log.push .flushed).toList = c.log.toList ++ [.flushed] := Array.toList_push
  rcases unread.unread calm with ⟨refuses, hNothing⟩ | buffers
  · obtain ⟨hNone, hLater⟩ := nextFlush_eq_none refuses.flushes (by simp [hNothing])
    have hSame : Log.accepted (c.log.push .flushed).toList = [] := by
      rw [hFlushed, hAccepted .flushed rfl, hNothing]
    rw [flush_of_none hNone]
    refine ⟨unread.toDelivers.append hFlushed rfl rfl, ?_, emerged_of_accepted hSame, fun _ => ?_⟩
    · rw [hFlushed]
      exact Log.throughout_concat.mpr ⟨unread.inVain, hNothing⟩
    · exact .inl ⟨⟨refuses.writes, hLater⟩, hSame⟩
  · have hNext : c.nextFlush =
        ((some error : Option ChannelError).filter fun _ => !c.accepted.isEmpty, []) := by
      rw [nextFlush, buffers.flushes, buffers.unread]
    have hSink : { c.sink with flushes := c.nextFlush.2 } = c.sink := by
      rw [hNext, ← buffers.flushes]
    by_cases hNothing : c.accepted = []
    · have hNone : c.nextFlush.1 = none := by simp [hNext, hNothing]
      rw [flush_of_none hNone, hSink]
      refine ⟨unread.toDelivers.append hFlushed rfl rfl, ?_, emerged_of_unread buffers.unread,
        fun _ => .inr buffers⟩
      rw [hFlushed]
      exact Log.throughout_concat.mpr ⟨unread.inVain, hNothing⟩
    · have hSome : c.nextFlush.1 = some error := by simp [hNext, hNothing]
      have hLog : (c.log.push (.flushFailed error)).toList = c.log.toList ++ [.flushFailed error] :=
        Array.toList_push
      rw [flush_of_some hSome, hSink]
      refine ⟨unread.toDelivers.append hLog rfl rfl, ?_, emerged_of_unread buffers.unread,
        fun _ => .inr buffers⟩
      rw [hLog]
      exact Log.throughout_concat.mpr ⟨unread.inVain, rfl, hNothing⟩

end Channel

/-- No step brings anything out of a sink that nobody reads. -/
theorem Session.Moves.unread {settings : Settings} (hSize : 1 ≤ settings.chunkSize)
    {error : ChannelError} (hFatal : error.isInterrupted = false) {text : List UInt8}
    {s next : Session} (moves : s.Moves next) (sound : s.Sound settings)
    (unread : s.channel.Unread error text) : next.channel.Unread error text := by
  have sound : s.transfer.Sound settings s.channel.log.toList := sound
  have agrees := sound.agrees
  cases moves with
  | read began ended clock hPhase =>
      simp only [Transfer.Agrees, hPhase] at agrees
      have hBuffer : 0 < s.transfer.buffer.length := by
        rw [sound.length_buffer]
        exact hSize
      exact unread.readInto agrees.1.not_ended hBuffer
  | translate => exact unread
  | write step began ended clock hPhase =>
      simp only [Transfer.Agrees, hPhase] at agrees
      exact unread.writeAll hFatal agrees.1.calm _
  | flush step began ended clock hPhase =>
      simp only [Transfer.Agrees, hPhase] at agrees
      exact unread.flush agrees.1.calm
  | close => exact unread
  | rest => exact unread

namespace Log

variable {error : ChannelError} {mode : Mode} {limit : Nat} {log : Log}

/-- If all has been flushed without a failure, there was nothing to flush. -/
theorem accepted_eq_nil (inVain : log.Throughout (Event.InVain error))
    (orderly : log.Orderly mode limit) (settled : log.Settled mode) : log.accepted = [] := by
  by_contra hSome
  obtain ⟨write, hMem, hTook⟩ : ∃ write ∈ log, write.accepted ≠ [] := by
    simpa [Log.accepted] using hSome
  have hWrite : write.isWrite := by
    cases write with
    | wrote => rfl
    | received | readFailed | writeFailed | flushed | flushFailed => exact absurd rfl hTook
  obtain ⟨past, after, rfl⟩ := List.append_of_mem hMem
  obtain ⟨flush, hFlush, hIsFlush⟩ := orderly.flush_after_write hWrite settled.flushes_eq
  obtain ⟨between, later, rfl⟩ := List.append_of_mem hFlush
  have hVain := inVain (past ++ write :: between) flush later (by simp)
  have hNone := settled.calm flush (by simp)
  cases flush with
  | flushed =>
      have hNothing : Log.accepted (past ++ write :: between) = [] := hVain
      rw [← List.singleton_append, accepted_append, accepted_append, accepted_singleton] at hNothing
      simp [hTook] at hNothing
  | flushFailed other => cases hNone
  | received | readFailed | wrote | writeFailed => cases hIsFlush

/-- A call that failed for good failed for the sink, when something should have come
out. -/
theorem ideal_ne_nil_of_failure {past : Log} {last : Event} {other : ChannelError}
    (inVain : Log.Throughout (Event.InVain error) (past ++ [last]))
    (orderly : Log.Orderly mode limit (past ++ [last])) (hFailure : last.failure = some other) :
    other = error ∧ past.ideal mode ≠ [] := by
  have hVain := inVain past last [] rfl
  have permitted := orderly past last [] rfl
  cases last with
  | received => cases hFailure
  | readFailed asked found =>
      have hInterrupted : found.isInterrupted := hVain
      simp [Event.failure, hInterrupted] at hFailure
  | wrote data count =>
      have hCount : count ≠ 0 := hVain
      simp [Event.failure, hCount] at hFailure
  | writeFailed data found =>
      have hFatal : found.isInterrupted = false ∧ found = other := by
        simpa [Event.failure] using hFailure
      obtain ⟨hFatal, rfl⟩ := hFatal
      refine ⟨hVain.resolve_left (by simp [hFatal]), ?_⟩
      rw [← permitted.1.accepted_append]
      exact fun hNil => permitted.2 (List.append_eq_nil_iff.mp hNil).2
  | flushed => cases hFailure
  | flushFailed found =>
      obtain rfl : found = other := Option.some.inj hFailure
      refine ⟨hVain.1, ?_⟩
      rw [← permitted.accepted_append, List.append_nil]
      exact hVain.2

end Log

/-- If something is to come out of a part of a text, something is to come out of
the whole. -/
theorem Mode.output_ne_nil {mode : Mode} {log : Log} {text : List UInt8}
    (hIdeal : log.ideal mode ≠ []) (hPrefix : log.delivered <+: text) : mode.output text ≠ [] := by
  cases mode with
  | encode => simp [Mode.output, encode_eq]
  | decode =>
      obtain ⟨left, rfl⟩ := hPrefix
      intro hNil
      have hNil : Text.readable (log.delivered ++ left) = [] := hNil
      have hReadable := Text.readable_prefix log.delivered left
      rw [hNil, List.prefix_nil] at hReadable
      exact hIdeal hReadable

section Transfer

variable {settings : Settings} (hValid : settings.validate = .ok ()) {text : List UInt8}
  {source : Source} (hSource : source.HandsOut text) {error : ChannelError}
  (hFatal : error.isInterrupted = false) {sink : Sink} (hSink : sink.Unread error) {clock : Clock}
  {result : Except Failure Summary} {session : Session}
  (hRun : transfer settings { source, sink } clock = (result, session))

include hValid hSource hFatal hSink hRun

/-- At the end of a transfer nothing has come out of such a sink. -/
theorem channel_unread : session.channel.Unread error text := by
  have hSize : 1 ≤ settings.chunkSize := (Settings.validate_eq_ok_iff.mp hValid).1
  have hNothing : Channel.accepted { source, sink } = [] := rfl
  have unread : Channel.Unread error text { source, sink } :=
    ⟨⟨fun _ => ⟨text, hSource, rfl⟩, by simp [Log.ended]⟩, Log.throughout_nil,
      Channel.emerged_of_accepted hNothing,
      fun _ => hSink.imp_left fun refuses => ⟨refuses, hNothing⟩⟩
  obtain ⟨⟨_, hEnd⟩, _⟩ := transfer_preserves
    (motive := fun s => s.Sound settings ∧ s.channel.Unread error text) hRun
    ⟨Transfer.sound_start hValid clock.read.1, unread⟩
    (fun s h => ⟨s.moves_step.sound h.1, s.moves_step.unread hSize hFatal h.1 h.2⟩)
  exact hEnd

/-- Nothing comes out. If anything should, that is the failure; if not, the text is
decoded as if the sink were read. -/
theorem transfer_unread : session.channel.emerged = [] ∧
    ((settings.mode.output text ≠ [] ∧ result = .error (.channel error)) ∨
    (settings.mode = .decode ∧ Text.readable text = [] ∧
      ((∃ summary, result = .ok summary ∧ (Decoder.decoded text).fault = none) ∨
      (∃ bad, result = .error (.codec bad) ∧ (Decoder.decoded text).fault = some bad)))) := by
  obtain ⟨sound, outcome⟩ := transfer_sound hValid hRun
  have unread := channel_unread hValid hSource hFatal hSink hRun
  refine ⟨unread.emerged_eq, ?_⟩
  cases outcome with
  | @finished summary complete =>
      have hAccepted := Log.accepted_eq_nil unread.inVain sound.orderly complete.toSettled
      have hIdeal := complete.accepted_eq.symm.trans hAccepted
      have hText := unread.behind complete.ended
      cases hMode : settings.mode with
      | encode => simp [hMode, Log.ideal, complete.ended] at hIdeal
      | decode =>
          rw [hMode] at complete hIdeal
          have hFault := complete.fault_eq_none
          simp only [Log.ideal, hText] at hIdeal hFault
          exact .inr ⟨rfl, hIdeal, .inl ⟨summary, rfl, hFault⟩⟩
  | @broken bad writes hMode hOpen settled hBroken =>
      have hDecoded := unread.decoded_eq hBroken.1
      have hAccepted := Log.accepted_eq_nil unread.inVain sound.orderly settled
      have hIdeal := settled.accepted_eq.symm.trans hAccepted
      simp only [hMode, Log.ideal] at hIdeal
      rw [← Decoder.toList_output_decoded, ← hDecoded, Decoder.toList_output_decoded] at hIdeal
      exact .inr ⟨hMode, hIdeal, .inr ⟨bad, rfl, hDecoded ▸ hBroken.1⟩⟩
  | @failed other hFailed =>
      obtain ⟨past, last, hLog, _, hFailure⟩ := hFailed
      have inVain := unread.inVain
      have orderly := sound.orderly
      have hDelivered := unread.delivered_prefix
      rw [hLog] at inVain orderly hDelivered
      obtain ⟨rfl, hIdeal⟩ := Log.ideal_ne_nil_of_failure inVain orderly hFailure
      rw [Log.delivered_append] at hDelivered
      exact .inl ⟨Mode.output_ne_nil hIdeal ((List.prefix_append ..).trans hDelivered), rfl⟩

end Transfer

section FirstPair

variable {text : List UInt8}

/-- A text of fewer than two digits has no pair: no bytes, and nothing bad. -/
theorem Text.decoded_of_length_lt (h : (Text.digits text).length < 2) :
    Text.readable text = [] ∧ (Decoder.decoded text).fault = none := by
  have hPairs : Text.pairs (Text.digits text) = [] := by
    rw [← List.length_eq_zero_iff, Text.length_pairs]
    omega
  have hGood : ¬ Text.Malformed text := by
    rintro ⟨pair, hPair, _⟩
    rw [hPairs] at hPair
    cases hPair
  refine ⟨?_, (Decoder.fault_decoded_eq_none_iff text).mpr hGood⟩
  rw [Text.readable, Text.bytes, hPairs]
  rfl

variable {first second : Nibble} {rest : List Nibble}
  (hPlaced : Text.placed 0 text = first :: second :: rest)

include hPlaced

theorem Text.digits_of_placed :
    Text.digits text = first.digit :: second.digit :: rest.map Nibble.digit := by
  rw [← Text.map_digit_placed 0 text, hPlaced, List.map_cons, List.map_cons]

/-- A good first pair is at least one byte. -/
theorem Text.readable_ne_nil (hFirst : Digit.IsHex first.digit)
    (hSecond : Digit.IsHex second.digit) : Text.readable text ≠ [] := by
  obtain ⟨byte, hByte, _⟩ := Text.byte?_of_isHex hFirst hSecond
  rw [Text.readable, Text.digits_of_placed hPlaced, Text.bytes_cons_cons_of_some hByte]
  exact List.cons_ne_nil _ _

theorem Text.readable_eq_nil (hBad : ¬ Digit.IsHex first.digit ∨ ¬ Digit.IsHex second.digit) :
    Text.readable text = [] := by
  rw [Text.readable, Text.digits_of_placed hPlaced,
    Text.bytes_cons_cons_of_none (Text.byte?_eq_none_of_not_isHex hBad)]

/-- Of a bad first pair the first digit is reported if it is bad. -/
theorem Decoder.fault_of_bad_first (hFirst : ¬ Digit.IsHex first.digit) :
    (Decoder.decoded text).fault = some first.reported := by
  rw [Decoder.fault_decoded, hPlaced, Text.paired_cons_cons,
    List.find?_cons_of_pos (first.isBad_iff.mpr hFirst)]
  rfl

/-- If only the second digit of the first pair is bad, that one is reported. -/
theorem Decoder.fault_of_bad_second (hFirst : Digit.IsHex first.digit)
    (hSecond : ¬ Digit.IsHex second.digit) :
    (Decoder.decoded text).fault = some second.reported := by
  have hGood : ¬ first.isBad := fun hBad => first.isBad_iff.mp hBad hFirst
  rw [Decoder.fault_decoded, hPlaced, Text.paired_cons_cons, List.find?_cons_of_neg hGood,
    List.find?_cons_of_pos (second.isBad_iff.mpr hSecond)]
  rfl

end FirstPair

namespace CommandLine

/-- A standard output that refuses every write is unread. -/
theorem unread_unreadOutput : unreadOutput.Unread brokenPipe :=
  .inl ⟨⟨[], rfl⟩, nofun⟩

theorem unread_unreadBuffer : unreadBuffer.Unread brokenPipe :=
  .inr ⟨nofun, rfl, rfl⟩

/-- Whether there is anything to bring out decides whether it is noticed that
nobody reads. -/
theorem run_unread {text : List UInt8} {source : Source} (hSource : source.HandsOut text)
    {sink : Sink} (hSink : sink.Unread brokenPipe) (options : Options) (clock : Clock) :
    run options { source, sink } clock =
      if options.mode.output text = [] then
        match (Decoder.decoded text).fault with
        | none => { code := 0, stdout := [], stderr := "" }
        | some bad => { code := 1, stdout := [], stderr := report .decode (.codec bad) }
      else { code := 1, stdout := [], stderr := report options.mode (.channel brokenPipe) } := by
  rcases hRun : transfer options.settings { source, sink } clock with ⟨result, session⟩
  obtain ⟨hNothing, hResult⟩ :=
    transfer_unread (validate_settings options) hSource rfl hSink hRun
  rw [run_of_transfer hRun, hNothing]
  rcases hResult with ⟨hOutput, rfl⟩ | ⟨hMode, hReadable, hEnd⟩
  · have hOutput : options.mode.output text ≠ [] := hOutput
    rw [if_neg hOutput]
    rfl
  · have hMode : options.mode = .decode := hMode
    have hOutput : options.mode.output text = [] := by
      rw [hMode]
      exact hReadable
    rw [if_pos hOutput, hMode]
    rcases hEnd with ⟨summary, rfl, hFault⟩ | ⟨bad, rfl, hFault⟩
    · rw [hFault]
      rfl
    · rw [hFault]
      rfl

/-- What is printed when nobody reads the output. -/
theorem report_brokenPipe (mode : Mode) : report mode (.channel brokenPipe) =
    "Error: " ++ activity mode ++ " stdin failed\n\nCaused by:\n" ++
      "    0: I/O error: Broken pipe (os error 32)\n    1: Broken pipe (os error 32)\n" := by
  cases mode <;> decide +kernel

/-- The exit of the process for all arguments and for every input, with an output
that nobody reads. Encoding always fails for it, since there is always a newline to
write. Decoding is settled by the first two digits of the text alone: it succeeds
without them, it fails for the first of them that is bad, and for the output if
neither is, whatever follows. How the input is split plays no part. -/
theorem launch_unread {ε : Type} {parser : Parser ε} (reads : ReadsFlags parser)
    (arguments : List (List UInt8)) {text : List UInt8}
    {source : Source} (hSource : source.HandsOut text) {sink : Sink}
    (hSink : sink.Unread brokenPipe) (clock : Clock) :
    let exit := execute arguments { source, sink } clock
    let pipeReport := fun mode : Mode => "Error: " ++ activity mode ++
      " stdin failed\n\nCaused by:\n" ++
        "    0: I/O error: Broken pipe (os error 32)\n    1: Broken pipe (os error 32)\n"
    let codecReport := fun error : InvalidDigit =>
      "Error: decoding stdin failed\n\nCaused by:\n    0: codec error: " ++ error.message ++
        "\n    1: " ++ error.message ++ "\n"
    launch parser arguments { source, sink } clock = .ok exit ∧
    (decodeArgument ∉ arguments.drop 1 →
      exit = { code := 1, stdout := [], stderr := pipeReport .encode }) ∧
    (decodeArgument ∈ arguments.drop 1 →
      ((Text.digits text).length < 2 → exit = { code := 0, stdout := [], stderr := "" }) ∧
      (∀ first second rest, Text.placed 0 text = first :: second :: rest →
        (¬ Digit.IsHex first.digit →
          exit = { code := 1, stdout := [], stderr := codecReport first.reported }) ∧
        (Digit.IsHex first.digit → ¬ Digit.IsHex second.digit →
          exit = { code := 1, stdout := [], stderr := codecReport second.reported }) ∧
        (Digit.IsHex first.digit → Digit.IsHex second.digit →
          exit = { code := 1, stdout := [], stderr := pipeReport .decode }))) ∧
    (∀ source' : Source, source'.HandsOut text → ∀ clock',
      execute arguments { source := source', sink } clock' = exit) := by
  intro exit pipeReport codecReport
  have hExit : exit = run { reverse := decodeArgument ∈ arguments.drop 1 } { source, sink } clock :=
    execute_eq_run arguments _ clock
  refine ⟨reads.launch arguments _ clock, fun hFlag => ?_, fun hFlag => ?_, ?_⟩
  · rw [hExit, decide_eq_false hFlag, run_unread hSource hSink]
    have hEncode : Mode.output .encode text ≠ [] := by simp [Mode.output, encode_eq]
    exact (if_neg hEncode).trans (congrArg (Exit.mk 1 []) (report_brokenPipe .encode))
  · rw [hExit, decide_eq_true hFlag, run_unread hSource hSink]
    have hOutput : ({ reverse := true } : Options).mode.output text = Text.readable text := rfl
    rw [hOutput]
    refine ⟨fun hShort => ?_, fun first second rest hPlaced => ⟨?_, ?_, ?_⟩⟩
    · obtain ⟨hReadable, hFault⟩ := Text.decoded_of_length_lt hShort
      rw [if_pos hReadable, hFault]
    · intro hFirst
      rw [if_pos (Text.readable_eq_nil hPlaced (.inl hFirst)),
        Decoder.fault_of_bad_first hPlaced hFirst]
      exact congrArg (Exit.mk 1 []) (report_codec first.reported)
    · intro hFirst hSecond
      rw [if_pos (Text.readable_eq_nil hPlaced (.inr hSecond)),
        Decoder.fault_of_bad_second hPlaced hFirst hSecond]
      exact congrArg (Exit.mk 1 []) (report_codec second.reported)
    · intro hFirst hSecond
      rw [if_neg (Text.readable_ne_nil hPlaced hFirst hSecond)]
      exact congrArg (Exit.mk 1 []) (report_brokenPipe .decode)
  · intro source' hSource' clock'
    rw [hExit, execute_eq_run, run_unread hSource hSink, run_unread hSource' hSink]

/-- Without the flag nothing at all is read, and still it is noticed. With it,
nobody gets to hear of the bad digit behind the first two, although it is read
together with them. A buffer in front of the output makes no difference. -/
theorem launch_unread_first_pair :
    let arguments : List (List UInt8) := [[104], decodeArgument]
    let unread : Source → Channel := fun source => { source, sink := unreadOutput }
    let pipeReport := fun activity : String => "Error: " ++ activity ++ " stdin failed\n\n" ++
      "Caused by:\n    0: I/O error: Broken pipe (os error 32)\n" ++
        "    1: Broken pipe (os error 32)\n"
    (ReadsFlags plainParser ∧ decodeArgument ∈ arguments.drop 1 ∧
      Sink.Unread brokenPipe unreadOutput ∧ Sink.Unread brokenPipe unreadBuffer) ∧
    (Source.HandsOut [] [] ∧ launch plainParser [] (unread []) {} =
      .ok { code := 1, stdout := [], stderr := pipeReport "encoding" }) ∧
    (Source.HandsOut [.data [10, 52] none] [10, 52] ∧
      launch plainParser arguments (unread [.data [10, 52] none]) {} =
        .ok { code := 0, stdout := [], stderr := "" }) ∧
    (Source.HandsOut [.data [10, 52] none, .data [103] none] [10, 52, 103] ∧
      launch plainParser arguments (unread [.data [10, 52] none, .data [103] none]) {} =
        .ok { code := 1, stdout := [], stderr := "Error: decoding stdin failed\n\nCaused by:\n" ++
          "    0: codec error: invalid hex digit 0x67 ('g') at offset 2\n" ++
          "    1: invalid hex digit 0x67 ('g') at offset 2\n" }) ∧
    (Source.HandsOut [.data [52, 97, 103, 103] none] [52, 97, 103, 103] ∧
      launch plainParser arguments (unread [.data [52, 97, 103, 103] none]) {} =
        .ok { code := 1, stdout := [], stderr := pipeReport "decoding" } ∧
      launch plainParser arguments
          { source := [.data [52, 97, 103, 103] none], sink := unreadBuffer } {} =
        .ok { code := 1, stdout := [], stderr := pipeReport "decoding" }) := by
  intro arguments unread pipeReport
  have hFlag : decodeArgument ∈ arguments.drop 1 := by decide
  have hShort : Source.HandsOut [.data [10, 52] none] [10, 52] := .data (.inr (by decide)) .nothing
  have hBad : Source.HandsOut [.data [10, 52] none, .data [103] none] [10, 52, 103] :=
    .data (.inr (by decide)) (.data (.inr (by decide)) .nothing)
  have hGood : Source.HandsOut [.data [52, 97, 103, 103] none] [52, 97, 103, 103] :=
    .data (.inr (by decide)) .nothing
  refine ⟨⟨readsFlags_plainParser, hFlag, unread_unreadOutput, unread_unreadBuffer⟩,
    ⟨.nothing, ?_⟩, ⟨hShort, ?_⟩, ⟨hBad, ?_⟩, ⟨hGood, ?_, ?_⟩⟩
  · obtain ⟨hLaunch, hEncode, -⟩ :=
      launch_unread readsFlags_plainParser [] .nothing unread_unreadOutput {}
    rw [hLaunch, hEncode (by decide)]
    exact congrArg (fun report => Except.ok (Exit.mk 1 [] report)) (by decide +kernel)
  · obtain ⟨hLaunch, -, hDecode, -⟩ :=
      launch_unread readsFlags_plainParser arguments hShort unread_unreadOutput {}
    rw [hLaunch, (hDecode hFlag).1 (by decide)]
  · obtain ⟨hLaunch, -, hDecode, -⟩ :=
      launch_unread readsFlags_plainParser arguments hBad unread_unreadOutput {}
    obtain ⟨-, hSecond, -⟩ := (hDecode hFlag).2 ⟨52, 1⟩ ⟨103, 2⟩ [] (by decide)
    rw [hLaunch, hSecond (by decide) (by decide)]
    exact congrArg (fun report => Except.ok (Exit.mk 1 [] report)) (by decide +kernel)
  · obtain ⟨hLaunch, -, hDecode, -⟩ :=
      launch_unread readsFlags_plainParser arguments hGood unread_unreadOutput {}
    obtain ⟨-, -, hPipe⟩ := (hDecode hFlag).2 ⟨52, 0⟩ ⟨97, 1⟩ [⟨103, 2⟩, ⟨103, 3⟩] (by decide)
    rw [hLaunch, hPipe (by decide) (by decide)]
    exact congrArg (fun report => Except.ok (Exit.mk 1 [] report)) (by decide +kernel)
  · obtain ⟨hLaunch, -, hDecode, -⟩ :=
      launch_unread readsFlags_plainParser arguments hGood unread_unreadBuffer {}
    obtain ⟨-, -, hPipe⟩ := (hDecode hFlag).2 ⟨52, 0⟩ ⟨97, 1⟩ [⟨103, 2⟩, ⟨103, 3⟩] (by decide)
    rw [hLaunch, hPipe (by decide) (by decide)]
    exact congrArg (fun report => Except.ok (Exit.mk 1 [] report)) (by decide +kernel)

end CommandLine

end HexFilter
