import HexFilter.Proofs.Invariant

/-! A decoding in chunks against the decoding of the same text in memory. The
source may hand out the text in any pieces and the sink may take its bytes in
any pieces, both with interruptions; neither shows in what comes out. -/
namespace HexFilter

/-- The source hands out this text and then says that it has ended, which it
may do in the midst of its steps. Until then no call fails for good. -/
inductive Source.HandsOut : Source → List UInt8 → Prop where
  | nothing : HandsOut [] []
  | ended (later : Source) : HandsOut (.ended :: later) []
  | interrupted {error : ChannelError} {rest : Source} {text : List UInt8}
      (hInterrupted : error.isInterrupted) (later : HandsOut rest text) :
      HandsOut (.fail error :: rest) text
  | data {bytes : List UInt8} {most : Option Nat} {rest : Source} {text : List UInt8}
      (hMost : bytes = [] ∨ most ≠ some 0) (later : HandsOut rest text) :
      HandsOut (.data bytes most :: rest) (bytes ++ text)
  /-- A call that may get no byte of those at hand looks like the end. -/
  | stalled (byte : UInt8) (bytes : List UInt8) (later : Source) :
      HandsOut (.data (byte :: bytes) (some 0) :: later) []

/-- A write call that takes a byte or more, or is to be made again. -/
def WriteStep.Willing : WriteStep → Prop
  | .accept most => most ≠ some 0
  | .fail error => error.isInterrupted

/-- A sink on which no call fails for good, and which is read. -/
structure Sink.Willing (sink : Sink) : Prop where
  writes : ∀ step ∈ sink.writes, step.Willing
  flushes : ∀ step ∈ sink.flushes, step = none
  unread_eq : sink.unread = none

namespace Channel

/-- There is room for a byte unless a step has none to give. -/
theorem room_pos {limit : Nat} (hLimit : 0 < limit) {most : Option Nat} (hMost : most ≠ some 0) :
    0 < ReadStep.room limit most := by
  cases most with
  | none => exact hLimit
  | some most =>
      have hPos : 0 < most := Nat.pos_of_ne_zero fun h => hMost (congrArg some h)
      exact Nat.lt_min.mpr ⟨hLimit, hPos⟩

/-- A read call gets a first part of the text, and none only at its end. -/
theorem receive_handsOut {limit : Nat} (hLimit : 0 < limit) (log : Array Event) {source : Source}
    {text : List UInt8} (handsOut : source.HandsOut text) :
    ((receive limit log source).1 = .ok [] ∧ text = []) ∨
      ∃ got left, got ≠ [] ∧ (receive limit log source).1 = .ok got ∧
        (receive limit log source).2.1.HandsOut left ∧ got ++ left = text := by
  induction handsOut generalizing log with
  | nothing => exact .inl ⟨rfl, rfl⟩
  | ended later => exact .inl ⟨rfl, rfl⟩
  | interrupted hInterrupted _ ih =>
      simp only [receive, hInterrupted, if_true]
      exact ih _
  | @data bytes most rest text hMost later ih =>
      cases bytes with
      | nil => exact ih log
      | cons byte bytes =>
          have hMost : most ≠ some 0 := hMost.resolve_left (List.cons_ne_nil _ _)
          have hRoom := room_pos hLimit hMost
          refine .inr ⟨(byte :: bytes).take (ReadStep.room limit most),
            (byte :: bytes).drop (ReadStep.room limit most) ++ text, ?_, rfl,
            .data (.inr hMost) later, ?_⟩
          · rw [Ne, List.take_eq_nil_iff]
            rintro (hZero | hNil)
            · exact Nat.ne_of_gt hRoom hZero
            · cases hNil
          · rw [← List.append_assoc, List.take_append_drop]
  | stalled byte bytes later =>
      refine .inl ⟨?_, rfl⟩
      simp [receive, ReadStep.room]

/-- A call that may take a byte takes one, if there is one. -/
theorem taken_ne_zero {most : Option Nat} (hMost : most ≠ some 0) {data : List UInt8}
    (hData : data ≠ []) : WriteStep.taken data.length most ≠ 0 := by
  have hLength : 0 < data.length := List.length_pos_iff.mpr hData
  cases most with
  | none => exact Nat.ne_of_gt hLength
  | some most =>
      have hPos : 0 < most := Nat.pos_of_ne_zero fun h => hMost (congrArg some h)
      exact Nat.ne_of_gt (Nat.lt_min.mpr ⟨hPos, hLength⟩)

/-- A willing sink takes all, and stays willing. -/
theorem offer_willing (log : Array Event) {steps : List WriteStep}
    (willing : ∀ step ∈ steps, step.Willing) (data : List UInt8) :
    (offer log steps data).1 = .ok () ∧ ∀ step ∈ (offer log steps data).2.1, step.Willing := by
  fun_induction offer log steps data with
  | case1 log steps => exact ⟨rfl, willing⟩
  | case2 log data => exact ⟨rfl, willing⟩
  | case3 log error rest data hData after hInterrupted ih =>
      exact ih fun step hStep => willing step (List.mem_cons_of_mem _ hStep)
  | case4 log error rest data hData after hFatal =>
      exact absurd (willing _ List.mem_cons_self) hFatal
  | case5 log most rest data hData count after hZero =>
      have hMost : most ≠ some 0 := willing _ List.mem_cons_self
      exact absurd hZero (taken_ne_zero hMost fun h => hData h)
  | case6 log most rest data hData count after hCount ih =>
      exact ih fun step hStep => willing step (List.mem_cons_of_mem _ hStep)

/-- This text is what has been delivered and what the source still hands out. Once
the input has ended, it is what has been delivered. -/
structure Delivers (text : List UInt8) (c : Channel) : Prop where
  ahead : Log.ended c.log.toList = false →
    ∃ left, c.source.HandsOut left ∧ Log.delivered c.log.toList ++ left = text
  behind : Log.ended c.log.toList → Log.delivered c.log.toList = text

/-- No call has failed for good on this channel, and none will. It hands out
this text and no more. -/
structure Carries (text : List UInt8) (c : Channel) : Prop extends Delivers text c where
  calm : Log.Calm c.log.toList
  willing : c.sink.Willing

variable {text : List UInt8} {c : Channel}

/-- What was read so far is a beginning of the text. -/
theorem Delivers.delivered_prefix (delivers : c.Delivers text) :
    Log.delivered c.log.toList <+: text := by
  cases hEnded : Log.ended c.log.toList with
  | false =>
      obtain ⟨left, _, rfl⟩ := delivers.ahead hEnded
      exact List.prefix_append ..
  | true => exact ⟨[], by rw [List.append_nil, delivers.behind hEnded]⟩

/-- A bad digit in what has been delivered is the one of the whole text. -/
theorem Delivers.decoded_eq {error : InvalidDigit} (delivers : c.Delivers text)
    (hFault : (Decoder.decoded (Log.delivered c.log.toList)).fault = some error) :
    Decoder.decoded text = Decoder.decoded (Log.delivered c.log.toList) := by
  obtain ⟨left, hText⟩ := delivers.delivered_prefix
  rw [← hText]
  exact Decoder.fault_decoded_append hFault left

/-- Reading goes on in the text, and no call fails for good in it. -/
theorem Delivers.readInto (delivers : c.Delivers text) (hOpen : Log.ended c.log.toList = false)
    {buffer : List UInt8} (hBuffer : 0 < buffer.length) :
    (c.readInto buffer).2.Delivers text ∧ ∃ calls,
      (c.readInto buffer).2.log.toList = c.log.toList ++ calls ∧ Log.Calm calls ∧
        Log.accepted calls = [] ∧ ∀ call ∈ calls, call.isRead := by
  obtain ⟨calls, receives, hLog⟩ := receives_receive buffer.length c.log c.source
  obtain ⟨left, handsOut, hText⟩ := delivers.ahead hOpen
  have hLog : (c.readInto buffer).2.log.toList = c.log.toList ++ calls := hLog
  have hAccepted := receives.accepted_eq_nil
  rcases receive_handsOut hBuffer c.log handsOut with
    ⟨hAnswer, rfl⟩ | ⟨got, later, hGot, hAnswer, hLater, rfl⟩
  · rw [hAnswer] at receives
    obtain ⟨calm, hDelivered, hEnded⟩ := receives.of_ok
    refine ⟨⟨?_, fun _ => ?_⟩, calls, hLog, calm, hAccepted, receives.isRead⟩
    · rw [hLog, Log.ended_append, hEnded]
      simp
    · rw [hLog, Log.delivered_append, hDelivered]
      exact hText
  · rw [hAnswer] at receives
    obtain ⟨calm, hDelivered, hEnded⟩ := receives.of_ok
    refine ⟨⟨fun _ => ⟨later, hLater, ?_⟩, ?_⟩, calls, hLog, calm, hAccepted, receives.isRead⟩
    · rw [hLog, Log.delivered_append, hDelivered, List.append_assoc]
      exact hText
    · rw [hLog, Log.ended_append, hOpen, hEnded]
      simp [hGot]

/-- Calls that take nothing from the source leave the text where it is. -/
theorem Delivers.append {calls : Log} {sink : Sink} {log : Array Event}
    (delivers : c.Delivers text) (hLog : log.toList = c.log.toList ++ calls)
    (hDelivered : Log.delivered calls = []) (hEnded : Log.ended calls = false) :
    Delivers text { c with sink, log } where
  ahead := by
    rw [hLog, Log.delivered_append, hDelivered, List.append_nil, Log.ended_append, hEnded,
      Bool.or_false]
    exact delivers.ahead
  behind := by
    rw [hLog, Log.delivered_append, hDelivered, List.append_nil, Log.ended_append, hEnded,
      Bool.or_false]
    exact delivers.behind

/-- A read from a channel that carries a text succeeds, and the channel carries it
on. -/
theorem Carries.readInto (carries : c.Carries text) (hOpen : Log.ended c.log.toList = false)
    {buffer : List UInt8} (hBuffer : 0 < buffer.length) : (c.readInto buffer).2.Carries text := by
  obtain ⟨delivers, calls, hLog, calm, _⟩ := carries.toDelivers.readInto hOpen hBuffer
  refine ⟨delivers, ?_, carries.willing⟩
  rw [hLog, Log.calm_append]
  exact ⟨carries.calm, calm⟩

/-- Calls that bring nothing in and fail for nothing leave the text as it is. -/
theorem Carries.append {calls : Log} {sink : Sink} {log : Array Event} (carries : c.Carries text)
    (hLog : log.toList = c.log.toList ++ calls) (calm : Log.Calm calls) (willing : sink.Willing)
    (hDelivered : Log.delivered calls = []) (hEnded : Log.ended calls = false) :
    Carries text { c with sink, log } := by
  refine ⟨carries.toDelivers.append hLog hDelivered hEnded, ?_, willing⟩
  rw [hLog, Log.calm_append]
  exact ⟨carries.calm, calm⟩

theorem Carries.writeAll (carries : c.Carries text) (data : List UInt8) :
    (c.writeAll data).2.Carries text := by
  obtain ⟨calls, offers, hLog⟩ := offers_offer c.log c.sink.writes data
  obtain ⟨hAnswer, hWrites⟩ := offer_willing c.log carries.willing.writes data
  exact carries.append hLog (offers.calm hAnswer)
    ⟨hWrites, carries.willing.flushes, carries.willing.unread_eq⟩
    (Log.delivered_eq_nil offers.isWrite) (Log.ended_eq_false offers.isWrite)

/-- If no flush fails, neither does the next one nor any after it. -/
theorem nextFlush_eq_none (hFlushes : ∀ step ∈ c.sink.flushes, step = none)
    (hUnread : (c.sink.unread.filter fun _ => !c.accepted.isEmpty) = none) :
    c.nextFlush.1 = none ∧ ∀ step ∈ c.nextFlush.2, step = none := by
  unfold nextFlush
  cases hSteps : c.sink.flushes with
  | nil => exact ⟨hUnread, nofun⟩
  | cons step flushes =>
      rw [hSteps, List.forall_mem_cons] at hFlushes
      exact hFlushes

theorem Carries.flush (carries : c.Carries text) : c.flush.2.Carries text := by
  have calm : Log.Calm [.flushed] := (Log.calm_singleton _).mpr rfl
  have hLog : (c.log.push .flushed).toList = c.log.toList ++ [.flushed] := Array.toList_push
  obtain ⟨hNone, hLater⟩ := nextFlush_eq_none carries.willing.flushes
    (by rw [carries.willing.unread_eq, Option.filter_none])
  rw [flush_of_none hNone]
  exact carries.append hLog calm ⟨carries.willing.writes, hLater, carries.willing.unread_eq⟩ rfl rfl

end Channel

/-- Every step keeps the text: it reads on, or leaves the source alone. -/
theorem Session.Moves.carries {settings : Settings} (hSize : 1 ≤ settings.chunkSize)
    {text : List UInt8} {s next : Session} (moves : s.Moves next) (sound : s.Sound settings)
    (carries : s.channel.Carries text) : next.channel.Carries text := by
  have sound : s.transfer.Sound settings s.channel.log.toList := sound
  cases moves with
  | read began ended clock hPhase =>
      have agrees := sound.agrees
      simp only [Transfer.Agrees, hPhase] at agrees
      have hBuffer : 0 < s.transfer.buffer.length := by
        rw [sound.length_buffer]
        exact hSize
      exact carries.readInto agrees.1.not_ended hBuffer
  | translate => exact carries
  | write => exact carries.writeAll _
  | flush => exact carries.flush
  | close => exact carries
  | rest => exact carries

/-- The channel still carries the text at the end of a transfer. -/
theorem transfer_carries {settings : Settings} (hValid : settings.validate = .ok ())
    {text : List UInt8} {source : Source}
    (hSource : source.HandsOut text) {sink : Sink} (hSink : sink.Willing) {clock : Clock}
    {result : Except Failure Summary} {session : Session}
    (hRun : transfer settings { source, sink } clock = (result, session)) :
    session.channel.Carries text := by
  have hSize : 1 ≤ settings.chunkSize := (Settings.validate_eq_ok_iff.mp hValid).1
  have carries : Channel.Carries text { source, sink } :=
    ⟨⟨fun _ => ⟨text, hSource, rfl⟩, by simp [Log.ended]⟩, Log.calm_nil, hSink⟩
  obtain ⟨⟨_, hEnd⟩, _⟩ := transfer_preserves
    (motive := fun s => s.Sound settings ∧ s.channel.Carries text) hRun
    ⟨Transfer.sound_start hValid clock.read.1, carries⟩
    (fun s h => ⟨s.moves_step.sound h.1, s.moves_step.carries hSize h.1 h.2⟩)
  exact hEnd

/-- On such a channel a transfer ends well with the whole text, or else with the
first bad digit of the text, having read it far enough to find that. -/
theorem transfer_settles {settings : Settings} (hValid : settings.validate = .ok ())
    {text : List UInt8} {source : Source} (hSource : source.HandsOut text) {sink : Sink}
    (hSink : sink.Willing) {clock : Clock} {result : Except Failure Summary} {session : Session}
    (hRun : transfer settings { source, sink } clock = (result, session)) :
    (∃ summary, result = .ok summary ∧ Log.delivered session.channel.log.toList = text ∧
      Log.Complete settings.mode session.channel.log.toList) ∨
    (∃ error, result = .error (.codec error) ∧ settings.mode = .decode ∧
      (Decoder.decoded text).fault = some error ∧
      Decoder.decoded text = Decoder.decoded (Log.delivered session.channel.log.toList) ∧
      Log.Settled settings.mode session.channel.log.toList) := by
  obtain ⟨_, outcome⟩ := transfer_sound hValid hRun
  have carries := transfer_carries hValid hSource hSink hRun
  cases outcome with
  | @finished summary complete => exact .inl ⟨summary, rfl, carries.behind complete.ended, complete⟩
  | @broken error _ hMode hOpen settled hBroken =>
      have hDecoded := carries.toDelivers.decoded_eq hBroken.1
      exact .inr ⟨error, rfl, hMode, hDecoded ▸ hBroken.1, hDecoded, settled⟩
  | failed hFailed => exact absurd carries.calm hFailed.not_calm

/-- What is to come out of a whole text: its encoding, or the bytes that can be
read from it. -/
def Mode.output : Mode → List UInt8 → List UInt8
  | .encode, text => HexFilter.encode text
  | .decode, text => Text.readable text

/-- On such a channel all that is to come out of the text is out in the end. What
stands behind a bad digit would have added nothing. -/
theorem transfer_accepts {settings : Settings} (hValid : settings.validate = .ok ())
    {text : List UInt8} {source : Source} (hSource : source.HandsOut text) {sink : Sink}
    (hSink : sink.Willing) {clock : Clock} {result : Except Failure Summary} {session : Session}
    (hRun : transfer settings { source, sink } clock = (result, session)) :
    session.channel.accepted = settings.mode.output text := by
  rcases transfer_settles hValid hSource hSink hRun with
    ⟨summary, _, hText, complete⟩ | ⟨error, _, hMode, _, hDecoded, settled⟩
  · refine complete.accepted_eq.trans ?_
    cases settings.mode with
    | encode => simp [Log.ideal, Mode.output, hText, complete.ended, encode_eq]
    | decode => simp only [Log.ideal, Mode.output, hText]
  · refine settled.accepted_eq.trans ?_
    simp only [hMode, Log.ideal, Mode.output]
    rw [← Decoder.toList_output_decoded, ← hDecoded, Decoder.toList_output_decoded]

/-- However the text is cut into pieces, and whatever is interrupted, a decoding
in chunks ends as the decoding of the text in memory does. The sink has accepted
the bytes of the text, or those in front of its first bad digit, which is
reported as it is. -/
theorem transfer_refines_decode {text : List UInt8} {chunkSize : Nat} (hSize : 1 ≤ chunkSize)
    (hMax : chunkSize ≤ Settings.maxChunkSize) (trace : Bool) {source : Source}
    (hSource : source.HandsOut text) {sink : Sink} (hSink : sink.Willing) (clock : Clock) :
    let (result, session) :=
      transfer { mode := .decode, chunkSize, trace } { source, sink } clock
    let accepted := Log.accepted session.channel.log.toList
    (∀ bytes, decode text = .ok bytes →
      (∃ summary, result = .ok summary) ∧ accepted = bytes) ∧
    (∀ error, decode text = .error error →
      result = .error (.codec error) ∧ error.offset < text.length ∧
        decode (text.take error.offset) = .ok accepted) := by
  have hValid : Settings.validate { mode := .decode, chunkSize, trace } = .ok () :=
    Settings.validate_eq_ok_iff.mpr ⟨hSize, hMax⟩
  rcases hRun : transfer { mode := .decode, chunkSize, trace } { source, sink } clock with
    ⟨result, session⟩
  obtain ⟨sound, outcome⟩ := transfer_sound hValid hRun
  have carries := transfer_carries hValid hSource hSink hRun
  dsimp only
  cases outcome with
  | finished complete =>
      have hText := carries.behind complete.ended
      have hFault : (Decoder.decoded text).fault = none := by
        rw [Decoder.fault_decoded_eq_none_iff, ← hText]
        exact complete.not_malformed rfl
      have hAccepted : Log.accepted session.channel.log.toList = Text.readable text := by
        rw [complete.accepted_eq, ← hText]
        rfl
      rw [Decoder.decode_of_fault_none hFault]
      refine ⟨?_, ?_⟩
      · rintro bytes ⟨⟩
        exact ⟨⟨_, rfl⟩, hAccepted⟩
      · intro error hError
        cases hError
  | @broken error writes _ hOpen settled hBroken =>
      -- What comes after the bad digit was never read, and would not have mattered.
      obtain ⟨left, _, hText⟩ := carries.ahead hOpen
      have hDecoded : Decoder.decoded text =
          Decoder.decoded (Log.delivered session.channel.log.toList) := by
        rw [← hText]
        exact Decoder.fault_decoded_append hBroken.1 left
      have hFault : (Decoder.decoded text).fault = some error := by
        rw [hDecoded]
        exact hBroken.1
      have hAccepted : Log.accepted session.channel.log.toList = Text.readable text := by
        rw [settled.accepted_eq, ← Decoder.toList_output_decoded, hDecoded,
          Decoder.toList_output_decoded]
        rfl
      rw [Decoder.decode_of_fault_some hFault, hAccepted]
      refine ⟨?_, ?_⟩
      · intro bytes hBytes
        cases hBytes
      · rintro error ⟨⟩
        exact ⟨rfl, Decoder.decode_take_offset hFault⟩
  | failed hFailed => exact absurd carries.calm hFailed.not_calm

theorem transfer_refines_decode_in_pieces :
    let source : Source := [.data [52] none, .fail ⟨.interrupted, none⟩,
      .data [97, 10, 52] (some 2), .ended]
    let bad : Source := [.data [52, 97, 10, 52] none, .data [103, 52] (some 1)]
    let sink : Sink := { writes := [.fail ⟨.interrupted, none⟩, .accept (some 1)] }
    (source.HandsOut [52, 97, 10, 52] ∧ bad.HandsOut [52, 97, 10, 52, 103, 52] ∧ sink.Willing) ∧
    (let (result, session) := transfer { mode := .decode, chunkSize := 2 } { source, sink } {}
    (∃ summary, result = .ok summary) ∧ Log.accepted session.channel.log.toList = [74]) ∧
    (let (result, session) :=
      transfer { mode := .decode, chunkSize := 3 } { source := bad, sink } {}
    result = .error (.codec ⟨103, 4⟩) ∧
      decode [52, 97, 10, 52] = .ok (Log.accepted session.channel.log.toList)) := by
  intro source bad sink
  have hSource : source.HandsOut [52, 97, 10, 52] :=
    .data (.inr (by decide)) (.interrupted rfl (.data (.inr (by decide)) (.ended _)))
  have hBad : bad.HandsOut [52, 97, 10, 52, 103, 52] :=
    .data (.inr (by decide)) (.data (.inr (by decide)) .nothing)
  have hSink : sink.Willing := by
    refine ⟨?_, by simp [sink], rfl⟩
    simp [sink, WriteStep.Willing, ChannelError.isInterrupted]
  refine ⟨⟨hSource, hBad, hSink⟩, ?_, ?_⟩
  · have h := transfer_refines_decode (Nat.le_succ 1) (by decide) false hSource hSink {}
    exact h.1 [74] (by decide)
  · have h := transfer_refines_decode (Nat.le_add_left 1 2) (by decide) false hBad hSink {}
    obtain ⟨hResult, _, hAccepted⟩ := h.2 ⟨103, 4⟩ (by decide)
    exact ⟨hResult, hAccepted⟩

end HexFilter
