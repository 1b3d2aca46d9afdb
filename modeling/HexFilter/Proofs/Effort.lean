import HexFilter.Proofs.Chunking
import HexFilter.Proofs.Failure
import HexFilter.Proofs.Uses

/-! How many calls a transfer makes before it ends. Every call is paid for: a read
call by bytes of the source or by one of its failures, a write call by bytes of
the output or by an interruption of the sink. One call on each side is free, the
one that ends the reading or the transfer. -/
namespace HexFilter

def ReadStep.isFailure : ReadStep → Bool
  | .fail _ => true
  | .data _ _ | .ended => false

/-- The read calls that are still to fail, interrupted ones included. -/
def Source.failures (source : Source) : Nat := source.countP ReadStep.isFailure

def WriteStep.isInterruption : WriteStep → Bool
  | .fail error => error.isInterrupted
  | .accept _ => false

/-- The write calls that are still to be interrupted. -/
def Sink.interruptions (sink : Sink) : Nat := sink.writes.countP WriteStep.isInterruption

namespace Event

def isFailedRead : Event → Bool
  | readFailed _ _ => true
  | _ => false

def isInterruptedWrite : Event → Bool
  | writeFailed _ error => error.isInterrupted
  | _ => false

/-- A call that failed and is not made again. -/
def isFatal (event : Event) : Bool := event.failure.isSome

theorem isFailedRead_of_isWrite {event : Event} (h : event.isWrite) :
    event.isFailedRead = false := by
  cases event with
  | wrote | writeFailed => rfl
  | received | readFailed | flushed | flushFailed => cases h

theorem isInterruptedWrite_of_isRead {event : Event} (h : event.isRead) :
    event.isInterruptedWrite = false := by
  cases event with
  | received | readFailed => rfl
  | wrote | writeFailed | flushed | flushFailed => cases h

/-- A read call gets bytes, or fails, or gets nothing. -/
theorem read_paid (event : Event) : (if event.isRead then 1 else 0) ≤ event.delivered.length +
    (if event.isFailedRead then 1 else 0) + (if event.isEnd then 1 else 0) := by
  cases event with
  | received limit bytes =>
      cases bytes with
      | nil => exact Nat.le_refl 1
      | cons =>
          simp only [isRead, delivered, List.length_cons, if_true]
          omega
  | readFailed => exact Nat.le_refl 1
  | wrote | writeFailed | flushed | flushFailed => exact Nat.zero_le _

/-- A write call takes bytes, or is interrupted, or fails for good. -/
theorem write_paid {event : Event}
    (hTaken : ∀ data count, event = .wrote data count → count ≤ data.length) :
    (if event.isWrite then 1 else 0) ≤ event.accepted.length +
      (if event.isInterruptedWrite then 1 else 0) + (if event.isFatal then 1 else 0) := by
  cases event with
  | wrote data count =>
      have hLe := hTaken data count rfl
      cases count with
      | zero => simp [isWrite, isFatal, failure]
      | succ count =>
          simp only [isWrite, accepted, List.length_take, Nat.min_eq_left hLe, if_true]
          omega
  | writeFailed data error =>
      cases hInterrupted : error.isInterrupted <;>
        simp [isWrite, isInterruptedWrite, isFatal, failure, hInterrupted]
  | received | readFailed | flushed | flushFailed => exact Nat.zero_le _

end Event

namespace Log

def reads (log : Log) : Nat := log.countP Event.isRead

def writes (log : Log) : Nat := log.countP Event.isWrite

def failedReads (log : Log) : Nat := log.countP Event.isFailedRead

def interruptedWrites (log : Log) : Nat := log.countP Event.isInterruptedWrite

/-- The read calls that got nothing. -/
def ends (log : Log) : Nat := log.countP Event.isEnd

/-- The calls that failed for good. -/
def failures (log : Log) : Nat := log.countP Event.isFatal

section Append

variable (first second : Log)

@[simp] theorem failedReads_append :
    failedReads (first ++ second) = failedReads first + failedReads second := List.countP_append

@[simp] theorem interruptedWrites_append : interruptedWrites (first ++ second) =
    interruptedWrites first + interruptedWrites second := List.countP_append

end Append

section Singleton

variable (event : Event)

@[simp] theorem failedReads_singleton :
    failedReads [event] = if event.isFailedRead then 1 else 0 := by
  simp [failedReads, List.countP_singleton]

@[simp] theorem interruptedWrites_singleton :
    interruptedWrites [event] = if event.isInterruptedWrite then 1 else 0 := by
  simp [interruptedWrites, List.countP_singleton]

end Singleton

theorem failedReads_eq_zero {calls : Log} (hWrites : ∀ call ∈ calls, call.isWrite) :
    failedReads calls = 0 := by
  rw [failedReads, List.countP_eq_zero]
  intro call hCall
  simp [Event.isFailedRead_of_isWrite (hWrites call hCall)]

theorem interruptedWrites_eq_zero {calls : Log} (hReads : ∀ call ∈ calls, call.isRead) :
    interruptedWrites calls = 0 := by
  rw [interruptedWrites, List.countP_eq_zero]
  intro call hCall
  simp [Event.isInterruptedWrite_of_isRead (hReads call hCall)]

/-- Every read call got a byte at least, failed, or met the end of the input. -/
theorem reads_le (log : Log) :
    log.reads ≤ log.delivered.length + log.failedReads + log.ends := by
  simp only [reads, delivered, failedReads, ends]
  induction log with
  | nil => exact Nat.zero_le _
  | cons event later ih =>
      have hPaid := event.read_paid
      simp only [List.countP_cons, List.flatMap_cons, List.length_append]
      omega

/-- Every write call took a byte at least, was interrupted, or failed for good. -/
theorem writes_le {log : Log}
    (hTaken : ∀ data count, .wrote data count ∈ log → count ≤ data.length) :
    log.writes ≤ log.accepted.length + log.interruptedWrites + log.failures := by
  simp only [writes, accepted, interruptedWrites, failures]
  induction log with
  | nil => exact Nat.zero_le _
  | cons event later ih =>
      have hPaid := event.write_paid fun data count hEvent =>
        hTaken data count (hEvent ▸ List.mem_cons_self)
      have hLater := ih fun data count hMem => hTaken data count (List.mem_cons_of_mem _ hMem)
      simp only [List.countP_cons, List.flatMap_cons, List.length_append]
      omega

variable {mode : Mode} {limit : Nat} {log : Log}

/-- Once a read call has got nothing no other is made. -/
theorem Orderly.ends_le_one (orderly : log.Orderly mode limit) : log.ends ≤ 1 := by
  cases hEnded : log.ended with
  | false =>
      have hNone : log.ends = 0 := by
        rw [ends, List.countP_eq_zero]
        exact List.any_eq_false.mp hEnded
      omega
  | true =>
      obtain ⟨past, asked, after, rfl, hOpen, hAfter⟩ := orderly.split_of_ended hEnded
      have hPast : past.countP Event.isEnd = 0 :=
        List.countP_eq_zero.mpr (List.any_eq_false.mp hOpen)
      have hLater : after.countP Event.isEnd = 0 := by
        refine List.countP_eq_zero.mpr fun call hCall hEnd => ?_
        have hRead := hAfter call hCall
        cases call with
        | received => cases hRead
        | readFailed | wrote | writeFailed | flushed | flushFailed => cases hEnd
      rw [ends, List.countP_append, List.countP_cons, hPast, hLater]
      exact Nat.le_refl 1

/-- Only the last call fails for good. -/
theorem Orderly.failures_le_one (orderly : log.Orderly mode limit) : log.failures ≤ 1 := by
  by_cases calm : log.Calm
  · have hNone : log.failures = 0 :=
      List.countP_eq_zero.mpr fun event hEvent => by simp [Event.isFatal, calm event hEvent]
    omega
  · simp only [Calm, not_forall] at calm
    obtain ⟨event, hEvent, hFailure⟩ := calm
    obtain ⟨error, hError⟩ := Option.ne_none_iff_exists'.mp hFailure
    obtain ⟨past, after, rfl⟩ := List.append_of_mem hEvent
    have hLast : after = [] := orderly.eq_nil_of_failure hError
    subst hLast
    have calm := (orderly past event [] rfl).calm
    have hPast : past.countP Event.isFatal = 0 :=
      List.countP_eq_zero.mpr fun event hEvent => by simp [Event.isFatal, calm event hEvent]
    rw [failures, List.countP_append, hPast, Nat.zero_add]
    exact List.countP_le_length

/-- No write call takes more than it is offered. -/
theorem Orderly.taken_le (orderly : log.Orderly mode limit) {data : List UInt8} {count : Nat}
    (hMem : .wrote data count ∈ log) : count ≤ data.length := by
  obtain ⟨past, after, rfl⟩ := List.append_of_mem hMem
  exact (orderly past _ after rfl).2.2

end Log

namespace Channel

/-- Failed reads are steps of the source that are used up. -/
theorem failedReads_receive (limit : Nat) (log : Array Event) (source : Source) :
    Log.failedReads (receive limit log source).2.2.toList +
        (receive limit log source).2.1.failures =
      Log.failedReads log.toList + source.failures := by
  fun_induction receive limit log source with
  | case1 log => simp [Event.isFailedRead]
  | case2 log rest => simp [Event.isFailedRead, Source.failures, ReadStep.isFailure]
  | case3 log error rest after hInterrupted ih =>
      rw [ih]
      simp only [after, Array.toList_push, Log.failedReads_append, Log.failedReads_singleton,
        Event.isFailedRead, Source.failures, List.countP_cons, ReadStep.isFailure, if_true]
      omega
  | case4 log error rest after hFatal =>
      simp only [after, Array.toList_push, Log.failedReads_append, Log.failedReads_singleton,
        Event.isFailedRead, Source.failures, List.countP_cons, ReadStep.isFailure, if_true]
      omega
  | case5 log most rest ih =>
      rw [ih]
      simp [Source.failures, ReadStep.isFailure]
  | case6 log byte bytes most rest got left =>
      simp [Event.isFailedRead, Source.failures, ReadStep.isFailure]

/-- Interrupted writes are steps of the sink that are used up. -/
theorem interruptedWrites_offer (log : Array Event) (steps : List WriteStep) (data : List UInt8) :
    Log.interruptedWrites (offer log steps data).2.2.toList +
        (offer log steps data).2.1.countP WriteStep.isInterruption =
      Log.interruptedWrites log.toList + steps.countP WriteStep.isInterruption := by
  fun_induction offer log steps data with
  | case1 log steps => rfl
  | case2 log data => simp [Event.isInterruptedWrite]
  | case3 log error rest data hData after hInterrupted ih =>
      rw [ih]
      simp only [after, Array.toList_push, Log.interruptedWrites_append,
        Log.interruptedWrites_singleton, Event.isInterruptedWrite, List.countP_cons,
        WriteStep.isInterruption, hInterrupted, if_true]
      omega
  | case4 log error rest data hData after hFatal =>
      simp [after, Event.isInterruptedWrite, WriteStep.isInterruption, hFatal]
  | case5 log most rest data hData count after hZero =>
      simp [after, Event.isInterruptedWrite, WriteStep.isInterruption]
  | case6 log most rest data hData count after hCount ih =>
      rw [ih]
      simp [after, Event.isInterruptedWrite, WriteStep.isInterruption]

/-- What the calls on a channel have used up of its scripts is gone from them. -/
structure Spends (source : Source) (sink : Sink) (c : Channel) : Prop where
  bytes : Log.delivered c.log.toList ++ c.source.bytes = source.bytes
  failures : Log.failedReads c.log.toList + c.source.failures = source.failures
  interruptions : Log.interruptedWrites c.log.toList + c.sink.interruptions = sink.interruptions

namespace Spends

variable {source : Source} {sink : Sink} {c : Channel}

theorem start (source : Source) (sink : Sink) : Spends source sink { source, sink } :=
  ⟨rfl, Nat.zero_add _, Nat.zero_add _⟩

/-- Reading spends what it takes from the source. -/
theorem readInto (spends : c.Spends source sink) (buffer : List UInt8) :
    (c.readInto buffer).2.Spends source sink := by
  obtain ⟨calls, receives, hLog⟩ := receives_receive buffer.length c.log c.source
  refine ⟨?_, ?_, ?_⟩
  · exact (delivered_receive buffer.length c.log c.source).trans spends.bytes
  · exact (failedReads_receive buffer.length c.log c.source).trans spends.failures
  · show Log.interruptedWrites (receive buffer.length c.log c.source).2.2.toList + _ = _
    rw [hLog, Log.interruptedWrites_append, Log.interruptedWrites_eq_zero receives.isRead]
    exact spends.interruptions

/-- Writing spends what it takes from the sink. -/
theorem writeAll (spends : c.Spends source sink) (data : List UInt8) :
    (c.writeAll data).2.Spends source sink := by
  obtain ⟨calls, offers, hLog⟩ := offers_offer c.log c.sink.writes data
  refine ⟨?_, ?_, ?_⟩
  · show Log.delivered (offer c.log c.sink.writes data).2.2.toList ++ _ = _
    rw [hLog, Log.delivered_append, Log.delivered_eq_nil offers.isWrite, List.append_nil]
    exact spends.bytes
  · show Log.failedReads (offer c.log c.sink.writes data).2.2.toList + _ = _
    rw [hLog, Log.failedReads_append, Log.failedReads_eq_zero offers.isWrite]
    exact spends.failures
  · exact (interruptedWrites_offer c.log c.sink.writes data).trans spends.interruptions

theorem flush (spends : c.Spends source sink) : c.flush.2.Spends source sink := by
  have hSink : c.flush.2.sink.interruptions = c.sink.interruptions := by
    cases h : c.nextFlush.1 with
    | none => rw [flush_of_none h]; rfl
    | some error => rw [flush_of_some h]; rfl
  have hCall : (Event.ofFlush c.flush.1).delivered = [] ∧
      (Event.ofFlush c.flush.1).isFailedRead = false ∧
      (Event.ofFlush c.flush.1).isInterruptedWrite = false := by
    cases c.flush.1 <;> exact ⟨rfl, rfl, rfl⟩
  obtain ⟨hDelivered, hRead, hWrite⟩ := hCall
  refine ⟨?_, ?_, ?_⟩
  · rw [c.flush_call, source_flush, ← spends.bytes]
    simp [hDelivered]
  · rw [c.flush_call, source_flush, ← spends.failures]
    simp [hRead]
  · rw [c.flush_call, hSink, ← spends.interruptions]
    simp [hWrite]

end Spends

/-- A read that gets bytes takes as many from the source. One that gets none, though it
could have, would have got none into any other buffer either. -/
theorem receive_progress {limit : Nat} (hLimit : 1 ≤ limit) (log : Array Event) (source : Source)
    {got : List UInt8} (hAnswer : (receive limit log source).1 = .ok got) :
    (receive limit log source).2.1.bytes.length + got.length = source.bytes.length ∧
      (got = [] → ∀ other log, (receive other log source).1 = .ok []) := by
  fun_induction receive limit log source with
  | case1 log =>
      cases hAnswer
      exact ⟨rfl, fun _ _ _ => rfl⟩
  | case2 log rest =>
      cases hAnswer
      exact ⟨by simp [Source.bytes, ReadStep.bytes], fun _ _ _ => rfl⟩
  | case3 log error rest after hInterrupted ih =>
      obtain ⟨hLength, hEnd⟩ := ih hAnswer
      refine ⟨by simpa [Source.bytes, ReadStep.bytes] using hLength, fun hGot other log => ?_⟩
      simp only [receive, hInterrupted, if_true]
      exact hEnd hGot other _
  | case4 => cases hAnswer
  | case5 log most rest ih =>
      obtain ⟨hLength, hEnd⟩ := ih hAnswer
      refine ⟨by simpa [Source.bytes, ReadStep.bytes] using hLength, fun hGot other log => ?_⟩
      simp only [receive]
      exact hEnd hGot other log
  | case6 log byte bytes most rest taken left =>
      have hGot : taken = got := Except.ok.inj hAnswer
      have hSplit : taken ++ left = byte :: bytes := List.take_append_drop ..
      refine ⟨?_, fun hNothing other log => ?_⟩
      · have hLength := congrArg List.length hSplit
        rw [List.length_append, hGot] at hLength
        simp only [Source.bytes, List.flatMap_cons, ReadStep.bytes, List.length_append]
        omega
      · -- The step hands out nothing in any call, or else it would have in this one.
        have hRoom : ReadStep.room limit most = 0 := by
          simpa [taken, hNothing] using hGot
        have hMost : most = some 0 := by
          by_contra hMost
          exact Nat.ne_of_gt (room_pos hLimit hMost) hRoom
        simp [receive, hMost, ReadStep.room]

/-- A good read takes what it got from the source. Where it gets nothing, no other
buffer would have got anything. -/
theorem readInto_progress {buffer : List UInt8} (hBuffer : 1 ≤ buffer.length) {c after : Channel}
    {count : Nat} {filled : List UInt8} (hRead : c.readInto buffer = (.ok (count, filled), after)) :
    after.source.bytes.length + count = c.source.bytes.length ∧
      (count = 0 → ∀ other, (c.readInto other).1 = .ok (0, other)) := by
  cases hAnswer : (receive buffer.length c.log c.source).1 with
  | error error => simp [readInto, readChunk, hAnswer, Except.map] at hRead
  | ok got =>
      obtain ⟨hLength, hEnd⟩ := receive_progress hBuffer c.log c.source hAnswer
      simp only [readInto, readChunk, hAnswer, Except.map] at hRead
      cases hRead
      refine ⟨hLength, fun hCount other => ?_⟩
      have hNothing := hEnd (List.length_eq_zero_iff.mp hCount) other.length c.log
      simp [readInto, readChunk, hNothing, Except.map, fill]

end Channel

/-- No step makes a call that is not paid for. -/
theorem Session.Moves.spends {source : Source} {sink : Sink} {s next : Session}
    (moves : s.Moves next) (spends : s.channel.Spends source sink) :
    next.channel.Spends source sink := by
  cases moves with
  | read => exact spends.readInto _
  | write => exact spends.writeAll _
  | flush => exact spends.flush
  | translate | close | rest => exact spends

/-- A run takes no more steps than there is work. -/
theorem Session.exists_iterate_eq_run (s : Session) :
    ∃ steps ≤ s.work, step^[steps] s = s.run.2 := by
  have goes {s : Session} (hLess : s.step.work < s.work)
      (ih : ∃ steps ≤ s.step.work, step^[steps] s.step = s.step.run.2) :
      ∃ steps ≤ s.work, step^[steps] s = s.step.run.2 := by
    obtain ⟨steps, hSteps, hRun⟩ := ih
    exact ⟨steps + 1, by omega, hRun⟩
  fun_induction run s with
  | case1 s summary hPhase => exact ⟨0, Nat.zero_le _, rfl⟩
  | case2 s failure hPhase => exact ⟨0, Nat.zero_le _, rfl⟩
  | case3 s hPhase ih | case4 s count hPhase ih | case5 s next hPhase ih
  | case6 s next hPhase ih | case7 s hPhase ih =>
      exact goes (s.work_step_lt (by simp [hPhase]) (by simp [hPhase])) ih

/-- The work ahead of a transfer is in proportion to the size of its source. -/
theorem Session.work_begin {settings : Settings} (hValid : settings.validate = .ok ())
    (channel : Channel) (clock : Clock) :
    (begin settings channel clock).work = 8 * channel.source.size + 4 := by
  simp [begin, work, Transfer.start, hValid, Phase.distance]

/-- A transfer ends, after a number of steps that the script bounds. Its read calls
are as many as there are bytes and failures in the source, and one more, at
most; its write calls are as many as there are bytes accepted and interruptions
of the sink, and one more, at most. In every step that reads the buffer has room,
so bytes that are read are used up, and none are the end of the input. -/
theorem transfer_effort (settings : Settings) (hValid : settings.validate = .ok ())
    (source : Source) (sink : Sink) (clock : Clock) :
    let start := Session.begin settings { source, sink } clock
    let (result, session) := transfer settings { source, sink } clock
    let log : Log := session.channel.log.toList
    (∃ steps ≤ 8 * source.size + 4, Session.step^[steps] start = session ∧
      session.transfer.phase = Phase.ofResult result) ∧
    log.reads ≤ source.bytes.length + source.failures + 1 ∧
    log.writes ≤ log.accepted.length + sink.interruptions + 1 ∧
    log.accepted.length ≤ (log.ideal settings.mode).length ∧
    (∀ steps, let s := Session.step^[steps] start
      s.transfer.phase = .reading → 1 ≤ s.transfer.buffer.length ∧
        ∀ count filled after, s.channel.readInto s.transfer.buffer = (.ok (count, filled), after) →
          after.source.bytes.length + count = s.channel.source.bytes.length ∧
          (count = 0 → ∀ buffer, (s.channel.readInto buffer).1 = .ok (0, buffer))) := by
  have hSize : 1 ≤ settings.chunkSize := (Settings.validate_eq_ok_iff.mp hValid).1
  rcases hRun : transfer settings { source, sink } clock with ⟨result, session⟩
  obtain ⟨sound, _⟩ := transfer_sound hValid hRun
  have orderly := sound.orderly
  obtain ⟨spends, hPhase⟩ := transfer_preserves
    (motive := fun s => s.channel.Spends source sink) hRun (Channel.Spends.start source sink)
    (fun s spends => s.moves_step.spends spends)
  dsimp only
  refine ⟨?_, ?_, ?_, orderly.accepted_prefix.length_le, ?_⟩
  · obtain ⟨steps, hSteps, hLast⟩ :=
      (Session.begin settings { source, sink } clock).exists_iterate_eq_run
    rw [Session.work_begin hValid] at hSteps
    rw [← transfer, hRun] at hLast
    exact ⟨steps, hSteps, hLast, hPhase⟩
  · have hReads := Log.reads_le session.channel.log.toList
    have hEnds := orderly.ends_le_one
    have hBytes := congrArg List.length spends.bytes
    have hFailures := spends.failures
    rw [List.length_append] at hBytes
    omega
  · have hWrites := Log.writes_le fun _ _ => orderly.taken_le
    have hFailures := orderly.failures_le_one
    have hInterruptions := spends.interruptions
    omega
  · intro steps hReading
    have sound : Transfer.Sound settings _ _ :=
      Session.sound_iterate hValid source sink clock steps
    have hBuffer : 1 ≤ (Session.step^[steps]
        (Session.begin settings { source, sink } clock)).transfer.buffer.length := by
      rw [sound.length_buffer]
      exact hSize
    exact ⟨hBuffer, fun count filled after hRead => Channel.readInto_progress hBuffer hRead⟩

/-- A sink that breaks at the closing newline, and a source of single bytes: both
bounds are reached. -/
theorem transfer_effort_reached :
    let settings : Settings := { mode := .encode, chunkSize := 2 }
    let source : Source := [.data [1, 2] (some 1), .fail ⟨.interrupted, none⟩]
    let sink : Sink := { writes := [.accept (some 1), .fail ⟨.interrupted, none⟩, .accept (some 1),
      .accept (some 1), .accept (some 1), .fail ⟨.brokenPipe, none⟩] }
    let start := Session.begin settings { source, sink } {}
    let (result, session) := transfer settings { source, sink } {}
    let log : Log := session.channel.log.toList
    settings.validate = .ok () ∧
      (∃ steps ≤ 36, Session.step^[steps] start = session ∧
        session.transfer.phase = Phase.ofResult result) ∧
      log.reads = source.bytes.length + source.failures + 1 ∧
      log.writes = log.accepted.length + sink.interruptions + 1 := by
  intro settings source sink start
  have hValid : settings.validate = .ok () := by decide
  have h := transfer_effort settings hValid source sink {}
  have hReached : let log : Log := (transfer settings { source, sink } {}).2.channel.log.toList
      source.bytes.length + source.failures + 1 ≤ log.reads ∧
        log.accepted.length + sink.interruptions + 1 ≤ log.writes := by decide +kernel
  obtain ⟨hEnds, hReads, hWrites, _⟩ := h
  exact ⟨hValid, hEnds, Nat.le_antisymm hReads hReached.1, Nat.le_antisymm hWrites hReached.2⟩

end HexFilter
