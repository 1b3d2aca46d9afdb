import HexFilter.Channel.Error

/-! Both ends of a transfer, with a record of every call made on them. What was
read and what was written is not kept apart from that record: it is computed
from it, so the two cannot disagree. -/
namespace HexFilter

/-- One call on a channel together with its outcome. -/
inductive Event where
  /-- A read call for at most `limit` bytes got these. -/
  | received (limit : Nat) (bytes : List UInt8)
  | readFailed (limit : Nat) (error : ChannelError)
  /-- A write call took the first `count` of the offered bytes. -/
  | wrote (offered : List UInt8) (count : Nat)
  | writeFailed (offered : List UInt8) (error : ChannelError)
  | flushed
  | flushFailed (error : ChannelError)
deriving DecidableEq

namespace Event

def delivered : Event → List UInt8
  | received _ bytes => bytes
  | _ => []

def accepted : Event → List UInt8
  | wrote offered count => offered.take count
  | _ => []

end Event

inductive ReadStep where
  /-- Bytes to hand out, over as many calls as it takes, at most `most` to a
  call where a limit is given. -/
  | data (bytes : List UInt8) (most : Option Nat)
  | fail (error : ChannelError)
  | ended
deriving DecidableEq

/-- How many bytes a call for at most `limit` may get from a data step. -/
def ReadStep.room (limit : Nat) : Option Nat → Nat
  | none => limit
  | some most => min limit most

/-- The steps still to come. When there are none left the input has ended for
good. -/
abbrev Source := List ReadStep

/-- A bound on the work left in a source: its bytes and its steps. -/
def Source.size : Source → Nat
  | [] => 0
  | .data bytes _ :: rest => bytes.length + 1 + Source.size rest
  | .fail _ :: rest => 1 + Source.size rest
  | .ended :: rest => 1 + Source.size rest

inductive WriteStep where
  /-- The call takes what it is offered, at most `most` bytes where a limit is
  given. -/
  | accept (most : Option Nat)
  | fail (error : ChannelError)
deriving DecidableEq

/-- How many bytes a write call takes when it is offered so many. -/
def WriteStep.taken (offered : Nat) : Option Nat → Nat
  | none => offered
  | some most => min most offered

/-- One flush call of a sink: it fails with the error, if there is one. -/
abbrev FlushStep := Option ChannelError

/-- The write and flush calls still to come. When there are none left every
write takes all it is offered, and every flush succeeds unless the sink is a
buffer that nobody reads. -/
structure Sink where
  writes : List WriteStep := []
  flushes : List FlushStep := []
  /-- What a flush fails with that cannot bring out what the sink has taken,
  because nobody is left to read it. -/
  unread : Option ChannelError := none
deriving DecidableEq

/-- A source and a sink that behave as scripted. -/
structure Channel where
  source : Source := []
  sink : Sink := {}
  log : Array Event := #[]
deriving DecidableEq

namespace Channel

def delivered (c : Channel) : List UInt8 := c.log.toList.flatMap Event.delivered

def accepted (c : Channel) : List UInt8 := c.log.toList.flatMap Event.accepted

/-- What has come out of the sink. Of what nobody is left to read nothing has. -/
def emerged (c : Channel) : List UInt8 := if c.sink.unread.isSome then [] else c.accepted

/-- Call for at most `limit` bytes, again and again while the call is
interrupted. The empty answer means that the input has ended. A data step is
left as soon as its bytes are used up, so its end is never seen. -/
def receive (limit : Nat) (log : Array Event) :
    Source → Except ChannelError (List UInt8) × Source × Array Event
  | [] => (.ok [], [], log.push (.received limit []))
  | .ended :: rest => (.ok [], rest, log.push (.received limit []))
  | .fail error :: rest =>
      let log := log.push (.readFailed limit error)
      if error.isInterrupted then receive limit log rest else (.error error, rest, log)
  | .data [] _ :: rest => receive limit log rest
  | .data (byte :: bytes) most :: rest =>
      let got := (byte :: bytes).take (ReadStep.room limit most)
      let left := (byte :: bytes).drop (ReadStep.room limit most)
      (.ok got, .data left most :: rest, log.push (.received limit got))

/-- Offer the data, and what is left of it after each call, until the sink has
taken all. An interrupted call is made again; a call that takes nothing is a
failure. No data makes no call. -/
def offer (log : Array Event) :
    List WriteStep → List UInt8 → Except ChannelError Unit × List WriteStep × Array Event
  | steps, [] => (.ok (), steps, log)
  | [], data => (.ok (), [], log.push (.wrote data data.length))
  | .fail error :: rest, data =>
      let log := log.push (.writeFailed data error)
      if error.isInterrupted then offer log rest data else (.error error, rest, log)
  | .accept most :: rest, data =>
      let count := WriteStep.taken data.length most
      let log := log.push (.wrote data count)
      if count = 0 then (.error .nothingAccepted, rest, log)
      else offer log rest (data.drop count)

def readChunk (limit : Nat) (c : Channel) : Except ChannelError (List UInt8) × Channel :=
  let (answer, source, log) := receive limit c.log c.source
  (answer, { c with source, log })

/-- Put what was read into the front of a buffer, and say how many bytes it is.
The rest of the buffer stays as it is. -/
def fill (buffer got : List UInt8) : Nat × List UInt8 :=
  (got.length, got ++ buffer.drop got.length)

def readInto (buffer : List UInt8) (c : Channel) :
    Except ChannelError (Nat × List UInt8) × Channel :=
  let (answer, c) := c.readChunk buffer.length
  (answer.map (fill buffer), c)

def writeAll (data : List UInt8) (c : Channel) : Except ChannelError Unit × Channel :=
  let (answer, writes, log) := offer c.log c.sink.writes data
  (answer, { c with sink := { c.sink with writes }, log })

/-- What the next flush call comes to, and the steps after it. Behind the last step
it fails only for what the sink has taken and nobody is left to read. -/
def nextFlush (c : Channel) : FlushStep × List FlushStep :=
  match c.sink.flushes with
  | [] => (c.sink.unread.filter fun _ => !c.accepted.isEmpty, [])
  | step :: flushes => (step, flushes)

/-- One flush call. It is not made again when it is interrupted. -/
def flush (c : Channel) : Except ChannelError Unit × Channel :=
  let (step, flushes) := c.nextFlush
  let sink := { c.sink with flushes }
  match step with
  | none => (.ok (), { c with sink, log := c.log.push .flushed })
  | some error => (.error error, { c with sink, log := c.log.push (.flushFailed error) })

section Flush

variable {c : Channel}

theorem flush_of_none (h : c.nextFlush.1 = none) :
    c.flush = (.ok (), { c with
      sink := { c.sink with flushes := c.nextFlush.2 }
      log := c.log.push .flushed }) := by
  unfold flush
  simp only [h]

theorem flush_of_some {error : ChannelError} (h : c.nextFlush.1 = some error) :
    c.flush = (.error error, { c with
      sink := { c.sink with flushes := c.nextFlush.2 }
      log := c.log.push (.flushFailed error) }) := by
  unfold flush
  simp only [h]

end Flush

/-- A call that gets bytes uses them up. -/
theorem size_receive_lt {limit : Nat} {log : Array Event} {source : Source} {byte : UInt8}
    {bytes : List UInt8} (h : (receive limit log source).1 = .ok (byte :: bytes)) :
    (receive limit log source).2.1.size < source.size := by
  fun_induction receive limit log source with
  | case1 => simp at h
  | case2 => simp at h
  | case3 log error rest after interrupted ih =>
      have := ih h
      simp only [Source.size]
      omega
  | case4 => simp at h
  | case5 log most rest ih =>
      have := ih h
      simp only [Source.size, List.length_nil]
      omega
  | case6 log first others most rest got left =>
      have hRoom : ReadStep.room limit most ≠ 0 := by
        intro hZero
        simp [got, hZero] at h
      simp only [Source.size, left, List.length_drop, List.length_cons]
      omega

/-- No call adds to a source. -/
theorem size_receive_le (limit : Nat) (log : Array Event) (source : Source) :
    (receive limit log source).2.1.size ≤ source.size := by
  fun_induction receive limit log source with
  | case1 => exact Nat.le_refl _
  | case2 => simp [Source.size]
  | case3 log error rest after interrupted ih =>
      simp only [Source.size]
      omega
  | case4 => simp [Source.size]
  | case5 log most rest ih =>
      simp only [Source.size, List.length_nil]
      omega
  | case6 log first others most rest got left =>
      simp only [Source.size, left, List.length_drop, List.length_cons]
      omega

theorem size_readChunk_le (limit : Nat) (c : Channel) :
    (c.readChunk limit).2.source.size ≤ c.source.size :=
  size_receive_le limit c.log c.source

theorem size_readChunk_lt {limit : Nat} {c : Channel} {byte : UInt8} {bytes : List UInt8}
    (h : (c.readChunk limit).1 = .ok (byte :: bytes)) :
    (c.readChunk limit).2.source.size < c.source.size :=
  size_receive_lt h

@[simp] theorem source_writeAll (data : List UInt8) (c : Channel) :
    (c.writeAll data).2.source = c.source := rfl

/-- Flushing reads nothing. -/
@[simp] theorem source_flush (c : Channel) : c.flush.2.source = c.source := by
  cases h : c.nextFlush.1 with
  | none => rw [flush_of_none h]
  | some error => rw [flush_of_some h]

/-- Whether a sink is read does not change. -/
@[simp] theorem unread_flush (c : Channel) : c.flush.2.sink.unread = c.sink.unread := by
  cases h : c.nextFlush.1 with
  | none => rw [flush_of_none h]
  | some error => rw [flush_of_some h]

end Channel

end HexFilter
