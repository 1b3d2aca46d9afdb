import HexFilter.Channel
import HexFilter.Transfer

/-! A transfer on a scripted channel, from its start to its end. Each step
shortens the script or brings the present chunk further, so every session
ends. -/
namespace HexFilter

/-- A transfer together with the channel and the clock it runs on. -/
structure Session where
  transfer : Transfer
  channel : Channel
  clock : Clock
deriving DecidableEq

namespace Session

def begin (settings : Settings) (channel : Channel) (clock : Clock) : Session :=
  let (now, clock) := clock.read
  { transfer := Transfer.start settings now, channel, clock }

/-- Do what the transfer waits for, with a reading of the clock before and
after. -/
def step (s : Session) : Session :=
  let t := s.transfer
  let (began, clock) := s.clock.read
  match t.phase with
  | .reading =>
      let (answer, channel) := s.channel.readInto t.buffer
      let (ended, clock) := clock.read
      { transfer := (t.charge .read began ended).onRead answer, channel, clock }
  | .translating count =>
      let (ended, clock) := clock.read
      let t := t.charge (Stage.ofMode t.codec.mode) began ended
      { s with transfer := t.translate count, clock }
  | .writing next =>
      let (answer, channel) := s.channel.writeAll t.output.toList
      let (ended, clock) := clock.read
      { transfer := (t.charge .write began ended).onWritten next answer, channel, clock }
  | .flushing next =>
      let (answer, channel) := s.channel.flush
      let (ended, clock) := clock.read
      { transfer := (t.charge .flush began ended).onFlushed next answer, channel, clock }
  | .closing => { s with transfer := t.close began, clock }
  | .finished _ => s
  | .stopped _ => s

/-- A bound on the steps still to come. -/
def work (s : Session) : Nat := 8 * s.channel.source.size + s.transfer.phase.distance

/-- A read that got bytes shortens the source by more than the chunk puts off
the end; a read that did not is the last. -/
theorem work_onRead_lt (t : Transfer) (c : Channel) (buffer : List UInt8) :
    8 * (c.readInto buffer).2.source.size + (t.onRead (c.readInto buffer).1).phase.distance <
      8 * c.source.size + 4 := by
  have hLe := c.size_readChunk_le buffer.length
  have hLt := @Channel.size_readChunk_lt buffer.length c
  simp only [Channel.readInto]
  cases hAnswer : (c.readChunk buffer.length).1 with
  | error error =>
      simp only [Except.map, Transfer.onRead, Transfer.phase_stop, Phase.distance]
      omega
  | ok chunk =>
      cases chunk with
      | nil =>
          have hEnd := { t with buffer }.distance_endInput
          simp only [Except.map, Channel.fill, List.length_nil, List.drop_zero, List.nil_append,
            Transfer.onRead]
          omega
      | cons byte bytes =>
          have := hLt hAnswer
          simp only [Except.map, Channel.fill, List.length_cons, Transfer.onRead, Phase.distance]
          omega

/-- Every step of a session that is not over does some of its work. -/
theorem work_step_lt (s : Session) (hFinished : ∀ summary, s.transfer.phase ≠ .finished summary)
    (hStopped : ∀ failure, s.transfer.phase ≠ .stopped failure) : s.step.work < s.work := by
  unfold step
  cases hPhase : s.transfer.phase with
  | reading =>
      simpa only [work, hPhase, Phase.distance] using work_onRead_lt _ s.channel _
  | translating count =>
      simp only [work, hPhase]
      rw [Transfer.distance_translate]
      exact Nat.lt_succ_self _
  | writing next =>
      simpa only [work, hPhase, Phase.distance, Channel.source_writeAll, Nat.add_lt_add_iff_left]
        using Transfer.distance_onWritten _ next _
  | flushing next =>
      simpa only [work, hPhase, Phase.distance, Channel.source_flush, Nat.add_lt_add_iff_left]
        using Transfer.distance_onFlushed _ next _
  | closing =>
      simp only [work, hPhase]
      rw [Transfer.distance_close]
      exact Nat.lt_succ_self _
  | finished summary => exact absurd hPhase (hFinished summary)
  | stopped failure => exact absurd hPhase (hStopped failure)

def run (s : Session) : Except Failure Summary × Session :=
  match _hPhase : s.transfer.phase with
  | .finished summary => (.ok summary, s)
  | .stopped failure => (.error failure, s)
  | .reading | .translating _ | .writing _ | .flushing _ | .closing => s.step.run
termination_by s.work
decreasing_by
  all_goals exact work_step_lt s (by simp [_hPhase]) (by simp [_hPhase])

end Session

/-- Move everything from the source to the sink, as the settings say. -/
def transfer (settings : Settings) (channel : Channel) (clock : Clock) :
    Except Failure Summary × Session :=
  (Session.begin settings channel clock).run

end HexFilter
