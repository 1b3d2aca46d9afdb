import HexFilter.Proofs.Run

/-! What is left of a transfer when the values of its clock are taken out of it,
and its reports too where they are not wanted. No step looks at the time that
was charged or at the reports that were made, so what is left goes on by itself:
it is the same transfer on a clock that stands still. -/
namespace HexFilter

/-- The stages that were timed, with no time charged to them. -/
def Timesheet.still (t : Timesheet) : Timesheet where
  read := t.read.map fun _ => .zero
  encode := t.encode.map fun _ => .zero
  decode := t.decode.map fun _ => .zero
  write := t.write.map fun _ => .zero
  flush := t.flush.map fun _ => .zero

def Stopwatch.still (w : Stopwatch) : Stopwatch where
  started := .zero
  finished := w.finished.map fun _ => .zero
  times := w.times.still

/-- A summary without the values of the clock and the one figure that is
computed from them. What was counted is left as it is. -/
def Summary.still (s : Summary) : Summary :=
  { s with throughput := .zero, elapsed := .zero, times := s.times.still }

/-- Only the last notice of a transfer that ended well tells any time. -/
def Notice.still : Notice → Notice
  | .done summary => .done summary.still
  | notice => notice

def Phase.still : Phase → Phase
  | .finished summary => .finished summary.still
  | phase => phase

/-- A transfer without the values of the clock, and without its reports if it is
not to be loud. -/
def Transfer.still (loud : Bool) (t : Transfer) : Transfer :=
  { t with
    settings := { t.settings with trace := t.settings.trace && loud }
    watch := t.watch.still
    notices := if loud then t.notices.map Notice.still else []
    phase := t.phase.still }

/-- The session of such a transfer. Its clock stands still. -/
def Session.still (loud : Bool) (s : Session) : Session :=
  { s with transfer := s.transfer.still loud, clock := {} }

/-- A still phase tells the still result. -/
theorem Phase.still_ofResult (result : Except Failure Summary) :
    (Phase.ofResult result).still = Phase.ofResult (result.map Summary.still) := by
  cases result with
  | ok => rfl
  | error => rfl

theorem Timesheet.get_still (t : Timesheet) (stage : Stage) : t.still.get stage = .zero := by
  have hZero (entry : Option Duration) : (entry.map fun _ => Duration.zero).getD .zero = .zero := by
    cases entry <;> rfl
  cases stage <;> exact hZero _

theorem Timesheet.still_charge (t : Timesheet) (stage : Stage) (d : Duration) :
    (t.charge stage d).still = t.still.charge stage .zero := by
  have hZero : Duration.addCapped .zero .zero = .zero := rfl
  unfold charge
  rw [get_still, hZero]
  cases stage <;> rfl

/-- Without a clock a summary depends on what was counted alone. -/
theorem Summary.still_of (mode : Mode) (tally : Tally) (watch : Stopwatch) (now : Duration) :
    (Summary.of mode tally watch now).still = Summary.of mode tally watch.still .zero := by
  have hElapsed : watch.still.elapsed .zero = .zero := by
    unfold Stopwatch.elapsed Stopwatch.still
    cases watch.finished <;> rfl
  have hRank : Duration.zero.toSeconds.rank = 0 := by decide +kernel
  unfold Summary.of
  rw [hElapsed]
  simp [still, ratio, hRank, Stopwatch.still]

namespace Transfer

variable (loud : Bool) (t : Transfer)

/-- A report on a still transfer is the still report. -/
theorem still_note (notice : Notice) :
    (t.note notice).still loud = (t.still loud).note notice.still := by
  cases loud <;> cases hTrace : t.settings.trace <;> simp [note, still, hTrace]

theorem still_stop (failure : Failure) :
    (t.stop failure).still loud = (t.still loud).stop failure :=
  still_note loud { t with phase := .stopped failure } _

theorem still_charge (stage : Stage) (began ended : Duration) :
    (t.charge stage began ended).still loud = (t.still loud).charge stage .zero .zero := by
  have hTimes := t.watch.times.still_charge stage (ended.minus began)
  unfold charge Stopwatch.charge still Stopwatch.still
  rw [hTimes]
  rfl

/-- At the end of the input a still transfer goes on like the one it was made from. -/
theorem still_endInput : t.endInput.still loud = (t.still loud).endInput := by
  have hCodec : (t.still loud).codec = t.codec := rfl
  unfold endInput
  rw [hCodec]
  cases t.codec with
  | encoder e => rfl
  | decoder d =>
      dsimp only
      cases d.finish.2 with
      | none => rfl
      | some digit => exact still_note ..

/-- The same of the answer to a read. -/
theorem still_onRead (answer : Except ChannelError (Nat × List UInt8)) :
    (t.onRead answer).still loud = (t.still loud).onRead answer := by
  match answer with
  | .error error => exact still_stop ..
  | .ok (0, buffer) => exact still_endInput loud { t with buffer }
  | .ok (count + 1, buffer) => rfl

/-- The same of a chunk that is translated. -/
theorem still_translate (count : Nat) :
    (t.translate count).still loud = (t.still loud).translate count := by
  have hFault : (Codec.chunk (t.still loud).codec (t.still loud).output
      ((t.still loud).buffer.take count)).fault =
        (t.codec.chunk t.output (t.buffer.take count)).fault := rfl
  unfold translate
  dsimp only
  rw [hFault]
  cases (t.codec.chunk t.output (t.buffer.take count)).fault with
  | none => rfl
  | some error => rfl

/-- The same of the answer to a write. -/
theorem still_onWritten (next : Next) (answer : Except ChannelError Unit) :
    (t.onWritten next answer).still loud = (t.still loud).onWritten next answer := by
  cases answer with
  | error error => exact still_stop ..
  | ok => rfl

/-- The same of the answer to a flush. -/
theorem still_onFlushed (next : Next) (answer : Except ChannelError Unit) :
    (t.onFlushed next answer).still loud = (t.still loud).onFlushed next answer := by
  cases answer with
  | error error => exact still_stop ..
  | ok =>
      cases next with
      | read => rfl
      | fail error => exact still_stop loud { t with output := #[] } _
      | close => rfl

/-- Even the summary of a still transfer needs no time. -/
theorem still_close (now : Duration) : (t.close now).still loud = (t.still loud).close .zero := by
  have hSummary := Summary.still_of t.settings.mode t.tally (t.watch.finish now) now
  unfold close
  rw [still_note, Notice.still, hSummary]
  simp only [still, Phase.still, hSummary]
  rfl

end Transfer

namespace Session

/-- A still session goes on as what is left of the other one. -/
theorem still_step (loud : Bool) (s : Session) : s.step.still loud = (s.still loud).step := by
  have hStill : (s.still loud).transfer.phase = s.transfer.phase.still := rfl
  cases hPhase : s.transfer.phase with
  | reading =>
      rw [hPhase] at hStill
      rw [step_of_reading hPhase, step_of_reading hStill, Session.still, Transfer.still_onRead,
        Transfer.still_charge]
      rfl
  | translating count =>
      rw [hPhase] at hStill
      rw [step_of_translating hPhase, step_of_translating hStill, Session.still,
        Transfer.still_translate, Transfer.still_charge]
      rfl
  | writing next =>
      rw [hPhase] at hStill
      rw [step_of_writing hPhase, step_of_writing hStill, Session.still, Transfer.still_onWritten,
        Transfer.still_charge]
      rfl
  | flushing next =>
      rw [hPhase] at hStill
      rw [step_of_flushing hPhase, step_of_flushing hStill, Session.still,
        Transfer.still_onFlushed, Transfer.still_charge]
      rfl
  | closing =>
      rw [hPhase] at hStill
      rw [step_of_closing hPhase, step_of_closing hStill, Session.still, Transfer.still_close]
      rfl
  | finished summary =>
      have hOver : s.transfer.phase = Phase.ofResult (.ok summary) := hPhase
      rw [hOver, Phase.still_ofResult] at hStill
      rw [step_of_over hOver, step_of_over hStill]
  | stopped failure =>
      have hOver : s.transfer.phase = Phase.ofResult (.error failure) := hPhase
      rw [hOver, Phase.still_ofResult] at hStill
      rw [step_of_over hOver, step_of_over hStill]

/-- A still session begins without a clock, and is as loud as both wish it to be. -/
theorem still_begin (loud : Bool) (settings : Settings) (channel : Channel) (clock : Clock) :
    (Session.begin settings channel clock).still loud =
      Session.begin { settings with trace := settings.trace && loud } channel {} := by
  have hValidate : Settings.validate { settings with trace := settings.trace && loud } =
      settings.validate := rfl
  unfold Session.begin Session.still Transfer.start
  rw [hValidate]
  dsimp only
  cases settings.validate with
  | error error => cases loud <;> rfl
  | ok =>
      simp only [Transfer.still_note]
      cases loud <;> rfl

end Session

/-- A transfer on any clock, seen without it and without its reports unless they
are wanted, is the transfer on a clock that stands still. -/
theorem transfer_still (loud : Bool) {settings : Settings} {channel : Channel} {clock : Clock}
    {result : Except Failure Summary} {session : Session}
    (hRun : transfer settings channel clock = (result, session)) :
    transfer { settings with trace := settings.trace && loud } channel {} =
      (result.map Summary.still, session.still loud) := by
  rcases hStill : transfer { settings with trace := settings.trace && loud } channel {} with
    ⟨result', session'⟩
  obtain ⟨rfl, hPhase, hPhase'⟩ := transfers_preserve (motive := fun s t => t = s.still loud)
    hRun hStill (Session.still_begin loud settings channel clock).symm
    (fun s t h => by rw [h, Session.still_step])
  have hResult : Phase.ofResult result' = Phase.ofResult (result.map Summary.still) := by
    rw [← hPhase', ← Phase.still_ofResult, ← hPhase]
    rfl
  rw [Phase.ofResult_injective hResult]

end HexFilter
