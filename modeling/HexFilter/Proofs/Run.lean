import HexFilter.Session
import Mathlib.Logic.Function.Iterate

/-! The steps of a session without the readings of its clock, and what a whole
run keeps of what every step keeps. -/
namespace HexFilter

/-- The phase in which a transfer is over with this result. -/
def Phase.ofResult : Except Failure Summary → Phase
  | .ok summary => .finished summary
  | .error failure => .stopped failure

namespace Session

section Steps

variable {s : Session}

theorem step_of_reading (hPhase : s.transfer.phase = .reading) :
    s.step =
      { transfer := (s.transfer.charge .read s.clock.read.1 s.clock.read.2.read.1).onRead
          (s.channel.readInto s.transfer.buffer).1
        channel := (s.channel.readInto s.transfer.buffer).2
        clock := s.clock.read.2.read.2 } := by
  unfold step
  simp only [hPhase]

theorem step_of_translating {count : Nat} (hPhase : s.transfer.phase = .translating count) :
    s.step =
      { s with
        transfer := (s.transfer.charge (Stage.ofMode s.transfer.codec.mode) s.clock.read.1
          s.clock.read.2.read.1).translate count
        clock := s.clock.read.2.read.2 } := by
  unfold step
  simp only [hPhase]

theorem step_of_writing {next : Next} (hPhase : s.transfer.phase = .writing next) :
    s.step =
      { transfer := (s.transfer.charge .write s.clock.read.1 s.clock.read.2.read.1).onWritten next
          (s.channel.writeAll s.transfer.output.toList).1
        channel := (s.channel.writeAll s.transfer.output.toList).2
        clock := s.clock.read.2.read.2 } := by
  unfold step
  simp only [hPhase]

theorem step_of_flushing {next : Next} (hPhase : s.transfer.phase = .flushing next) :
    s.step =
      { transfer := (s.transfer.charge .flush s.clock.read.1 s.clock.read.2.read.1).onFlushed next
          s.channel.flush.1
        channel := s.channel.flush.2
        clock := s.clock.read.2.read.2 } := by
  unfold step
  simp only [hPhase]

theorem step_of_closing (hPhase : s.transfer.phase = .closing) :
    s.step =
      { s with transfer := s.transfer.close s.clock.read.1, clock := s.clock.read.2 } := by
  unfold step
  simp only [hPhase]

/-- A session that is over stays as it is. -/
theorem step_of_over {result : Except Failure Summary}
    (hPhase : s.transfer.phase = Phase.ofResult result) : s.step = s := by
  unfold step
  cases result with
  | ok summary => simp only [hPhase, Phase.ofResult]
  | error failure => simp only [hPhase, Phase.ofResult]

end Steps

/-- What one step does, whatever the clock shows. -/
inductive Moves (s : Session) : Session → Prop where
  | read (began ended : Duration) (clock : Clock) (hPhase : s.transfer.phase = .reading) :
      Moves s
        { transfer := (s.transfer.charge .read began ended).onRead
            (s.channel.readInto s.transfer.buffer).1
          channel := (s.channel.readInto s.transfer.buffer).2
          clock }
  | translate (count : Nat) (stage : Stage) (began ended : Duration) (clock : Clock)
      (hPhase : s.transfer.phase = .translating count) :
      Moves s { s with transfer := (s.transfer.charge stage began ended).translate count, clock }
  | write (next : Next) (began ended : Duration) (clock : Clock)
      (hPhase : s.transfer.phase = .writing next) :
      Moves s
        { transfer := (s.transfer.charge .write began ended).onWritten next
            (s.channel.writeAll s.transfer.output.toList).1
          channel := (s.channel.writeAll s.transfer.output.toList).2
          clock }
  | flush (next : Next) (began ended : Duration) (clock : Clock)
      (hPhase : s.transfer.phase = .flushing next) :
      Moves s
        { transfer := (s.transfer.charge .flush began ended).onFlushed next s.channel.flush.1
          channel := s.channel.flush.2
          clock }
  | close (now : Duration) (clock : Clock) (hPhase : s.transfer.phase = .closing) :
      Moves s { s with transfer := s.transfer.close now, clock }
  | rest : Moves s s

/-- Every step is one of the moves. -/
theorem moves_step (s : Session) : s.Moves s.step := by
  cases hPhase : s.transfer.phase with
  | reading =>
      rw [step_of_reading hPhase]
      exact .read _ _ _ hPhase
  | translating count =>
      rw [step_of_translating hPhase]
      exact .translate count _ _ _ _ hPhase
  | writing next =>
      rw [step_of_writing hPhase]
      exact .write next _ _ _ hPhase
  | flushing next =>
      rw [step_of_flushing hPhase]
      exact .flush next _ _ _ hPhase
  | closing =>
      rw [step_of_closing hPhase]
      exact .close _ _ hPhase
  | finished summary =>
      have hOver : s.transfer.phase = Phase.ofResult (.ok summary) := hPhase
      rw [step_of_over hOver]
      exact .rest
  | stopped failure =>
      have hOver : s.transfer.phase = Phase.ofResult (.error failure) := hPhase
      rw [step_of_over hOver]
      exact .rest

/-- What every step keeps holds at the end of a run. -/
theorem run_preserves {motive : Session → Prop}
    (hStep : ∀ s : Session, motive s → motive s.step) {s : Session} (h : motive s) :
    motive s.run.2 := by
  fun_induction run s with
  | case1 s summary hPhase => exact h
  | case2 s failure hPhase => exact h
  | case3 s hPhase ih => exact ih (hStep s h)
  | case4 s count hPhase ih => exact ih (hStep s h)
  | case5 s next hPhase ih => exact ih (hStep s h)
  | case6 s next hPhase ih => exact ih (hStep s h)
  | case7 s hPhase ih => exact ih (hStep s h)

/-- A run ends in the phase that its result tells. -/
theorem phase_run (s : Session) : s.run.2.transfer.phase = Phase.ofResult s.run.1 := by
  fun_induction run s with
  | case1 s summary hPhase => exact hPhase
  | case2 s failure hPhase => exact hPhase
  | case3 s hPhase ih => exact ih
  | case4 s count hPhase ih => exact ih
  | case5 s next hPhase ih => exact ih
  | case6 s next hPhase ih => exact ih
  | case7 s hPhase ih => exact ih

section Over

variable {s : Session} {result : Except Failure Summary}

/-- A session that is over runs no further. -/
theorem run_of_over (hPhase : s.transfer.phase = Phase.ofResult result) : s.run = (result, s) := by
  fun_cases run s with
  | case1 summary hOver =>
      rw [hPhase] at hOver
      cases result with
      | ok other =>
          cases hOver
          rfl
      | error failure => cases hOver
  | case2 failure hOver =>
      rw [hPhase] at hOver
      cases result with
      | ok summary => cases hOver
      | error other =>
          cases hOver
          rfl
  | case3 hOver | case4 count hOver | case5 next hOver | case6 next hOver | case7 hOver =>
      rw [hPhase] at hOver
      cases result with
      | ok summary => cases hOver
      | error failure => cases hOver

end Over

/-- From each of its steps on a session comes to the same end. -/
theorem run_step (s : Session) : s.step.run = s.run := by
  fun_cases run s with
  | case1 summary hPhase =>
      have hOver : s.transfer.phase = Phase.ofResult (.ok summary) := hPhase
      rw [step_of_over hOver, run_of_over hOver]
  | case2 failure hPhase =>
      have hOver : s.transfer.phase = Phase.ofResult (.error failure) := hPhase
      rw [step_of_over hOver, run_of_over hOver]
  | case3 | case4 | case5 | case6 | case7 => rfl

/-- From every moment on a session comes to the same end. -/
theorem run_iterate (s : Session) (steps : Nat) : (step^[steps] s).run = s.run := by
  induction steps generalizing s with
  | zero => rfl
  | succ steps ih => rw [Function.iterate_succ_apply, ih, run_step]

/-- What two sessions keep between them, step by step, holds at the end of both
runs. The one that is over first waits for the other. -/
theorem runs_preserve {motive : Session → Session → Prop}
    (hStep : ∀ s t : Session, motive s t → motive s.step t.step) {s t : Session}
    (h : motive s t) : motive s.run.2 t.run.2 := by
  have waits {s t : Session} {result : Except Failure Summary}
      (hOver : s.transfer.phase = Phase.ofResult result) (h : motive s t) : motive s t.run.2 := by
    refine run_preserves (motive := motive s) (fun u hu => ?_) h
    have hNext := hStep s u hu
    rwa [step_of_over hOver] at hNext
  have goes {s t : Session} (ih : ∀ {t}, motive s.step t → motive s.step.run.2 t.run.2)
      (h : motive s t) : motive s.step.run.2 t.run.2 := by
    rw [← run_step t]
    exact ih (hStep s t h)
  fun_induction run s generalizing t with
  | case1 s summary hPhase =>
      have hOver : s.transfer.phase = Phase.ofResult (.ok summary) := hPhase
      exact waits hOver h
  | case2 s failure hPhase =>
      have hOver : s.transfer.phase = Phase.ofResult (.error failure) := hPhase
      exact waits hOver h
  | case3 s hPhase ih => exact goes ih h
  | case4 s count hPhase ih => exact goes ih h
  | case5 s next hPhase ih => exact goes ih h
  | case6 s next hPhase ih => exact goes ih h
  | case7 s hPhase ih => exact goes ih h

end Session

/-- A transfer ends in the phase that its result tells, and with all that held at
its beginning and that every step keeps. -/
theorem transfer_preserves {motive : Session → Prop} {settings : Settings} {channel : Channel}
    {clock : Clock} {result : Except Failure Summary} {session : Session}
    (hRun : transfer settings channel clock = (result, session))
    (hStart : motive (Session.begin settings channel clock))
    (hStep : ∀ s : Session, motive s → motive s.step) :
    motive session ∧ session.transfer.phase = Phase.ofResult result := by
  have hEnd := Session.run_preserves hStep hStart
  have hPhase := Session.phase_run (Session.begin settings channel clock)
  rw [← transfer, hRun] at hEnd hPhase
  exact ⟨hEnd, hPhase⟩

/-- No move makes a reader of the output appear or go away. -/
theorem Session.Moves.sink_unread {s next : Session} (moves : s.Moves next) :
    next.channel.sink.unread = s.channel.sink.unread := by
  cases moves with
  | flush => exact s.channel.unread_flush
  | read | translate | write | close | rest => rfl

/-- A sink that nobody reads stays so, and any other too. -/
theorem transfer_sink_unread {settings : Settings} {channel : Channel} {clock : Clock}
    {result : Except Failure Summary} {session : Session}
    (hRun : transfer settings channel clock = (result, session)) :
    session.channel.sink.unread = channel.sink.unread :=
  (transfer_preserves (motive := fun s => s.channel.sink.unread = channel.sink.unread) hRun rfl
    fun s h => s.moves_step.sink_unread.trans h).1

/-- Refused settings are the end of a transfer when it begins. -/
theorem transfer_of_refused {settings : Settings} {error : SettingsError}
    (hRefused : settings.validate = .error error) (channel : Channel) (clock : Clock) :
    transfer settings channel clock =
      (.error (.settings error), Session.begin settings channel clock) := by
  have hPhase : (Session.begin settings channel clock).transfer.phase =
      Phase.ofResult (.error (.settings error)) := by
    simp [Session.begin, Transfer.start, hRefused, Phase.ofResult]
  rw [transfer, Session.run_of_over hPhase]

/-- The phase in which a transfer is over tells its result. -/
theorem Phase.ofResult_injective : Function.Injective Phase.ofResult := by
  intro result other h
  cases result with
  | ok summary =>
      cases other with
      | ok => exact congrArg Except.ok (Phase.finished.inj h)
      | error => cases h
  | error failure =>
      cases other with
      | ok => cases h
      | error => exact congrArg Except.error (Phase.stopped.inj h)

/-- The same of two transfers: what holds between them at their beginning, and
is kept step by step, holds between them in the end. -/
theorem transfers_preserve {motive : Session → Session → Prop} {settings settings' : Settings}
    {channel channel' : Channel} {clock clock' : Clock} {result result' : Except Failure Summary}
    {session session' : Session}
    (hRun : transfer settings channel clock = (result, session))
    (hRun' : transfer settings' channel' clock' = (result', session'))
    (hStart :
      motive (Session.begin settings channel clock) (Session.begin settings' channel' clock'))
    (hStep : ∀ s t : Session, motive s t → motive s.step t.step) :
    motive session session' ∧ session.transfer.phase = Phase.ofResult result ∧
      session'.transfer.phase = Phase.ofResult result' := by
  have hEnd := Session.runs_preserve hStep hStart
  have hPhase := Session.phase_run (Session.begin settings channel clock)
  have hPhase' := Session.phase_run (Session.begin settings' channel' clock')
  rw [← transfer, hRun] at hEnd hPhase
  rw [← transfer, hRun'] at hEnd hPhase'
  exact ⟨hEnd, hPhase, hPhase'⟩

end HexFilter
