import HexFilter.Proofs.Run

/-! The time charged to the stages of a transfer. Stages do not overlap, and the
clock only moves forward, so all of them together take no longer than the
transfer does. -/
namespace HexFilter

/-- A capped sum is never longer than the exact one. -/
theorem Duration.nanos_addCapped_le (a b : Duration) :
    (a.addCapped b).nanos ≤ a.nanos + b.nanos := by
  unfold addCapped add? ofNanos?
  split
  · exact Nat.le_refl _
  · simp only [Option.getD_none, longest]
    omega

theorem Duration.le_addCapped (a b : Duration) : a.nanos ≤ (a.addCapped b).nanos := by
  have hLimit : a.nanos < limit := a.lt_limit
  unfold addCapped add? ofNanos?
  split
  · exact Nat.le_add_right _ _
  · simp only [Option.getD_none, longest]
    omega

/-- The clock only moves forward. -/
theorem Clock.now_le_read (c : Clock) : c.now.nanos ≤ c.read.2.now.nanos := by
  unfold read
  split
  · exact Nat.le_refl _
  · exact Duration.le_addCapped _ _

theorem Clock.fst_read (c : Clock) : c.read.1 = c.now := by
  unfold read
  split <;> rfl

namespace Timesheet

theorem get_charge_self (t : Timesheet) (stage : Stage) (d : Duration) :
    (t.charge stage d).get stage = (t.get stage).addCapped d := by
  rw [charge, get, entry_put_self]
  rfl

theorem get_charge_of_ne (t : Timesheet) {stage other : Stage} (d : Duration)
    (h : other ≠ stage) : (t.charge stage d).get other = t.get other := by
  rw [charge, get, entry_put_of_ne _ _ h]
  rfl

/-- The nanoseconds charged to all stages. -/
def spent (t : Timesheet) : Nat :=
  (t.get .read).nanos + (t.get .encode).nanos + (t.get .decode).nanos + (t.get .write).nanos +
    (t.get .flush).nanos

/-- A charge adds no more than itself to all that was spent. -/
theorem spent_charge_le (t : Timesheet) (stage : Stage) (d : Duration) :
    (t.charge stage d).spent ≤ t.spent + d.nanos := by
  have hCharge := (t.get stage).nanos_addCapped_le d
  have hSelf := t.get_charge_self stage d
  have hOther (other : Stage) (h : other ≠ stage) := t.get_charge_of_ne d h
  unfold spent
  cases stage <;> simp only [hSelf, hOther, ne_eq, reduceCtorEq, not_false_eq_true] <;> omega

/-- The total is exact as long as it is a duration at all. -/
theorem total_eq_ok {t : Timesheet} (h : t.spent < Duration.limit) :
    t.total = .ok ⟨t.spent, h⟩ := by
  have hSum : Duration.sum? (Stage.all.map t.get) = Duration.ofNanos? t.spent := by
    simp [Duration.sum?, Stage.all, spent]
  rw [total, hSum, Duration.ofNanos?, dif_pos h]

end Timesheet

namespace Transfer

/-- The stages took no longer than from the start until now. In the end it is
the summary that says so. -/
def InTime (t : Transfer) (now : Duration) : Prop :=
  match t.phase with
  | .finished summary => ∃ total, summary.times.total = .ok total ∧ total ≤ summary.elapsed
  | _ => t.watch.started.nanos + t.watch.times.spent ≤ now.nanos

variable {t : Transfer} {now : Duration}

theorem InTime.note (inTime : t.InTime now) (notice : Notice) : (t.note notice).InTime now := by
  unfold Transfer.note
  split
  · exact inTime
  · exact inTime

/-- A stage that began and ended in time is charged. -/
theorem spent_charge_le {began ended : Duration}
    (h : t.watch.started.nanos + t.watch.times.spent ≤ began.nanos)
    (hEnded : began.nanos ≤ ended.nanos) (stage : Stage) :
    (t.charge stage began ended).watch.started.nanos +
      (t.charge stage began ended).watch.times.spent ≤ ended.nanos := by
  have hSpent := t.watch.times.spent_charge_le stage (ended.minus began)
  have hMinus : (ended.minus began).nanos = ended.nanos - began.nanos := rfl
  rw [hMinus] at hSpent
  simp only [charge, Stopwatch.charge]
  omega

section Steps

variable (h : t.watch.started.nanos + t.watch.times.spent ≤ now.nanos)

include h

/-- A transfer that stops has charged nothing since. -/
theorem inTime_stop (failure : Failure) : (t.stop failure).InTime now := by
  apply InTime.note
  exact h

/-- The end of the input takes no time of its own. -/
theorem inTime_endInput : t.endInput.InTime now := by
  unfold endInput
  split
  · exact h
  · dsimp only
    split
    · exact h
    · apply InTime.note
      exact h

theorem inTime_onRead (answer : Except ChannelError (Nat × List UInt8)) :
    (t.onRead answer).InTime now := by
  match answer with
  | .error error => exact inTime_stop h _
  | .ok (0, buffer) => exact inTime_endInput (t := { t with buffer }) h
  | .ok (count + 1, buffer) => exact h

theorem inTime_onWritten (next : Next) (answer : Except ChannelError Unit) :
    (t.onWritten next answer).InTime now := by
  cases answer with
  | error error => exact inTime_stop h _
  | ok => exact h

theorem inTime_onFlushed (next : Next) (answer : Except ChannelError Unit) :
    (t.onFlushed next answer).InTime now := by
  cases answer with
  | error error => exact inTime_stop h _
  | ok =>
      cases next with
      | read => exact h
      | fail error => exact inTime_stop (t := { t with output := #[] }) h _
      | close => exact h

/-- The time in between the stages is charged to none, and so the whole
transfer takes at least as long as all its stages. -/
theorem inTime_close (later : Duration) : (t.close now).InTime later := by
  have hLimit : now.nanos < Duration.limit := now.lt_limit
  have hTotal := Timesheet.total_eq_ok (t := t.watch.times) (by omega)
  apply InTime.note
  refine ⟨_, hTotal, ?_⟩
  have hElapsed : t.watch.times.spent ≤ now.nanos - t.watch.started.nanos := by omega
  exact hElapsed

end Steps

end Transfer

namespace Session

def InTime (s : Session) : Prop := s.transfer.InTime s.clock.now

/-- Between its two readings of the clock a step charges one stage. -/
theorem spent_charge_le {s : Session}
    (h : s.transfer.watch.started.nanos + s.transfer.watch.times.spent ≤ s.clock.now.nanos)
    (stage : Stage) :
    let t := s.transfer.charge stage s.clock.read.1 s.clock.read.2.read.1
    t.watch.started.nanos + t.watch.times.spent ≤ s.clock.read.2.read.2.now.nanos := by
  have hBegan : s.clock.read.1 = s.clock.now := s.clock.fst_read
  have hEnded : s.clock.read.2.read.1 = s.clock.read.2.now := s.clock.read.2.fst_read
  have hBetween := s.clock.now_le_read
  have hAfter := s.clock.read.2.now_le_read
  rw [hBegan, hEnded]
  exact Nat.le_trans (Transfer.spent_charge_le h hBetween stage) hAfter

/-- Every step charges no more than the time between its readings of the clock. -/
theorem InTime.step {s : Session} (inTime : s.InTime) : s.step.InTime := by
  have kept := inTime
  unfold InTime Transfer.InTime at inTime
  cases hPhase : s.transfer.phase with
  | reading =>
      rw [hPhase] at inTime
      rw [step_of_reading hPhase]
      exact Transfer.inTime_onRead (spent_charge_le inTime .read) _
  | translating count =>
      rw [hPhase] at inTime
      rw [step_of_translating hPhase]
      exact spent_charge_le inTime _
  | writing next =>
      rw [hPhase] at inTime
      rw [step_of_writing hPhase]
      exact Transfer.inTime_onWritten (spent_charge_le inTime .write) _ _
  | flushing next =>
      rw [hPhase] at inTime
      rw [step_of_flushing hPhase]
      exact Transfer.inTime_onFlushed (spent_charge_le inTime .flush) _ _
  | closing =>
      rw [hPhase, ← s.clock.fst_read] at inTime
      rw [step_of_closing hPhase]
      exact Transfer.inTime_close inTime _
  | finished summary =>
      have hOver : s.transfer.phase = Phase.ofResult (.ok summary) := hPhase
      rwa [step_of_over hOver]
  | stopped failure =>
      have hOver : s.transfer.phase = Phase.ofResult (.error failure) := hPhase
      rwa [step_of_over hOver]

/-- At the beginning nothing is charged. -/
theorem inTime_begin (settings : Settings) (channel : Channel) (clock : Clock) :
    (Session.begin settings channel clock).InTime := by
  have hNow : clock.read.1.nanos ≤ clock.read.2.now.nanos := by
    rw [clock.fst_read]
    exact clock.now_le_read
  unfold InTime Session.begin Transfer.start
  dsimp only
  split
  · exact hNow
  · apply Transfer.InTime.note
    exact hNow

end Session

/-- The stages of a transfer took no longer than the transfer. -/
theorem transfer_inTime {settings : Settings} {channel : Channel} {clock : Clock}
    {summary : Summary} {session : Session}
    (hRun : transfer settings channel clock = (.ok summary, session)) :
    ∃ total, summary.times.total = .ok total ∧ total ≤ summary.elapsed := by
  obtain ⟨inTime, hPhase⟩ := transfer_preserves hRun
    (Session.inTime_begin settings channel clock) (fun _ h => h.step)
  unfold Session.InTime Transfer.InTime at inTime
  rwa [hPhase] at inTime

end HexFilter
