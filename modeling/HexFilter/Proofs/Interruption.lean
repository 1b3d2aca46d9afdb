import HexFilter.Proofs.Log
import HexFilter.Proofs.Still

/-! Calls that are interrupted and made again. Two transfers run side by side, on
scripts that differ only by interruptions; all that tells them apart is the
calls that were interrupted. -/
namespace HexFilter

/-- The second list is the first with further elements put in, anywhere and any
number of them, but only of this kind. -/
inductive Interspersed {α : Type} (extra : α → Prop) : List α → List α → Prop where
  | nil : Interspersed extra [] []
  | kept (x : α) {xs ys : List α} (later : Interspersed extra xs ys) :
      Interspersed extra (x :: xs) (x :: ys)
  | added {x : α} {xs ys : List α} (hExtra : extra x) (later : Interspersed extra xs ys) :
      Interspersed extra xs (x :: ys)

namespace Interspersed

variable {α β : Type} {extra : α → Prop} {xs ys : List α}

/-- The lists may grow at their ends by the same element. -/
theorem concat (spread : Interspersed extra xs ys) (x : α) :
    Interspersed extra (xs ++ [x]) (ys ++ [x]) := by
  induction spread with
  | nil => exact .kept x .nil
  | kept y _ ih => exact .kept y ih
  | added hExtra _ ih => exact .added hExtra ih

theorem concat_added (spread : Interspersed extra xs ys) {x : α} (hExtra : extra x) :
    Interspersed extra xs (ys ++ [x]) := by
  induction spread with
  | nil => exact .added hExtra .nil
  | kept y _ ih => exact .kept y ih
  | added hOther _ ih => exact .added hOther ih

theorem push {log log' : Array α} (spread : Interspersed extra log.toList log'.toList) (x : α) :
    Interspersed extra (log.push x).toList (log'.push x).toList := by
  simpa using spread.concat x

theorem push_added {log log' : Array α} (spread : Interspersed extra log.toList log'.toList) {x : α}
    (hExtra : extra x) : Interspersed extra log.toList (log'.push x).toList := by
  simpa using spread.concat_added hExtra

/-- What says nothing of the added elements says the same of both lists. -/
theorem flatMap_eq (spread : Interspersed extra xs ys) {f : α → List β}
    (hNothing : ∀ x, extra x → f x = []) : ys.flatMap f = xs.flatMap f := by
  induction spread with
  | nil => rfl
  | kept x _ ih => rw [List.flatMap_cons, List.flatMap_cons, ih]
  | added hExtra _ ih => rw [List.flatMap_cons, hNothing _ hExtra, List.nil_append, ih]

end Interspersed

/-- The next read call is interrupted. -/
def ReadStep.Interrupts : ReadStep → Prop
  | .fail error => error.isInterrupted
  | _ => False

/-- The next write call is interrupted. -/
def WriteStep.Interrupts : WriteStep → Prop
  | .fail error => error.isInterrupted
  | _ => False

/-- A call that was interrupted and is made again. An interrupted flush is
not. -/
def Event.Retried : Event → Prop
  | .readFailed _ error => error.isInterrupted
  | .writeFailed _ error => error.isInterrupted
  | _ => False

/-- A call that is made again has accepted nothing. -/
theorem Event.Retried.accepted {event : Event} (retried : event.Retried) : event.accepted = [] := by
  cases event with
  | readFailed | writeFailed => rfl
  | received | wrote | flushed | flushFailed => cases retried

namespace Channel

/-- Two answers are the same. What is left of the scripts and what was logged
differs by interruptions. -/
structure SameAnswer {α σ : Type} (interrupts : σ → Prop)
    (first second : Except ChannelError α × List σ × Array Event) : Prop where
  answer_eq : second.1 = first.1
  script : Interspersed interrupts first.2.1 second.2.1
  log : Interspersed Event.Retried first.2.2.toList second.2.2.toList

variable {log log' : Array Event}

/-- Interruptions in between do not change what a read gets. -/
theorem receive_interspersed (limit : Nat) {source source' : Source}
    (script : Interspersed ReadStep.Interrupts source source')
    (calls : Interspersed Event.Retried log.toList log'.toList) :
    SameAnswer ReadStep.Interrupts (receive limit log source) (receive limit log' source') := by
  -- The logs are general, since an interrupted call is logged before the next is made.
  induction script generalizing log log' with
  | nil => exact ⟨rfl, .nil, calls.push _⟩
  | @kept step rest rest' later ih =>
      cases step with
      | ended => exact ⟨rfl, later, calls.push _⟩
      | fail error =>
          cases hInterrupted : error.isInterrupted with
          | true =>
              simp only [receive, hInterrupted, if_true]
              exact ih (calls.push _)
          | false =>
              simp only [receive, hInterrupted, Bool.false_eq_true, if_false]
              exact ⟨rfl, later, calls.push _⟩
      | data bytes most =>
          cases bytes with
          | nil => exact ih calls
          | cons byte bytes => exact ⟨rfl, .kept _ later, calls.push _⟩
  | @added step source rest' hExtra later ih =>
      cases step with
      | fail error =>
          have hInterrupted : error.isInterrupted = true := hExtra
          have hRetried : (Event.readFailed limit error).Retried := hExtra
          simp only [receive, hInterrupted, if_true]
          exact ih (calls.push_added hRetried)
      | data | ended => cases hExtra

theorem offer_nil (log : Array Event) (steps : List WriteStep) :
    offer log steps [] = (.ok (), steps, log) := by
  simp only [offer]

/-- Nor do they change how a write ends, whatever was taken before them. -/
theorem offer_interspersed {steps steps' : List WriteStep}
    (script : Interspersed WriteStep.Interrupts steps steps')
    (calls : Interspersed Event.Retried log.toList log'.toList) (data : List UInt8) :
    SameAnswer WriteStep.Interrupts (offer log steps data) (offer log' steps' data) := by
  induction script generalizing log log' data with
  | nil =>
      cases data with
      | nil => exact ⟨rfl, .nil, calls⟩
      | cons byte bytes => exact ⟨rfl, .nil, calls.push _⟩
  | @kept step rest rest' later ih =>
      cases data with
      | nil =>
          rw [offer_nil, offer_nil]
          exact ⟨rfl, .kept step later, calls⟩
      | cons byte bytes =>
          cases step with
          | fail error =>
              cases hInterrupted : error.isInterrupted with
              | true =>
                  simp only [offer, hInterrupted, if_true]
                  exact ih (calls.push _) _
              | false =>
                  simp only [offer, hInterrupted, Bool.false_eq_true, if_false]
                  exact ⟨rfl, later, calls.push _⟩
          | accept most =>
              simp only [offer]
              split
              · exact ⟨rfl, later, calls.push _⟩
              · exact ih (calls.push _) _
  | @added step steps rest' hExtra later ih =>
      cases data with
      | nil =>
          rw [offer_nil, offer_nil]
          exact ⟨rfl, .added hExtra later, calls⟩
      | cons byte bytes =>
          cases step with
          | fail error =>
              have hInterrupted : error.isInterrupted = true := hExtra
              have hRetried : (Event.writeFailed (byte :: bytes) error).Retried := hExtra
              simp only [offer, hInterrupted, if_true]
              exact ih (calls.push_added hRetried) _
          | accept => cases hExtra

/-- The second channel is the first with interruptions to come on reading and
writing, and with the calls logged that were interrupted so far. -/
structure Disturbed (c c' : Channel) : Prop where
  source : Interspersed ReadStep.Interrupts c.source c'.source
  writes : Interspersed WriteStep.Interrupts c.sink.writes c'.sink.writes
  flushes_eq : c'.sink.flushes = c.sink.flushes
  unread_eq : c'.sink.unread = c.sink.unread
  log : Interspersed Event.Retried c.log.toList c'.log.toList

variable {c c' : Channel}

/-- A disturbed read has the same answer, only later. -/
theorem Disturbed.readInto (disturbed : c.Disturbed c') (buffer : List UInt8) :
    (c'.readInto buffer).1 = (c.readInto buffer).1 ∧
      (c.readInto buffer).2.Disturbed (c'.readInto buffer).2 := by
  obtain ⟨hAnswer, source, log⟩ :=
    receive_interspersed buffer.length disturbed.source disturbed.log
  exact ⟨congrArg (Except.map (fill buffer)) hAnswer, source, disturbed.writes,
    disturbed.flushes_eq, disturbed.unread_eq, log⟩

/-- A disturbed write has the same answer, only later. -/
theorem Disturbed.writeAll (disturbed : c.Disturbed c') (data : List UInt8) :
    (c'.writeAll data).1 = (c.writeAll data).1 ∧
      (c.writeAll data).2.Disturbed (c'.writeAll data).2 := by
  obtain ⟨hAnswer, writes, log⟩ := offer_interspersed disturbed.writes disturbed.log data
  exact ⟨hAnswer, disturbed.source, writes, disturbed.flushes_eq, disturbed.unread_eq, log⟩

/-- A call that was interrupted has taken nothing. -/
theorem Disturbed.accepted_eq (disturbed : c.Disturbed c') : c'.accepted = c.accepted :=
  disturbed.log.flatMap_eq fun _ retried => retried.accepted

/-- A flush is made once, so both channels answer with the same step. -/
theorem Disturbed.flush (disturbed : c.Disturbed c') :
    c'.flush.1 = c.flush.1 ∧ c.flush.2.Disturbed c'.flush.2 := by
  have hNext : c'.nextFlush = c.nextFlush := by
    rw [nextFlush, disturbed.flushes_eq, disturbed.unread_eq, disturbed.accepted_eq, nextFlush]
  obtain ⟨source, writes, -, hUnread, log⟩ := disturbed
  cases hStep : c.nextFlush.1 with
  | none =>
      rw [flush_of_none hStep, flush_of_none (hNext ▸ hStep), hNext]
      exact ⟨rfl, source, writes, rfl, hUnread, log.push _⟩
  | some error =>
      rw [flush_of_some hStep, flush_of_some (hNext ▸ hStep), hNext]
      exact ⟨rfl, source, writes, rfl, hUnread, log.push _⟩

end Channel

/-- Two sessions that differ by interruptions only. -/
structure Session.Disturbed (s t : Session) : Prop where
  transfer_eq : t.transfer = s.transfer
  clock_eq : t.clock = s.clock
  channel : s.channel.Disturbed t.channel

/-- A disturbed session takes the same steps. -/
theorem Session.Disturbed.step {s t : Session} (disturbed : s.Disturbed t) :
    s.step.Disturbed t.step := by
  obtain ⟨hTransfer, hClock, channel⟩ := disturbed
  have hSame : t.transfer.phase = s.transfer.phase := congrArg Transfer.phase hTransfer
  cases hPhase : s.transfer.phase with
  | reading =>
      obtain ⟨hAnswer, after⟩ := channel.readInto s.transfer.buffer
      rw [hPhase] at hSame
      rw [step_of_reading hPhase, step_of_reading hSame, hTransfer, hClock, hAnswer]
      exact ⟨rfl, rfl, after⟩
  | translating count =>
      rw [hPhase] at hSame
      rw [step_of_translating hPhase, step_of_translating hSame, hTransfer, hClock]
      exact ⟨rfl, rfl, channel⟩
  | writing next =>
      obtain ⟨hAnswer, after⟩ := channel.writeAll s.transfer.output.toList
      rw [hPhase] at hSame
      rw [step_of_writing hPhase, step_of_writing hSame, hTransfer, hClock, hAnswer]
      exact ⟨rfl, rfl, after⟩
  | flushing next =>
      obtain ⟨hAnswer, after⟩ := channel.flush
      rw [hPhase] at hSame
      rw [step_of_flushing hPhase, step_of_flushing hSame, hTransfer, hClock, hAnswer]
      exact ⟨rfl, rfl, after⟩
  | closing =>
      rw [hPhase] at hSame
      rw [step_of_closing hPhase, step_of_closing hSame, hTransfer, hClock]
      exact ⟨rfl, rfl, channel⟩
  | finished summary =>
      have hOver : s.transfer.phase = Phase.ofResult (.ok summary) := hPhase
      rw [step_of_over hOver, step_of_over (hSame.trans hOver)]
      exact ⟨hTransfer, hClock, channel⟩
  | stopped failure =>
      have hOver : s.transfer.phase = Phase.ofResult (.error failure) := hPhase
      rw [step_of_over hOver, step_of_over (hSame.trans hOver)]
      exact ⟨hTransfer, hClock, channel⟩

/-- A disturbed transfer comes to the same end. -/
theorem transfer_disturbed {settings : Settings} {channel channel' : Channel} {clock : Clock}
    {result result' : Except Failure Summary} {session session' : Session}
    (disturbed : channel.Disturbed channel')
    (hRun : transfer settings channel clock = (result, session))
    (hRun' : transfer settings channel' clock = (result', session')) :
    result' = result ∧ session.Disturbed session' := by
  obtain ⟨after, hPhase, hPhase'⟩ := transfers_preserve (motive := Session.Disturbed) hRun hRun'
    ⟨rfl, rfl, disturbed⟩ (fun _ _ h => h.step)
  refine ⟨Phase.ofResult_injective ?_, after⟩
  rw [← hPhase, ← hPhase', after.transfer_eq]

/-- Put any interruptions between the steps of the source and anywhere among the
write calls to come. The transfer ends with the same error or, but for the
values of the clock, with the same summary, having made the same reports, and
the sink has accepted the same bytes. The calls made are the same too, apart
from further ones that were interrupted. If the clock goes alike, then so does
all that is told of it. -/
theorem interruptions_transparent (settings : Settings) {source source' : Source}
    (hSource : Interspersed ReadStep.Interrupts source source') (sink : Sink)
    {writes' : List WriteStep} (hWrites : Interspersed WriteStep.Interrupts sink.writes writes')
    (clock clock' : Clock) :
    let (result, session) := transfer settings { source, sink } clock
    let (result', session') :=
      transfer settings { source := source', sink := { sink with writes := writes' } } clock'
    session'.channel.accepted = session.channel.accepted ∧
    result'.map Summary.still = result.map Summary.still ∧
    session'.transfer.notices.map Notice.still = session.transfer.notices.map Notice.still ∧
    Interspersed Event.Retried session.channel.log.toList session'.channel.log.toList ∧
    (clock' = clock → result' = result ∧
      ∀ order, session'.transfer.reportIn order = session.transfer.reportIn order) := by
  have disturbed : Channel.Disturbed { source, sink }
      { source := source', sink := { sink with writes := writes' } } :=
    ⟨hSource, hWrites, rfl, rfl, .nil⟩
  rcases hRun : transfer settings { source, sink } clock with ⟨result, session⟩
  rcases hRun' : transfer settings { source := source', sink := { sink with writes := writes' } }
    clock' with ⟨result', session'⟩
  -- On two clocks only the still transfers can be compared step by step.
  obtain ⟨hResult, hTransfer, -, channel⟩ :=
    transfer_disturbed disturbed (transfer_still true hRun) (transfer_still true hRun')
  dsimp only
  refine ⟨channel.accepted_eq, hResult,
    congrArg Transfer.notices hTransfer, channel.log, ?_⟩
  rintro rfl
  obtain ⟨hSame, after⟩ := transfer_disturbed disturbed hRun hRun'
  exact ⟨hSame, fun order => congrArg (Transfer.reportIn order) after.transfer_eq⟩

/-- An interruption before the first read, one in the midst of a write, and one
right before the read that fails for good. -/
theorem interruptions_transparent_amid_write :
    let settings : Settings := { mode := .decode, chunkSize := 4, trace := true }
    let data : ReadStep := .data [52, 97, 52, 98] none
    let reset : ChannelError := ⟨.connectionReset, none⟩
    let interruption : ChannelError := ⟨.interrupted, none⟩
    let source : Source := [data, .fail reset]
    let source' : Source := [.fail interruption, data, .fail interruption, .fail reset]
    let writes : List WriteStep := [.accept (some 1)]
    let writes' : List WriteStep := [.accept (some 1), .fail interruption]
    Interspersed ReadStep.Interrupts source source' ∧
    Interspersed WriteStep.Interrupts writes writes' ∧
    (let (result, session) := transfer settings { source, sink := { writes } } {}
    let (result', session') :=
      transfer settings { source := source', sink := { writes := writes' } } {}
    result = .error (.channel reset) ∧ result' = result ∧
      session.channel.accepted = [74, 75] ∧ session'.channel.accepted = session.channel.accepted ∧
      session'.channel.log.size = session.channel.log.size + 3) := by
  intro settings data reset interruption source source' writes writes'
  have hSource : Interspersed ReadStep.Interrupts source source' :=
    .added rfl (.kept _ (.added rfl (.kept _ .nil)))
  have hWrites : Interspersed WriteStep.Interrupts writes writes' := .kept _ (.added rfl .nil)
  obtain ⟨hAccepted, _, _, _, hSame⟩ :=
    interruptions_transparent settings hSource { writes } hWrites {} {}
  exact ⟨hSource, hWrites, by decide +kernel, (hSame rfl).1, by decide +kernel, hAccepted,
    by decide +kernel⟩

end HexFilter
