import HexFilter.Proofs.Calls

/-! A channel used again and again, with reads into buffers of any length and
writes of any data in any order, also after a use that failed. No byte is lost
between two uses and none comes twice, on either side. -/
namespace HexFilter

def ReadStep.bytes : ReadStep → List UInt8
  | .data bytes _ => bytes
  | .fail _ | .ended => []

/-- All the bytes that are still to come, over all the steps. -/
def Source.bytes (source : Source) : List UInt8 := source.flatMap ReadStep.bytes

/-- What a write call offered. -/
def Event.offered : Event → Option (List UInt8)
  | wrote offered _ | writeFailed offered _ => some offered
  | _ => none

namespace Channel

/-- One use of a channel: a buffer to read into, or data to write. -/
inductive Use where
  | read (buffer : List UInt8)
  | write (data : List UInt8)
deriving DecidableEq

/-- What became of one use: its answer, and the calls it made for it. -/
inductive Outcome where
  | read (buffer : List UInt8) (answer : Except ChannelError (Nat × List UInt8)) (calls : Log)
  | write (data : List UInt8) (answer : Except ChannelError Unit) (calls : Log)

namespace Outcome

/-- The use that it is an outcome of. -/
def origin : Outcome → Use
  | read buffer _ _ => .read buffer
  | write data _ _ => .write data

def calls : Outcome → Log
  | read _ _ calls | write _ _ calls => calls

/-- The bytes that a read reports: the front of the buffer, as far as it says. -/
def reported : Outcome → List UInt8
  | read _ (.ok (count, filled)) _ => filled.take count
  | read _ (.error _) _ | write _ _ _ => []

end Outcome

/-- The calls in the log of a later state of this channel that are not yet in
its own. -/
def callsUntil (c after : Channel) : Log := after.log.toList.drop c.log.toList.length

def use (c : Channel) : Use → Outcome × Channel
  | .read buffer =>
      let (answer, after) := c.readInto buffer
      (.read buffer answer (c.callsUntil after), after)
  | .write data =>
      let (answer, after) := c.writeAll data
      (.write data answer (c.callsUntil after), after)

/-- One use after the other. A use that fails does not keep the next from being
made. -/
def useAll (c : Channel) : List Use → List Outcome × Channel
  | [] => ([], c)
  | first :: rest =>
      let (outcome, after) := c.use first
      let (outcomes, last) := after.useAll rest
      (outcome :: outcomes, last)

/-- A read changes the buffer at its front only, where it puts what its calls
got. When it fails it got nothing, and not because it was interrupted. -/
structure ReadExact (buffer : List UInt8) (answer : Except ChannelError (Nat × List UInt8))
    (calls : Log) : Prop where
  isRead : ∀ call ∈ calls, call.isRead
  filled : ∀ count after, answer = .ok (count, after) → count ≤ buffer.length ∧
    after.length = buffer.length ∧ after.take count = calls.delivered ∧
      after.drop count = buffer.drop count
  failed : ∀ error, answer = .error error → error.isInterrupted = false ∧ calls.delivered = []

/-- Every call of a write offers just what those before it did not bring out.
They bring out all of the data, or less when the write fails. -/
structure WriteExact (data : List UInt8) (answer : Except ChannelError Unit) (calls : Log) :
    Prop where
  isWrite : ∀ call ∈ calls, call.isWrite
  offered : ∀ past call later, calls = past ++ call :: later →
    ∃ left, left ≠ [] ∧ call.offered = some left ∧ Log.accepted past ++ left = data
  written : answer = .ok () → calls.accepted = data
  failed : ∀ error, answer = .error error → ∃ left, left ≠ [] ∧ calls.accepted ++ left = data
  nothing : data = [] → calls = [] ∧ answer = .ok ()

def Outcome.Exact : Outcome → Prop
  | read buffer answer calls => ReadExact buffer answer calls
  | write data answer calls => WriteExact data answer calls

section Reading

variable {limit : Nat} {calls : Log} {answer : Except ChannelError (List UInt8)}

/-- What has been delivered and what is still to come make up the same bytes
before and after. -/
theorem delivered_receive (limit : Nat) (log : Array Event) (source : Source) :
    Log.delivered (receive limit log source).2.2.toList ++ (receive limit log source).2.1.bytes =
      Log.delivered log.toList ++ source.bytes := by
  fun_induction receive limit log source with
  | case1 log => simp [Event.delivered]
  | case2 log rest => simp [Event.delivered, Source.bytes, ReadStep.bytes]
  | case3 log error rest after hInterrupted ih =>
      rw [ih]
      simp [after, Event.delivered, Source.bytes, ReadStep.bytes]
  | case4 log error rest after hFatal =>
      simp [after, Event.delivered, Source.bytes, ReadStep.bytes]
  | case5 log most rest ih =>
      rw [ih]
      simp [Source.bytes, ReadStep.bytes]
  | case6 log byte bytes most rest got left =>
      have hSplit : got ++ left = byte :: bytes := List.take_append_drop ..
      simp only [Source.bytes, List.flatMap_cons, ReadStep.bytes, Array.toList_push,
        Log.delivered_append, Log.delivered_singleton, Event.delivered, ← hSplit, List.append_assoc]

/-- A read fails with an error that is no interruption, and has got nothing by
then. -/
theorem Receives.of_error {error : ChannelError} (receives : Receives limit calls (.error error)) :
    error.isInterrupted = false ∧ calls.delivered = [] := by
  generalize hAnswer : Except.error error = answer at receives
  induction receives with
  | retried _ _ ih => exact ih hAnswer
  | got => cases hAnswer
  | failed hFatal =>
      cases hAnswer
      exact ⟨hFatal, rfl⟩

/-- The calls of one read keep its promise. -/
theorem Receives.exact {buffer : List UInt8} (receives : Receives buffer.length calls answer) :
    ReadExact buffer (answer.map (fill buffer)) calls := by
  refine ⟨receives.isRead, ?_, ?_⟩
  · intro count after hAnswer
    cases answer with
    | error => cases hAnswer
    | ok got =>
        cases hAnswer
        obtain ⟨_, hDelivered, _⟩ := receives.of_ok
        have hLength := receives.length_le
        refine ⟨hLength, ?_, ?_, List.drop_left⟩
        · simp [hLength]
        · rw [hDelivered, List.take_left]
  · intro error hAnswer
    cases answer with
    | error =>
        cases hAnswer
        exact receives.of_error
    | ok => cases hAnswer

end Reading

section Writing

variable {data : List UInt8} {calls : Log} {answer : Except ChannelError Unit}

/-- A write leaves something out just when it fails. -/
theorem Offers.accepted_append (offers : Offers data calls answer) :
    ∃ left, calls.accepted ++ left = data ∧ (left = [] ↔ answer = .ok ()) := by
  induction offers with
  | done => exact ⟨[], rfl, by simp⟩
  | retried _ _ _ ih => exact ih
  | @took data count calls answer _ _ _ ih =>
      obtain ⟨left, hLeft, hAnswer⟩ := ih
      refine ⟨left, ?_, hAnswer⟩
      calc Log.accepted (.wrote data count :: calls) ++ left
          = data.take count ++ (Log.accepted calls ++ left) := by
            simp [Log.accepted, Event.accepted]
        _ = data := by rw [hLeft, List.take_append_drop]
  | @failed data _ hData => exact ⟨data, rfl, by simp [hData]⟩
  | @refused data hData => exact ⟨data, by simp [Event.accepted], by simp [hData]⟩

/-- The calls of a write offer the data, each what is left of it. -/
theorem Offers.offered (offers : Offers data calls answer) {past later : Log} {call : Event}
    (hCalls : calls = past ++ call :: later) :
    ∃ left, left ≠ [] ∧ call.offered = some left ∧ past.accepted ++ left = data := by
  -- The first call offers all the data; any other belongs to the calls after the first.
  induction offers generalizing past with
  | done => simp at hCalls
  | @retried data error calls answer hData _ _ ih =>
      cases past with
      | nil =>
          cases hCalls
          exact ⟨data, hData, rfl, rfl⟩
      | cons first past =>
          cases hCalls
          obtain ⟨left, hLeft, hOffered, hData⟩ := ih rfl
          exact ⟨left, hLeft, hOffered, hData⟩
  | @took data count calls answer hCount hLe _ ih =>
      cases past with
      | nil =>
          cases hCalls
          refine ⟨data, ?_, rfl, rfl⟩
          rw [← List.length_pos_iff]
          omega
      | cons first past =>
          cases hCalls
          obtain ⟨left, hLeft, hOffered, hData⟩ := ih rfl
          refine ⟨left, hLeft, hOffered, ?_⟩
          calc Log.accepted (.wrote data count :: past) ++ left
              = data.take count ++ (Log.accepted past ++ left) := by
                simp [Log.accepted, Event.accepted]
            _ = data := by rw [hData, List.take_append_drop]
  | @failed data error hData _ =>
      obtain ⟨rfl, hCall⟩ := List.append_eq_singleton_iff.mp hCalls.symm |>.resolve_right (by simp)
      cases hCall
      exact ⟨data, hData, rfl, rfl⟩
  | @refused data hData =>
      obtain ⟨rfl, hCall⟩ := List.append_eq_singleton_iff.mp hCalls.symm |>.resolve_right (by simp)
      cases hCall
      exact ⟨data, hData, rfl, rfl⟩

theorem Offers.exact (offers : Offers data calls answer) : WriteExact data answer calls := by
  obtain ⟨left, hLeft, hAnswer⟩ := offers.accepted_append
  refine ⟨offers.isWrite, fun past call later => offers.offered, ?_, ?_, ?_⟩
  · intro hOk
    rw [← hLeft, hAnswer.mpr hOk, List.append_nil]
  · rintro error rfl
    exact ⟨left, by simp [hAnswer], hLeft⟩
  · rintro rfl
    cases offers with
    | done => exact ⟨rfl, rfl⟩
    | retried hData | failed hData | refused hData => exact absurd rfl hData
    | took hCount hLe => exact absurd hCount (Nat.not_lt.mpr hLe)

end Writing

/-- What one use adds to the log and takes from the source. -/
theorem use_exact {c after : Channel} {first : Use} {outcome : Outcome}
    (hUse : c.use first = (outcome, after)) :
    outcome.origin = first ∧ outcome.Exact ∧ after.log.toList = c.log.toList ++ outcome.calls ∧
      outcome.reported ++ after.source.bytes = c.source.bytes := by
  cases first with
  | read buffer =>
      obtain ⟨calls, answer, receives, hAnswer, hLog⟩ := c.readInto_calls buffer
      have hCalls : c.callsUntil (c.readInto buffer).2 = calls := by
        rw [callsUntil, hLog, List.drop_left]
      have hBytes : calls.delivered ++ (c.readInto buffer).2.source.bytes = c.source.bytes := by
        have hTotal : Log.delivered (c.readInto buffer).2.log.toList ++
            (c.readInto buffer).2.source.bytes = Log.delivered c.log.toList ++ c.source.bytes :=
          delivered_receive buffer.length c.log c.source
        rw [hLog, Log.delivered_append, List.append_assoc] at hTotal
        exact List.append_cancel_left hTotal
      have exact := receives.exact
      simp only [use, hCalls, hAnswer] at hUse
      cases hUse
      refine ⟨rfl, exact, hLog, ?_⟩
      rw [← hBytes]
      cases answer with
      | ok got =>
          have hReported := (exact.filled _ _ rfl).2.2.1
          simp [Outcome.reported, Except.map, fill, ← hReported]
      | error error => simp [Outcome.reported, Except.map, (exact.failed _ rfl).2]
  | write data =>
      obtain ⟨calls, offers, hLog⟩ := c.writeAll_calls data
      have hCalls : c.callsUntil (c.writeAll data).2 = calls := by
        rw [callsUntil, hLog, List.drop_left]
      simp only [use, hCalls] at hUse
      cases hUse
      exact ⟨rfl, offers.exact, hLog, rfl⟩

/-- Over any uses in any order, the reads report the first bytes of the source and
leave the others there, and what the sink accepts is what the writes bring out,
one after the other. Every use keeps its own promise too. -/
theorem useAll_exact (c : Channel) (uses : List Use) :
    let (outcomes, last) := c.useAll uses
    outcomes.map Outcome.origin = uses ∧
    (∀ outcome ∈ outcomes, outcome.Exact) ∧
    last.log.toList = c.log.toList ++ outcomes.flatMap Outcome.calls ∧
    outcomes.flatMap Outcome.reported ++ last.source.bytes = c.source.bytes ∧
    last.accepted = c.accepted ++ outcomes.flatMap (fun outcome => outcome.calls.accepted) := by
  induction uses generalizing c with
  | nil => simp [useAll]
  | cons first rest ih =>
      rcases hUse : c.use first with ⟨outcome, after⟩
      have hRest := ih after
      rcases hUses : after.useAll rest with ⟨outcomes, last⟩
      rw [hUses] at hRest
      obtain ⟨hOrigin, exact, hLog, hBytes⟩ := use_exact hUse
      obtain ⟨hOrigins, exacts, hLogs, hLeft, hAccepted⟩ := hRest
      have hAfter : after.accepted = c.accepted ++ outcome.calls.accepted := by
        show Log.accepted after.log.toList = _
        rw [hLog, Log.accepted_append]
        rfl
      simp only [useAll, hUse, hUses, List.map_cons, List.flatMap_cons]
      refine ⟨?_, List.forall_mem_cons.mpr ⟨exact, exacts⟩, ?_, ?_, ?_⟩
      · rw [hOrigin, hOrigins]
      · rw [hLogs, hLog, List.append_assoc]
      · rw [List.append_assoc, hLeft, hBytes]
      · rw [hAccepted, hAfter, List.append_assoc]

/-- A write and a read fail, and the uses after them go on where they stopped. -/
example :
    let c : Channel := {
      source := [.data [1, 2, 3] (some 2), .fail ⟨.interrupted, none⟩, .fail ⟨.timedOut, none⟩,
        .data [4] none]
      sink := { writes := [.accept (some 1), .fail ⟨.interrupted, none⟩, .accept (some 0)] } }
    let (outcomes, last) := c.useAll [.read [0, 0, 0], .write [7, 8], .read [], .read [0, 0],
      .read [0], .write [], .write [9], .read [0, 0]]
    outcomes.map Outcome.reported = [[1, 2], [], [], [3], [], [], [], [4]] ∧
      last.accepted = [7, 9] := by
  decide

end Channel

end HexFilter
