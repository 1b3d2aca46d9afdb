import HexFilter.Proofs.Log

/-! The calls behind one answer of a channel. An answer to reading or writing
may take several calls; these relations say which, whatever the scripts hold. -/
namespace HexFilter

/-- The read call that gives this answer. -/
def Event.ofRead (limit : Nat) : Except ChannelError (List UInt8) → Event
  | .ok bytes => received limit bytes
  | .error error => readFailed limit error

/-- The flush call that gives this answer. -/
def Event.ofFlush : Except ChannelError Unit → Event
  | .ok () => flushed
  | .error error => flushFailed error

namespace Channel

/-- The calls that read a chunk: interrupted ones, and the one that counts. -/
inductive Receives (limit : Nat) : Log → Except ChannelError (List UInt8) → Prop where
  | retried {error : ChannelError} {calls : Log} {answer : Except ChannelError (List UInt8)}
      (hInterrupted : error.isInterrupted) (later : Receives limit calls answer) :
      Receives limit (.readFailed limit error :: calls) answer
  | got {bytes : List UInt8} (hLength : bytes.length ≤ limit) :
      Receives limit [.received limit bytes] (.ok bytes)
  | failed {error : ChannelError} (hFatal : error.isInterrupted = false) :
      Receives limit [.readFailed limit error] (.error error)

/-- The calls that write some data. Each of them offers all that is left. -/
inductive Offers : List UInt8 → Log → Except ChannelError Unit → Prop where
  | done : Offers [] [] (.ok ())
  | retried {data : List UInt8} {error : ChannelError} {calls : Log}
      {answer : Except ChannelError Unit} (hData : data ≠ [])
      (hInterrupted : error.isInterrupted) (later : Offers data calls answer) :
      Offers data (.writeFailed data error :: calls) answer
  | took {data : List UInt8} {count : Nat} {calls : Log} {answer : Except ChannelError Unit}
      (hCount : 0 < count) (hLe : count ≤ data.length)
      (later : Offers (data.drop count) calls answer) :
      Offers data (.wrote data count :: calls) answer
  | failed {data : List UInt8} {error : ChannelError} (hData : data ≠ [])
      (hFatal : error.isInterrupted = false) :
      Offers data [.writeFailed data error] (.error error)
  | refused {data : List UInt8} (hData : data ≠ []) :
      Offers data [.wrote data 0] (.error .nothingAccepted)

/-- Each answer to a read has its calls in the log. -/
theorem receives_receive (limit : Nat) (log : Array Event) (source : Source) :
    ∃ calls, Receives limit calls (receive limit log source).1 ∧
      (receive limit log source).2.2.toList = log.toList ++ calls := by
  fun_induction receive limit log source with
  | case1 log => exact ⟨_, .got (Nat.zero_le _), by simp⟩
  | case2 log rest => exact ⟨_, .got (Nat.zero_le _), by simp⟩
  | case3 log error rest after hInterrupted ih =>
      obtain ⟨calls, receives, hLog⟩ := ih
      exact ⟨_, .retried hInterrupted receives, by simp [hLog, after]⟩
  | case4 log error rest after hFatal =>
      exact ⟨_, .failed (by simpa using hFatal), by simp [after]⟩
  | case5 log most rest ih => exact ih
  | case6 log byte bytes most rest got left =>
      refine ⟨_, .got ?_, by simp [got]⟩
      have hRoom : ReadStep.room limit most ≤ limit := by
        cases most with
        | none => exact Nat.le_refl _
        | some most => exact Nat.min_le_left ..
      exact (List.length_take_le ..).trans hRoom

theorem taken_le (offered : Nat) (most : Option Nat) : WriteStep.taken offered most ≤ offered := by
  cases most with
  | none => exact Nat.le_refl _
  | some most => exact Nat.min_le_right ..

/-- Each answer to a write has its calls in the log. -/
theorem offers_offer (log : Array Event) (steps : List WriteStep) (data : List UInt8) :
    ∃ calls, Offers data calls (offer log steps data).1 ∧
      (offer log steps data).2.2.toList = log.toList ++ calls := by
  fun_induction offer log steps data with
  | case1 log steps => exact ⟨[], .done, by simp⟩
  | case2 log data hData =>
      have hNonempty : data ≠ [] := fun h => hData h
      have hLength := List.length_pos_iff.mpr hNonempty
      refine ⟨[.wrote data data.length], .took hLength (Nat.le_refl _) ?_, by simp⟩
      rw [List.drop_length]
      exact .done
  | case3 log error rest data hData after hInterrupted ih =>
      obtain ⟨calls, offers, hLog⟩ := ih
      exact ⟨_, .retried (fun h => hData h) hInterrupted offers, by simp [hLog, after]⟩
  | case4 log error rest data hData after hFatal =>
      exact ⟨_, .failed (fun h => hData h) (by simpa using hFatal), by simp [after]⟩
  | case5 log most rest data hData count after hZero =>
      refine ⟨[.wrote data 0], .refused (fun h => hData h), ?_⟩
      simp [after, hZero]
  | case6 log most rest data hData count after hCount ih =>
      obtain ⟨calls, offers, hLog⟩ := ih
      exact ⟨_, .took (Nat.pos_of_ne_zero hCount) (taken_le ..) offers, by simp [hLog, after]⟩

theorem readInto_calls (buffer : List UInt8) (c : Channel) :
    ∃ calls answer, Receives buffer.length calls answer ∧
      (c.readInto buffer).1 = answer.map (fill buffer) ∧
      (c.readInto buffer).2.log.toList = c.log.toList ++ calls := by
  obtain ⟨calls, receives, hLog⟩ := receives_receive buffer.length c.log c.source
  exact ⟨calls, _, receives, rfl, hLog⟩

theorem writeAll_calls (data : List UInt8) (c : Channel) :
    ∃ calls, Offers data calls (c.writeAll data).1 ∧
      (c.writeAll data).2.log.toList = c.log.toList ++ calls :=
  offers_offer c.log c.sink.writes data

/-- A flush is one call, whatever its answer. -/
theorem flush_call (c : Channel) :
    c.flush.2.log.toList = c.log.toList ++ [Event.ofFlush c.flush.1] := by
  cases h : c.nextFlush.1 with
  | none => simp [flush_of_none h, Event.ofFlush]
  | some error => simp [flush_of_some h, Event.ofFlush]

open Log

variable {mode : Mode} {limit : Nat} {log calls : Log}

/-- Reading makes its last call at a moment like the one it began at. -/
theorem Receives.ready {answer : Except ChannelError (List UInt8)}
    (receives : Receives limit calls answer) (ready : log.Ready mode)
    (orderly : Orderly mode limit log) :
    ∃ past, log ++ calls = past ++ [Event.ofRead limit answer] ∧ Ready mode past ∧
      past.delivered = log.delivered ∧ past.chunks = log.chunks ∧
      Orderly mode limit (log ++ calls) := by
  -- The log is general, since an interrupted call moves on to the next moment.
  induction receives generalizing log with
  | @retried error calls answer hInterrupted _ ih =>
      have permitted : Permitted mode limit log (.readFailed limit error) := ⟨ready, rfl⟩
      obtain ⟨past, hPast, ready, hDelivered, hChunks, orderly⟩ :=
        ih (ready.interrupted hInterrupted) (orderly_concat.mpr ⟨orderly, permitted⟩)
      rw [List.append_assoc, List.singleton_append] at hPast orderly
      refine ⟨past, hPast, ready, ?_, ?_, orderly⟩
      · simpa [Event.delivered] using hDelivered
      · simpa [Event.delivered] using hChunks
  | got hLength =>
      have permitted : Permitted mode limit log (.received limit _) := ⟨ready, rfl, hLength⟩
      exact ⟨log, rfl, ready, rfl, rfl, orderly_concat.mpr ⟨orderly, permitted⟩⟩
  | @failed error hFatal =>
      have permitted : Permitted mode limit log (.readFailed limit error) := ⟨ready, rfl⟩
      exact ⟨log, rfl, ready, rfl, rfl, orderly_concat.mpr ⟨orderly, permitted⟩⟩

/-- An error comes from a call that failed for good. -/
theorem Receives.failure {error : ChannelError} (receives : Receives limit calls (.error error)) :
    (Event.readFailed limit error).failure = some error := by
  generalize hAnswer : Except.error error = answer at receives
  induction receives with
  | retried _ _ ih => exact ih hAnswer
  | got => cases hAnswer
  | failed hFatal =>
      cases hAnswer
      simp [Event.failure, hFatal]

/-- A read that is answered with bytes made no call that failed for good. -/
theorem Receives.of_ok {bytes : List UInt8} (receives : Receives limit calls (.ok bytes)) :
    calls.Calm ∧ calls.delivered = bytes ∧ calls.ended = bytes.isEmpty := by
  generalize hAnswer : Except.ok bytes = answer at receives
  induction receives with
  | retried hInterrupted _ ih =>
      obtain ⟨calm, hDelivered, hEnded⟩ := ih hAnswer
      refine ⟨List.forall_mem_cons.mpr ⟨by simp [Event.failure, hInterrupted], calm⟩, ?_, ?_⟩
      · simpa [Log.delivered, Event.delivered] using hDelivered
      · simpa [ended, Event.isEnd] using hEnded
  | @got got hLength =>
      cases hAnswer
      refine ⟨calm_singleton _ |>.mpr rfl, by simp [Event.delivered], ?_⟩
      cases bytes <;> simp [Event.isEnd]
  | failed => cases hAnswer

/-- While input is read nothing goes out. -/
theorem Receives.accepted_eq_nil {answer : Except ChannelError (List UInt8)}
    (receives : Receives limit calls answer) : calls.accepted = [] := by
  induction receives with
  | retried _ _ ih => exact ih
  | got => rfl
  | failed => rfl

theorem Receives.isRead {answer : Except ChannelError (List UInt8)}
    (receives : Receives limit calls answer) : ∀ call ∈ calls, call.isRead := by
  induction receives with
  | retried _ _ ih => simpa [Event.isRead] using ih
  | got => simp [Event.isRead]
  | failed => simp [Event.isRead]

/-- No read gets more than it asked for. -/
theorem Receives.length_le {bytes : List UInt8} (receives : Receives limit calls (.ok bytes)) :
    bytes.length ≤ limit := by
  generalize hAnswer : Except.ok bytes = answer at receives
  induction receives with
  | retried _ _ ih => exact ih hAnswer
  | got hLength =>
      cases hAnswer
      exact hLength
  | failed => cases hAnswer

theorem Offers.isWrite {data : List UInt8} {answer : Except ChannelError Unit}
    (offers : Offers data calls answer) : ∀ call ∈ calls, call.isWrite := by
  induction offers with
  | done => simp
  | retried _ _ _ ih => simpa [Event.isWrite] using ih
  | took _ _ _ ih => simpa [Event.isWrite] using ih
  | failed => simp [Event.isWrite]
  | refused => simp [Event.isWrite]

/-- The calls of a write are permitted where the data is what is owed. -/
theorem Offers.orderly {data : List UInt8} {answer : Except ChannelError Unit}
    (offers : Offers data calls answer) (owing : log.Owing mode data)
    (orderly : Orderly mode limit log) : Orderly mode limit (log ++ calls) := by
  induction offers generalizing log with
  | done => simpa using orderly
  | @retried data error calls answer hData hInterrupted _ ih =>
      have permitted : Permitted mode limit log (.writeFailed data error) := ⟨owing, hData⟩
      simpa using ih (owing.retried hInterrupted) (orderly_concat.mpr ⟨orderly, permitted⟩)
  | @took data count calls answer hCount hLe _ ih =>
      have hData : data ≠ [] := by
        rw [← List.length_pos_iff]
        omega
      have permitted : Permitted mode limit log (.wrote data count) := ⟨owing, hData, hLe⟩
      simpa using ih (owing.took hCount) (orderly_concat.mpr ⟨orderly, permitted⟩)
  | failed hData hFatal => exact orderly_concat.mpr ⟨orderly, owing, hData⟩
  | refused hData => exact orderly_concat.mpr ⟨orderly, owing, hData, Nat.zero_le _⟩

/-- When all is written nothing is owed but the flush. -/
theorem Offers.owing {data : List UInt8} {answer : Except ChannelError Unit}
    (offers : Offers data calls answer) (owing : log.Owing mode data) (hAnswer : answer = .ok ()) :
    Owing mode (log ++ calls) [] := by
  induction offers generalizing log with
  | done => simpa using owing
  | retried _ hInterrupted _ ih => simpa using ih (owing.retried hInterrupted) hAnswer
  | took hCount _ _ ih => simpa using ih (owing.took hCount) hAnswer
  | failed => cases hAnswer
  | refused => cases hAnswer

/-- A write that succeeds has met nothing but interruptions. -/
theorem Offers.calm {data : List UInt8} {answer : Except ChannelError Unit}
    (offers : Offers data calls answer) (hAnswer : answer = .ok ()) : Calm calls := by
  induction offers with
  | done => exact calm_nil
  | retried _ hInterrupted _ ih =>
      exact List.forall_mem_cons.mpr ⟨by simp [Event.failure, hInterrupted], ih hAnswer⟩
  | took hCount _ _ ih =>
      exact List.forall_mem_cons.mpr ⟨if_neg (Nat.ne_of_gt hCount), ih hAnswer⟩
  | failed => cases hAnswer
  | refused => cases hAnswer

/-- When writing fails its last call is the one that failed, and no call before
it did. -/
theorem Offers.failed_last {data : List UInt8} {answer : Except ChannelError Unit}
    {error : ChannelError} (offers : Offers data calls answer) (owing : log.Owing mode data)
    (hAnswer : answer = .error error) :
    ∃ past last, log ++ calls = past ++ [last] ∧ Calm past ∧ last.failure = some error := by
  induction offers generalizing log with
  | done => cases hAnswer
  | retried _ hInterrupted _ ih => simpa using ih (owing.retried hInterrupted) hAnswer
  | took hCount _ _ ih => simpa using ih (owing.took hCount) hAnswer
  | failed hData hFatal =>
      cases hAnswer
      exact ⟨log, _, rfl, owing.calm, by simp [Event.failure, hFatal]⟩
  | refused hData =>
      cases hAnswer
      exact ⟨log, _, rfl, owing.calm, rfl⟩

end Channel

end HexFilter
