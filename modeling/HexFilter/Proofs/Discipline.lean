import HexFilter.Proofs.Log

/-! What follows for a whole log when every call in it is in its place. -/
namespace HexFilter.Log

variable {mode : Mode} {limit : Nat} {log past after : Log} {event : Event}

/-- No call is permitted after one that failed for good. -/
theorem Permitted.calm (permitted : Permitted mode limit past event) : Calm past := by
  cases event with
  | received => exact permitted.1.calm
  | readFailed => exact permitted.1.calm
  | wrote => exact permitted.1.calm
  | writeFailed => exact permitted.1.calm
  | flushed => exact permitted.calm
  | flushFailed => exact permitted.calm

/-- A read call is permitted only where all is out that is called for. -/
theorem Permitted.ready (permitted : Permitted mode limit past event) (hRead : event.isRead) :
    Ready mode past := by
  cases event with
  | received => exact permitted.1
  | readFailed => exact permitted.1
  | wrote | writeFailed | flushed | flushFailed => cases hRead

/-- A write call offers all that is missing, and that is something. -/
theorem Permitted.owing (permitted : Permitted mode limit past event) (hWrite : event.isWrite) :
    ∃ data, data ≠ [] ∧ Owing mode past data ∧ event.accepted <+: data := by
  cases event with
  | wrote data count => exact ⟨data, permitted.2.1, permitted.1, List.take_prefix ..⟩
  | writeFailed data error => exact ⟨data, permitted.2, permitted.1, List.nil_prefix⟩
  | received | readFailed | flushed | flushFailed => cases hWrite

/-- While the input goes on, what is ideal now stays a part of what is ideal
later. -/
theorem ideal_prefix (hOpen : past.ended = false) (after : Log) :
    past.ideal mode <+: ideal mode (past ++ after) := by
  cases mode with
  | encode =>
      simp only [ideal, hOpen, Bool.false_eq_true, if_false, List.append_nil, delivered_append,
        hexText, List.flatMap_append, List.append_assoc]
      exact List.prefix_append ..
  | decode =>
      simp only [ideal, delivered_append]
      exact Text.readable_prefix ..

/-- Nothing comes out that should not, and nothing out of turn. -/
theorem Orderly.accepted_prefix (orderly : Orderly mode limit log) :
    log.accepted <+: log.ideal mode := by
  rcases List.eq_nil_or_concat log with rfl | ⟨past, event, rfl⟩
  · exact List.nil_prefix
  · rw [List.concat_eq_append] at orderly ⊢
    have permitted := (orderly_concat.mp orderly).2
    rw [accepted_append, accepted_singleton]
    cases event with
    | received asked bytes =>
        simp only [Event.accepted, List.append_nil, permitted.1.accepted_eq]
        exact ideal_prefix permitted.1.not_ended _
    | readFailed asked error =>
        rw [ideal_concat rfl rfl, ← permitted.1.accepted_eq]
        simp [Event.accepted]
    | wrote data count =>
        rw [ideal_concat rfl rfl, ← permitted.1.accepted_append]
        exact (List.prefix_append_right_inj _).mpr (List.take_prefix ..)
    | writeFailed data error =>
        rw [ideal_concat rfl rfl, ← permitted.1.accepted_append]
        exact (List.prefix_append_right_inj _).mpr List.nil_prefix
    | flushed =>
        rw [ideal_concat rfl rfl, ← permitted.accepted_append]
        exact List.prefix_rfl
    | flushFailed error =>
        rw [ideal_concat rfl rfl, ← permitted.accepted_append]
        exact List.prefix_rfl

/-- No call is made after one that failed for good. -/
theorem Orderly.eq_nil_of_failure (orderly : Orderly mode limit (past ++ event :: after))
    {error : ChannelError} (hFailure : event.failure = some error) : after = [] := by
  cases after with
  | nil => rfl
  | cons next later =>
      have permitted := orderly (past ++ [event]) next later (by simp)
      exact absurd permitted.calm (not_calm_of_failure (by simp) hFailure)

/-- When the last call fails, everything is out unless that call was a write. -/
theorem Orderly.accepted_eq_iff (orderly : Orderly mode limit (past ++ [event]))
    {error : ChannelError} (hFailure : event.failure = some error) :
    accepted (past ++ [event]) = ideal mode (past ++ [event]) ↔ event.isWrite = false := by
  have permitted := (orderly_concat.mp orderly).2
  rw [accepted_append, accepted_singleton]
  cases event with
  | received => cases hFailure
  | readFailed asked failed =>
      rw [ideal_concat rfl rfl, ← permitted.1.accepted_eq]
      simp [Event.accepted, Event.isWrite]
  | wrote data count =>
      have hCount : count = 0 := by
        by_contra hCount
        simp [Event.failure, hCount] at hFailure
      rw [ideal_concat rfl rfl, ← permitted.1.accepted_append]
      simpa [Event.accepted, Event.isWrite, hCount] using permitted.2.1
  | writeFailed data failed =>
      rw [ideal_concat rfl rfl, ← permitted.1.accepted_append]
      simpa [Event.accepted, Event.isWrite] using permitted.2
  | flushed => cases hFailure
  | flushFailed failed =>
      rw [ideal_concat rfl rfl, ← permitted.accepted_append]
      simp [Event.accepted, Event.isWrite]

/-- The flushes that are due only become more. -/
theorem due_le_append (mode : Mode) (first second : Log) :
    due mode first ≤ due mode (first ++ second) := by
  have hTrailer : (if mode = .encode ∧ first.ended then 1 else 0) ≤
      (if mode = .encode ∧ ended (first ++ second) then 1 else 0) := by
    rw [ended_append]
    split <;> split <;> simp_all
  simp only [due, chunks_append]
  omega

/-- A write leaves a flush due, so once none is due any more one was made. -/
theorem Orderly.flush_after_write (orderly : Orderly mode limit (past ++ event :: after))
    (hWrite : event.isWrite)
    (hFlushes : flushes (past ++ event :: after) = due mode (past ++ event :: after)) :
    ∃ flush ∈ after, flush.isFlush := by
  obtain ⟨data, _, owing, _⟩ := (orderly past event after rfl).owing hWrite
  have hEvent : flushes [event] = 0 := by
    rw [flushes_singleton, Event.isFlush_of_isWrite hWrite]
    rfl
  have hDue := due_le_append mode past (event :: after)
  have hSucc := owing.flushes_succ
  rw [← List.singleton_append, flushes_append, flushes_append, hEvent,
    List.singleton_append] at hFlushes
  have hPos : 0 < flushes after := by omega
  exact List.countP_pos_iff.mp hPos

end HexFilter.Log
