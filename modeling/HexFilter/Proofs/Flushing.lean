import HexFilter.Proofs.Discipline
import HexFilter.Proofs.Invariant

/-! When a sink is flushed. Before every read call, whatever was complete by
then has gone out and was flushed, so that nobody downstream waits for it. -/
namespace HexFilter

namespace Log

variable {mode : Mode} {limit : Nat} {log past after : Log}

/-- Where an account is settled again after a write there was a flush in between. -/
theorem Orderly.flushed_after_write {between : Log} {write : Event}
    (orderly : Orderly mode limit (past ++ write :: between)) (hWrite : write.isWrite)
    (settled : Settled mode (past ++ write :: between)) : Event.flushed ∈ between := by
  obtain ⟨flush, hMem, hFlush⟩ := orderly.flush_after_write hWrite settled.flushes_eq
  have hNone := settled.calm flush (by simp [hMem])
  cases flush with
  | flushed => exact hMem
  | flushFailed => cases hNone
  | received | readFailed | wrote | writeFailed => cases hFlush

/-- A chunk of which nothing is to be written is flushed at once. -/
theorem Orderly.flush_of_silent {asked : Nat} {chunk : List UInt8} {next : Event}
    (orderly : Orderly mode limit (past ++ .received asked chunk :: next :: after))
    (hChunk : chunk ≠ [])
    (hSilent : ideal mode (past ++ [.received asked chunk]) = past.ideal mode) :
    next.isFlush := by
  have ready := (orderly past _ _ rfl).ready rfl
  have permitted := orderly (past ++ [.received asked chunk]) next after (by simp)
  have hFlushes : flushes (past ++ [.received asked chunk]) = past.flushes := by
    simp [Event.isFlush]
  have hDue : past.flushes < due mode (past ++ [.received asked chunk]) := by
    have hChunks := ready.flushes_eq_chunks
    simp [due, Event.delivered, hChunk]
    omega
  have hAccepted : accepted (past ++ [.received asked chunk]) = past.ideal mode := by
    rw [← ready.accepted_eq]
    simp [Event.accepted]
  cases next with
  | flushed | flushFailed => rfl
  | received | readFailed =>
      have hSettled := permitted.1.flushes_eq
      omega
  | wrote | writeFailed =>
      obtain ⟨data, hData, owing, _⟩ := permitted.owing rfl
      have hAppend := owing.accepted_append
      rw [hAccepted, hSilent] at hAppend
      exact absurd (List.append_right_eq_self.mp hAppend) hData

end Log

/-- Nobody calls on the sink after the last flush of a transfer that is
complete. -/
theorem Log.Complete.eq_flushed {mode : Mode} {limit : Nat} {past after : Log} {call : Event}
    (complete : Log.Complete mode (past ++ call :: after))
    (orderly : Log.Orderly mode limit (past ++ call :: after)) (hCall : call.isRead = false)
    (hAfter : ∀ later ∈ after, later.isRead) : call = .flushed := by
  have hNone := complete.calm call (by simp)
  cases call with
  | flushed => rfl
  | flushFailed => cases hNone
  | received | readFailed => cases hCall
  | wrote | writeFailed =>
      have hFlush := hAfter _ (orderly.flushed_after_write rfl complete.toSettled)
      cases hFlush

/-- A transfer that is over has flushed all it owed, unless its last call
failed. -/
theorem Transfer.Outcome.settled_or_failed {mode : Mode} {t : Transfer} {log : Log}
    {result : Except Failure Summary} (outcome : t.Outcome mode log result) :
    log.Settled mode ∨ ∃ error, log.FailedLast error := by
  cases outcome with
  | finished complete => exact .inl complete.toSettled
  | broken _ _ settled => exact .inl settled
  | @failed error hFailed => exact .inr ⟨error, hFailed⟩

/-- No transfer is over right after a read call that got bytes, as a flush is
due. -/
theorem Transfer.Outcome.eq_nil_of_received {mode : Mode} {limit asked : Nat} {t : Transfer}
    {past : Log} {chunk : List UInt8} {result : Except Failure Summary}
    (outcome : t.Outcome mode (past ++ [.received asked chunk]) result)
    (orderly : Log.Orderly mode limit (past ++ [.received asked chunk])) : chunk = [] := by
  by_contra hChunk
  have ready := (orderly past _ [] rfl).ready rfl
  rcases outcome.settled_or_failed with settled | ⟨error, _, last, hLast, _, hFailure⟩
  · have hDue := settled.flushes_eq
    have hFlushes := ready.flushes_eq_chunks
    simp [Log.due, Event.isFlush, Event.delivered, hChunk] at hDue
    omega
  · obtain ⟨_, hEvent⟩ := List.append_inj' hLast rfl
    cases hEvent
    cases hFailure

/-- At every read call all that was complete is out and flushed, one flush for
every chunk before it, also for a chunk that completed nothing. A transfer that
ends well has made one flush for every chunk, and one more for the closing
newline, after its last write. -/
theorem flushed_before_read (settings : Settings) (hValid : settings.validate = .ok ())
    (source : Source) (sink : Sink) (clock : Clock) :
    let (result, session) := transfer settings { source, sink } clock
    let log : Log := session.channel.log.toList
    (∀ (past : Log) read after, log = past ++ read :: after → read.isRead →
      (settings.mode = .encode → past.accepted = hexText past.delivered) ∧
      (settings.mode = .decode → past.accepted = Text.readable past.delivered ∧
        past.accepted.length = (Text.pairs (Text.digits past.delivered)).length) ∧
      (∀ earlier write between, past = earlier ++ write :: between → write.isWrite →
        Event.flushed ∈ between) ∧
      past.flushes = past.chunks) ∧
    (∀ (past : Log) limit chunk after, log = past ++ .received limit chunk :: after →
      settings.mode = .decode → chunk ≠ [] →
      Text.pairs (Text.digits (past.delivered ++ chunk)) =
        Text.pairs (Text.digits past.delivered) →
      ∃ flush later, after = flush :: later ∧ flush.isFlush) ∧
    (∀ summary, result = .ok summary →
      summary.tally.chunksRead = log.chunks.toUInt64 ∧
      log.flushes = log.chunks + (if settings.mode = .encode then 1 else 0) ∧
      ∀ past call after, log = past ++ call :: after → call.isRead = false →
        (∀ later ∈ after, later.isRead) → call = .flushed) := by
  rcases hRun : transfer settings { source, sink } clock with ⟨result, session⟩
  obtain ⟨sound, outcome⟩ := transfer_sound hValid hRun
  have orderly := sound.orderly
  dsimp only
  refine ⟨?_, ?_, ?_⟩
  · intro past read after hLog hRead
    rw [hLog] at orderly
    have ready := (orderly past read after rfl).ready hRead
    refine ⟨?_, ?_, ?_, ready.flushes_eq_chunks⟩
    · exact ready.accepted_eq_hexText
    · intro hMode
      rw [ready.accepted_eq, hMode, Text.length_pairs]
      exact ⟨rfl, Text.length_readable (ready.not_malformed hMode)⟩
    · rintro earlier write between rfl hWrite
      exact orderly.of_append.flushed_after_write hWrite ready.toSettled
  · intro past limit chunk after hLog hMode hChunk hPairs
    have hSilent : Log.ideal settings.mode (past ++ [.received limit chunk]) =
        past.ideal settings.mode := by
      simp only [hMode, Log.ideal, Log.delivered_append, Log.delivered_singleton, Event.delivered,
        Text.readable, Text.bytes, hPairs]
    rw [hLog] at orderly outcome
    cases after with
    | cons flush later => exact ⟨flush, later, rfl, orderly.flush_of_silent hChunk hSilent⟩
    | nil => exact absurd (outcome.eq_nil_of_received orderly) hChunk
  · rintro summary rfl
    obtain @⟨_, complete, hTally⟩ := outcome
    refine ⟨by rw [hTally, sound.chunksRead_eq], ?_, ?_⟩
    · rw [complete.flushes_eq]
      simp [Log.due, complete.ended]
    · intro past call after hLog hCall hAfter
      rw [hLog] at orderly complete
      exact complete.eq_flushed orderly hCall hAfter

theorem flushed_before_read_three_bytes :
    let settings : Settings := { mode := .encode, chunkSize := 2 }
    let (result, session) := transfer settings { source := [.data [1, 2, 3] none] } {}
    let log : Log := session.channel.log.toList
    settings.validate = .ok () ∧ (∃ summary, result = .ok summary) ∧
      log.chunks = 2 ∧ log.flushes = log.chunks + 1 := by
  intro settings
  have hValid : settings.validate = .ok () := by decide
  have h := flushed_before_read settings hValid [.data [1, 2, 3] none] {} {}
  have hOk : (transfer settings { source := [.data [1, 2, 3] none] } {}).1.isOk := by
    decide +kernel
  cases hResult : (transfer settings { source := [.data [1, 2, 3] none] } {}).1 with
  | error failure =>
      rw [hResult] at hOk
      cases hOk
  | ok summary =>
      exact ⟨hValid, ⟨summary, hResult⟩, by decide +kernel, (h.2.2 summary hResult).2.1⟩

end HexFilter
