import HexFilter.Proofs.Discipline
import HexFilter.Proofs.Invariant

/-! Which of several failures decides a transfer, and what was done before it.
Calls fail for good or are made again; a bad digit waits until what was read in
front of it is out. -/
namespace HexFilter

/-- A log in which the input ended has one call that got nothing, and no read
call after it. -/
theorem Log.Orderly.split_of_ended {mode : Mode} {limit : Nat} {log : Log}
    (orderly : log.Orderly mode limit) (hEnded : log.ended) :
    ∃ past limit after, log = past ++ .received limit [] :: after ∧ Log.ended past = false ∧
      ∀ call ∈ after, call.isRead = false := by
  obtain ⟨event, hMem, hEnd⟩ := List.any_eq_true.mp hEnded
  obtain ⟨past, after, rfl⟩ := List.append_of_mem hMem
  obtain ⟨limit, rfl⟩ : ∃ limit, event = .received limit [] := by
    cases event with
    | received limit bytes =>
        cases bytes with
        | nil => exact ⟨limit, rfl⟩
        | cons => cases hEnd
    | readFailed | wrote | writeFailed | flushed | flushFailed => cases hEnd
  refine ⟨past, limit, after, rfl, ((orderly past _ after rfl).ready rfl).not_ended, ?_⟩
  intro call hCall
  by_contra hRead
  obtain ⟨between, later, rfl⟩ := List.append_of_mem hCall
  have permitted := orderly (past ++ .received limit [] :: between) call later (by simp)
  have hOpen := (permitted.ready (by simpa using hRead)).not_ended
  simp [Log.ended, Event.isEnd] at hOpen

/-- A decoding that broke off has met a bad pair. -/
theorem Log.Broken.malformed {log since : Log} {error : InvalidDigit}
    (broken : log.Broken error since) : Text.Malformed log.delivered := by
  by_contra hNot
  have hNone := (Decoder.fault_decoded_eq_none_iff _).mpr hNot
  rw [broken.1] at hNone
  cases hNone

/-- The error of a call that failed for good is the result. -/
theorem Transfer.Outcome.of_failure {mode : Mode} {t : Transfer} {past : Log} {event : Event}
    {result : Except Failure Summary} (outcome : t.Outcome mode (past ++ [event]) result)
    {error : ChannelError} (hFailure : event.failure = some error) :
    result = .error (.channel error) := by
  have notCalm : ¬ Log.Calm (past ++ [event]) := Log.not_calm_of_failure (by simp) hFailure
  cases outcome with
  | finished complete => exact absurd complete.calm notCalm
  | broken _ _ settled => exact absurd settled.calm notCalm
  | failed hFailed =>
      obtain ⟨_, last, hLog, _, hOther⟩ := hFailed
      obtain ⟨_, hLast⟩ := List.append_inj' hLog rfl
      cases hLast
      rw [hFailure] at hOther
      cases hOther
      rfl

/-- Refused settings end a transfer before its first call. -/
theorem transfer_refused {settings : Settings} {error : SettingsError}
    (hRefused : settings.validate = .error error) {channel : Channel} {clock : Clock}
    {result : Except Failure Summary} {session : Session}
    (hRun : transfer settings channel clock = (result, session)) :
    result = .error (.settings error) ∧ session.channel = channel := by
  rw [transfer_of_refused hRefused] at hRun
  cases hRun
  exact ⟨rfl, rfl⟩

/-- The first call that fails for good is the last call of all, and its error is
the result, whatever was wrong with the text. A write that takes nothing is such a
call, and has an error of its own. If no call fails, the text decides: a bad pair
fails a decoding as soon as what came before it is written and flushed, and all else
ends well where the input ends. Refused settings allow no call at all. -/
theorem first_failure_decides (settings : Settings) (source : Source) (sink : Sink)
    (clock : Clock) :
    let (result, session) := transfer settings { source, sink } clock
    let log : Log := session.channel.log.toList
    (settings.chunkSize = 0 → log = [] ∧ result = .error (.settings .zeroChunk)) ∧
    (Settings.maxChunkSize < settings.chunkSize →
      log = [] ∧ result = .error (.settings (.largeChunk settings.chunkSize))) ∧
    (1 ≤ settings.chunkSize → settings.chunkSize ≤ Settings.maxChunkSize →
      (∀ past event after error, log = past ++ event :: after → event.failure = some error →
        after = [] ∧ result = .error (.channel error)) ∧
      (∀ past offered after, log = past ++ .wrote offered 0 :: after → after = [] ∧
        result = .error (.channel ⟨.writeZero, some "failed to write whole buffer"⟩)) ∧
      (log.Calm → settings.mode = .decode → Text.Malformed log.delivered →
        ∃ error past limit chunk writes, result = .error (.codec error) ∧
          log = past ++ .received limit chunk :: (writes ++ [.flushed]) ∧
          (∀ call ∈ writes, call.isWrite) ∧ ¬ Text.Malformed (Log.delivered past) ∧
          log.accepted = log.ideal settings.mode) ∧
      (log.Calm → ¬ (settings.mode = .decode ∧ Text.Malformed log.delivered) →
        ∃ summary past limit after, result = .ok summary ∧
          log = past ++ .received limit [] :: after ∧ Log.ended past = false ∧
          ∀ call ∈ after, call.isRead = false)) := by
  rcases hRun : transfer settings { source, sink } clock with ⟨result, session⟩
  have refused (error : SettingsError) (hRefused : settings.validate = .error error) :=
    transfer_refused hRefused hRun
  dsimp only
  refine ⟨?_, ?_, ?_⟩
  · intro hZero
    obtain ⟨hResult, hChannel⟩ := refused .zeroChunk (Settings.validate_of_eq_zero hZero)
    exact ⟨by rw [hChannel], hResult⟩
  · intro hLarge
    obtain ⟨hResult, hChannel⟩ := refused (.largeChunk settings.chunkSize)
      (Settings.validate_of_maxChunkSize_lt hLarge)
    exact ⟨by rw [hChannel], hResult⟩
  · intro hOne hMax
    obtain ⟨sound, outcome⟩ := transfer_sound (Settings.validate_eq_ok_iff.mpr ⟨hOne, hMax⟩) hRun
    have orderly := sound.orderly
    have decides (past : Log) (event : Event) (after : Log) (error : ChannelError)
        (hLog : session.channel.log.toList = past ++ event :: after)
        (hFailure : event.failure = some error) :
        after = [] ∧ result = .error (.channel error) := by
      rw [hLog] at orderly outcome
      have hLast : after = [] := orderly.eq_nil_of_failure hFailure
      subst hLast
      exact ⟨rfl, outcome.of_failure hFailure⟩
    refine ⟨decides, ?_, ?_, ?_⟩
    · intro past offered after hLog
      exact decides past (.wrote offered 0) after .nothingAccepted hLog rfl
    · intro calm hMode hMalformed
      cases outcome with
      | finished complete => exact absurd hMalformed (complete.not_malformed hMode)
      | @broken error writes _ _ settled hBroken hWrites =>
          obtain ⟨_, past, limit, chunk, hLog, ready⟩ := hBroken
          exact ⟨error, past, limit, chunk, writes, rfl, hLog, hWrites, ready.not_malformed rfl,
            settled.accepted_eq⟩
      | failed hFailed => exact absurd calm hFailed.not_calm
    · intro calm hText
      cases outcome with
      | @finished summary complete =>
          obtain ⟨past, limit, after, hLog, hOpen, hAfter⟩ :=
            orderly.split_of_ended complete.ended
          exact ⟨summary, past, limit, after, rfl, hLog, hOpen, hAfter⟩
      | broken hMode _ _ hBroken => exact absurd ⟨hMode, hBroken.malformed⟩ hText
      | failed hFailed => exact absurd calm hFailed.not_calm

end HexFilter
