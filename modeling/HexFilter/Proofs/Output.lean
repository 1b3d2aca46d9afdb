import HexFilter.Proofs.Discipline
import HexFilter.Proofs.Invariant

/-! What a sink has accepted, at every moment of a transfer and at its end, and
under any faults of the channel. The moments of a transfer are what its steps come
to, and between them the calls made so far: all the beginnings of its log. -/
namespace HexFilter

/-- A step adds calls to the log and takes none away. -/
theorem Session.Moves.log_prefix {s next : Session} (moves : s.Moves next) :
    s.channel.log.toList <+: next.channel.log.toList := by
  cases moves with
  | read =>
      obtain ⟨calls, _, _, _, hLog⟩ := s.channel.readInto_calls s.transfer.buffer
      rw [hLog]
      exact List.prefix_append ..
  | write =>
      obtain ⟨calls, _, hLog⟩ := s.channel.writeAll_calls s.transfer.output.toList
      rw [hLog]
      exact List.prefix_append ..
  | flush =>
      rw [s.channel.flush_call]
      exact List.prefix_append ..
  | translate | close | rest => exact List.prefix_rfl

/-- After any number of steps the log is a beginning of the log at the end. -/
theorem Session.log_prefix_run (s : Session) (steps : Nat) :
    (step^[steps] s).channel.log.toList <+: s.run.2.channel.log.toList := by
  have hEnd := Session.run_preserves
    (motive := fun t => (step^[steps] s).channel.log.toList <+: t.channel.log.toList)
    (fun t h => h.trans t.moves_step.log_prefix) List.prefix_rfl
  rwa [run_iterate] at hEnd

/-- The transfer ended because its last call, a write, failed for good. -/
def Log.StoppedWriting (log : Log) (result : Except Failure Summary) : Prop :=
  ∃ past last error, log = past ++ [last] ∧ last.isWrite ∧ last.failure = some error ∧
    result = .error (.channel error)

/-- At the end all is out that should be, unless writing it failed. -/
theorem Transfer.Outcome.accepted_eq_iff {mode : Mode} {limit : Nat} {t : Transfer} {log : Log}
    {result : Except Failure Summary} (outcome : t.Outcome mode log result)
    (orderly : log.Orderly mode limit) :
    log.accepted = log.ideal mode ↔ ¬ log.StoppedWriting result := by
  cases outcome with
  | finished complete =>
      refine iff_of_true complete.accepted_eq ?_
      rintro ⟨_, _, _, _, _, _, hResult⟩
      cases hResult
  | broken _ _ settled =>
      refine iff_of_true settled.accepted_eq ?_
      rintro ⟨_, _, _, _, _, _, hResult⟩
      cases hResult
  | @failed error hFailed =>
      obtain ⟨past, last, rfl, _, hFailure⟩ := hFailed
      rw [orderly.accepted_eq_iff hFailure]
      constructor
      · rintro hOther ⟨past', last', error', hLog, hWrite, _⟩
        obtain ⟨_, hLast⟩ := List.append_inj' hLog rfl
        cases hLast
        rw [hOther] at hWrite
        cases hWrite
      · intro hNot
        by_contra hWrite
        exact hNot ⟨past, last, error, rfl, by simpa using hWrite, hFailure, rfl⟩

/-- At every moment the sink has accepted a beginning of what the bytes
delivered by then call for. At the end it has accepted all of that, and only a
failed write leaves something out. A read that fails leaves no closing newline
behind. -/
theorem accepted_prefix_ideal (settings : Settings) (hValid : settings.validate = .ok ())
    (source : Source) (sink : Sink) (clock : Clock) :
    let (result, session) := transfer settings { source, sink } clock
    let log : Log := session.channel.log.toList
    (∀ past : Log, past <+: log → past.accepted <+: past.ideal settings.mode) ∧
    (∀ steps : Nat,
      let moment := Session.step^[steps] (Session.begin settings { source, sink } clock)
      let past : Log := moment.channel.log.toList
      past <+: log ∧ past.accepted <+: past.ideal settings.mode) ∧
    (¬ log.StoppedWriting result → log.accepted = log.ideal settings.mode) ∧
    (log.StoppedWriting result →
      log.accepted <+: log.ideal settings.mode ∧ log.accepted ≠ log.ideal settings.mode) ∧
    (∀ limit error, .readFailed limit error ∈ log → error.isInterrupted = false →
      settings.mode = .encode → newline ∉ log.accepted) := by
  rcases hRun : transfer settings { source, sink } clock with ⟨result, session⟩
  obtain ⟨sound, outcome⟩ := transfer_sound hValid hRun
  have hEnd := outcome.accepted_eq_iff sound.orderly
  dsimp only
  have hPrefix (past : Log) (hPast : past <+: session.channel.log.toList) :
      past.accepted <+: past.ideal settings.mode := by
    obtain ⟨after, hLog⟩ := hPast
    have orderly := sound.orderly
    rw [← hLog] at orderly
    exact orderly.of_append.accepted_prefix
  refine ⟨hPrefix, ?_, hEnd.mpr, fun hStopped => ⟨sound.orderly.accepted_prefix, ?_⟩, ?_⟩
  · intro steps
    have hPast := (Session.begin settings { source, sink } clock).log_prefix_run steps
    rw [← transfer, hRun] at hPast
    exact ⟨hPast, hPrefix _ hPast⟩
  · intro hEq
    exact hEnd.mp hEq hStopped
  · intro limit error hMem hFatal hMode
    obtain ⟨past, after, hLog⟩ := List.append_of_mem hMem
    have orderly := sound.orderly
    rw [hLog] at orderly ⊢
    have hFailure : (Event.readFailed limit error).failure = some error := by
      simp [Event.failure, hFatal]
    have hLast : after = [] := orderly.eq_nil_of_failure hFailure
    have ready := (orderly past _ after rfl).ready rfl
    have hNothing : (Event.readFailed limit error).accepted = [] := rfl
    rw [hLast, Log.accepted_append, Log.accepted_singleton, hNothing, List.append_nil,
      ready.accepted_eq_hexText hMode]
    exact Text.newline_notMem_hexText _

theorem accepted_prefix_ideal_brokenPipe :
    let settings : Settings := { mode := .decode, chunkSize := 4 }
    let sink : Sink := { writes := [.accept (some 1), .fail ⟨.brokenPipe, none⟩] }
    let (result, session) :=
      transfer settings { source := [.data [52, 97, 52, 98] none], sink } {}
    let log : Log := session.channel.log.toList
    settings.validate = .ok () ∧ log.StoppedWriting result ∧
      log.accepted <+: log.ideal settings.mode ∧ log.accepted ≠ log.ideal settings.mode := by
  intro settings sink
  have hValid : settings.validate = .ok () := by decide
  have h := accepted_prefix_ideal settings hValid [.data [52, 97, 52, 98] none] sink {}
  have hStopped : Log.StoppedWriting
      (transfer settings { source := [.data [52, 97, 52, 98] none], sink } {}).2.channel.log.toList
      (transfer settings { source := [.data [52, 97, 52, 98] none], sink } {}).1 :=
    ⟨[.received 4 [52, 97, 52, 98], .wrote [74, 75] 1], .writeFailed [75] ⟨.brokenPipe, none⟩,
      ⟨.brokenPipe, none⟩, by decide +kernel, rfl, rfl, by decide +kernel⟩
  exact ⟨hValid, hStopped, h.2.2.2.1 hStopped⟩

end HexFilter
