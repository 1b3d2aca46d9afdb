import HexFilter.Proofs.Invariant
import HexFilter.Proofs.Position

/-! What a transfer counts, against the log of its calls. The counts are words
of 64 bits, so they agree with the log modulo the size of a word, and the input
has to be bounded only where the counts are read as numbers. -/
namespace HexFilter

/-- What there is to count in these calls. The newlines and a dropped digit are
counted only when the input has ended. -/
def Log.tally (mode : Mode) (log : Log) : Tally :=
  let common : Tally :=
    { chunksRead := log.chunks.toUInt64
      bytesIn := log.delivered.length.toUInt64
      bytesOut := (log.ideal mode).length.toUInt64 }
  match mode with
  | .encode => common
  | .decode =>
      let newlines := log.delivered.count newline
      { common with
        pairsDecoded := common.bytesOut
        newlinesSkipped := if log.ended then newlines.toUInt64 else 0
        danglingNibble := log.ended && (log.delivered.length - newlines) % 2 == 1 }

/-- What is counted depends on what was delivered, on the reads that got it, and on
whether the input has ended. -/
theorem Log.tally_congr {mode : Mode} {log other : Log}
    (hDelivered : log.delivered = other.delivered) (hEnded : log.ended = other.ended)
    (hChunks : log.chunks = other.chunks) : log.tally mode = other.tally mode := by
  cases mode <;> simp [tally, ideal, hDelivered, hEnded, hChunks]

/-- Calls that bring no bytes and no end of the input leave nothing to count. -/
theorem Log.tally_append {mode : Mode} {log calls : Log} (hDelivered : delivered calls = [])
    (hEnded : ended calls = false) (hChunks : chunks calls = 0) :
    tally mode (log ++ calls) = tally mode log := by
  apply tally_congr
  · rw [delivered_append, hDelivered, List.append_nil]
  · rw [ended_append, hEnded, Bool.or_false]
  · rw [chunks_append, hChunks, Nat.add_zero]

namespace Transfer

/-- What has been counted in each phase. A chunk that waits to be translated is
counted as read, and what comes out of it is not counted yet. -/
def Counts (mode : Mode) (t : Transfer) (log : Log) : Prop :=
  match t.phase with
  | .translating _ => ∃ past limit chunk, log = past ++ [.received limit chunk] ∧
      t.tally = (Log.tally mode past).addRead chunk.length.toUInt64
  | .reading | .writing _ | .flushing _ | .closing => t.tally = log.tally mode
  | .finished summary => ∃ watch now, summary = Summary.of mode (log.tally mode) watch now
  | .stopped _ => True

/-- A transfer that goes by these settings and has counted what it should. -/
structure Tallied (settings : Settings) (t : Transfer) (log : Log) : Prop where
  settings_eq : t.settings = settings
  counts : t.Counts settings.mode log

variable {settings : Settings} {t : Transfer} {log calls : Log}

/-- A report is not counted. -/
theorem Tallied.note (tallied : t.Tallied settings log) (notice : Notice) :
    (t.note notice).Tallied settings log := by
  unfold Transfer.note
  split
  · exact ⟨tallied.settings_eq, tallied.counts⟩
  · exact tallied

theorem Tallied.charge (tallied : t.Tallied settings log) (stage : Stage) (began ended : Duration) :
    (t.charge stage began ended).Tallied settings log :=
  ⟨tallied.settings_eq, tallied.counts⟩

/-- A transfer that stops has no summary that would have to agree. -/
theorem tallied_stop (hSettings : t.settings = settings) (failure : Failure) (log : Log) :
    (t.stop failure).Tallied settings log := by
  apply Tallied.note
  exact ⟨hSettings, trivial⟩

/-- At the end of the input the closing newline is counted, or the newlines and the
digit that is left over. -/
theorem tallied_endInput {past : Log} {limit : Nat} (hSettings : t.settings = settings)
    (hMode : t.codec.mode = settings.mode) (hTally : t.tally = Log.tally settings.mode past)
    (ready : past.Ready settings.mode) (follows : t.codec.Follows past) (hOutput : t.output = #[]) :
    t.endInput.Tallied settings (past ++ [.received limit []]) := by
  unfold Transfer.endInput
  cases hCodec : t.codec with
  | encoder e =>
      have hEncode : settings.mode = .encode := by rw [← hMode, hCodec]; rfl
      rw [hCodec] at follows
      cases follows
      refine ⟨hSettings, ?_⟩
      simp only [Counts, hTally, hEncode, hOutput]
      simp [Log.tally, Log.ideal, Tally.addTrailer, Encoder.finish, Event.delivered, Event.isEnd,
        ready.not_ended]
  | decoder d =>
      have hDecode : settings.mode = .decode := by rw [← hMode, hCodec]; rfl
      rw [hCodec] at follows
      obtain ⟨rfl, hFault⟩ := follows
      have hNewlines := (Decoder.standsAt_decoded hFault).newlines_eq
      have tallied (t' : Transfer) (hSettings : t'.settings = settings)
          (hPhase : t'.phase = .closing)
          (hTally : t'.tally = { Log.tally settings.mode past with
            newlinesSkipped := (Decoder.decoded past.delivered).decoder.newlines.toUInt64
            danglingNibble := (Decoder.decoded past.delivered).decoder.finish.2.isSome }) :
          t'.Tallied settings (past ++ [.received limit []]) := by
        refine ⟨hSettings, ?_⟩
        simp only [Counts, hPhase, hTally, hDecode, hNewlines, Decoder.isSome_finish_decoded hFault]
        simp [Log.tally, Log.ideal, Event.delivered, Event.isEnd]
      dsimp only
      rw [hTally]
      split
      · exact tallied _ hSettings rfl rfl
      · apply Tallied.note
        exact tallied _ hSettings rfl rfl

/-- What a read got is counted when it comes in. -/
theorem Tallied.onRead {answer : Except ChannelError (List UInt8)}
    (tallied : t.Tallied settings log) (sound : t.Sound settings log) (hPhase : t.phase = .reading)
    (receives : Channel.Receives t.buffer.length calls answer) :
    (t.onRead (answer.map (Channel.fill t.buffer))).Tallied settings (log ++ calls) := by
  obtain ⟨hSettings, counts⟩ := tallied
  obtain ⟨framed, agrees⟩ := sound
  simp only [Counts, hPhase] at counts
  simp only [Agrees, hPhase] at agrees
  obtain ⟨ready, follows, hOutput⟩ := agrees
  rw [framed.length_buffer] at receives
  obtain ⟨past, hPast, readyPast, hDelivered, hChunks, _⟩ := receives.ready ready framed.orderly
  have hTally : t.tally = Log.tally settings.mode past := by
    rw [counts]
    exact Log.tally_congr hDelivered.symm (ready.not_ended.trans readyPast.not_ended.symm)
      hChunks.symm
  rw [hPast]
  cases answer with
  | error error => exact tallied_stop hSettings _ _
  | ok bytes =>
      cases bytes with
      | nil =>
          have hBuffer : Channel.fill t.buffer [] = (0, t.buffer) := by simp [Channel.fill]
          simp only [Except.map, hBuffer, Transfer.onRead]
          exact tallied_endInput hSettings framed.mode_eq hTally readyPast
            (follows.congr hDelivered) hOutput
      | cons byte bytes =>
          refine ⟨hSettings, past, _, _, rfl, ?_⟩
          rw [← hTally]
          rfl

/-- What comes out of a chunk is counted when the chunk is translated. -/
theorem Tallied.translate {count : Nat} (tallied : t.Tallied settings log)
    (sound : t.Sound settings log) (hPhase : t.phase = .translating count) :
    (t.translate count).Tallied settings log := by
  obtain ⟨hSettings, counts⟩ := tallied
  obtain ⟨framed, agrees⟩ := sound
  simp only [Counts, hPhase] at counts
  simp only [Agrees, hPhase] at agrees
  obtain ⟨past, limit, chunk, rfl, ready, follows, hOutput, hTake, hChunk⟩ := agrees
  obtain ⟨_, _, _, hLog, hTally⟩ := counts
  obtain ⟨rfl, hEvent⟩ := List.append_inj' hLog rfl
  cases hEvent
  have hIdeal : (Log.ideal settings.mode (past ++ [.received limit chunk])).length =
      (Log.ideal settings.mode past).length + (t.codec.chunk #[] chunk).output.size := by
    rw [← framed.mode_eq, follows.ideal_chunk ready.not_ended hChunk limit]
    exact List.length_append
  have hEnd := Event.isEnd_received limit hChunk
  refine ⟨hSettings, ?_⟩
  unfold Transfer.translate
  rw [hOutput, hTake]
  simp only [Counts, Transfer.count, hTally, framed.mode_eq]
  cases hMode : settings.mode with
  | encode =>
      rw [hMode] at hIdeal
      simp [Log.tally, Tally.addRead, Tally.addEncoded, hIdeal, Event.delivered, hChunk]
  | decode =>
      rw [hMode] at hIdeal
      simp [Log.tally, Tally.addRead, Tally.addDecoded, hIdeal, Event.delivered, hChunk, hEnd,
        ready.not_ended]

/-- Writing is not counted: the bytes were counted when they were translated. -/
theorem Tallied.onWritten {next : Next} {answer : Except ChannelError Unit}
    (tallied : t.Tallied settings log) (hPhase : t.phase = .writing next)
    (hWrites : ∀ call ∈ calls, call.isWrite) :
    (t.onWritten next answer).Tallied settings (log ++ calls) := by
  obtain ⟨hSettings, counts⟩ := tallied
  simp only [Counts, hPhase] at counts
  cases answer with
  | error error => exact tallied_stop hSettings _ _
  | ok =>
      refine ⟨hSettings, ?_⟩
      simp only [Counts, Transfer.onWritten]
      rw [counts, Log.tally_append (Log.delivered_eq_nil hWrites) (Log.ended_eq_false hWrites)
        (Log.chunks_eq_zero hWrites)]

theorem Tallied.onFlushed {next : Next} (tallied : t.Tallied settings log)
    (hPhase : t.phase = .flushing next) (answer : Except ChannelError Unit) :
    (t.onFlushed next answer).Tallied settings (log ++ [Event.ofFlush answer]) := by
  obtain ⟨hSettings, counts⟩ := tallied
  simp only [Counts, hPhase] at counts
  cases answer with
  | error error => exact tallied_stop hSettings _ _
  | ok =>
      have hTally : t.tally = Log.tally settings.mode (log ++ [Event.ofFlush (.ok ())]) :=
        counts.trans (Log.tally_append rfl rfl rfl).symm
      cases next with
      | read => exact ⟨hSettings, hTally⟩
      | fail error => exact tallied_stop (t := { t with output := #[] }) hSettings _ _
      | close => exact ⟨hSettings, hTally⟩

/-- The summary is made of the counts at the end. -/
theorem Tallied.close (tallied : t.Tallied settings log) (hPhase : t.phase = .closing)
    (now : Duration) : (t.close now).Tallied settings log := by
  obtain ⟨hSettings, counts⟩ := tallied
  simp only [Counts, hPhase] at counts
  apply Tallied.note
  refine ⟨hSettings, t.watch.finish now, now, ?_⟩
  rw [← counts, ← hSettings]

theorem tallied_start (hValid : settings.validate = .ok ()) (now : Duration) :
    (start settings now).Tallied settings [] := by
  unfold start
  rw [hValid]
  apply Tallied.note
  refine ⟨rfl, ?_⟩
  cases hMode : settings.mode with
  | encode => rfl
  | decode => rfl

end Transfer

namespace Session

def Tallied (settings : Settings) (s : Session) : Prop :=
  s.transfer.Tallied settings s.channel.log.toList

/-- Every step keeps the counts in agreement with the log. -/
theorem Moves.tallied {settings : Settings} {s next : Session} (moves : s.Moves next)
    (sound : s.Sound settings) (tallied : s.Tallied settings) : next.Tallied settings := by
  have sound : s.transfer.Sound settings s.channel.log.toList := sound
  have tallied : s.transfer.Tallied settings s.channel.log.toList := tallied
  cases moves with
  | read began ended clock hPhase =>
      obtain ⟨calls, answer, receives, hAnswer, hLog⟩ := s.channel.readInto_calls s.transfer.buffer
      rw [Session.Tallied, hAnswer, hLog]
      exact (tallied.charge .read began ended).onRead (sound.charge .read began ended) hPhase
        receives
  | translate count stage began ended clock hPhase =>
      exact (tallied.charge stage began ended).translate (sound.charge stage began ended) hPhase
  | write next began ended clock hPhase =>
      obtain ⟨calls, offers, hLog⟩ := s.channel.writeAll_calls s.transfer.output.toList
      rw [Session.Tallied, hLog]
      exact (tallied.charge .write began ended).onWritten hPhase offers.isWrite
  | flush next began ended clock hPhase =>
      rw [Session.Tallied, s.channel.flush_call]
      exact (tallied.charge .flush began ended).onFlushed hPhase s.channel.flush.1
  | close now clock hPhase => exact tallied.close hPhase now
  | rest => exact tallied

end Session

/-- A transfer that ends well sums up what there was to count, and all of its
output is out. -/
theorem transfer_summary {settings : Settings} (hValid : settings.validate = .ok ())
    {source : Source} {sink : Sink} {clock : Clock} {summary : Summary} {session : Session}
    (hRun : transfer settings { source, sink } clock = (.ok summary, session)) :
    Log.Complete settings.mode session.channel.log.toList ∧ ∃ watch now, summary =
      Summary.of settings.mode (Log.tally settings.mode session.channel.log.toList) watch now := by
  obtain ⟨⟨sound, -, counts⟩, hPhase⟩ := transfer_preserves
    (motive := fun s => s.Sound settings ∧ s.Tallied settings) hRun
    ⟨Transfer.sound_start hValid clock.read.1, Transfer.tallied_start hValid clock.read.1⟩
    (fun s h => ⟨s.moves_step.sound h.1, s.moves_step.tallied h.1 h.2⟩)
  have hPhase : session.transfer.phase = .finished summary := hPhase
  have agrees := sound.agrees
  simp only [Transfer.Agrees, hPhase] at agrees
  simp only [Transfer.Counts, hPhase] at counts
  exact ⟨agrees.1, counts⟩

end HexFilter
