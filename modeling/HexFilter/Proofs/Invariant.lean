import HexFilter.Proofs.Calls
import HexFilter.Proofs.Run

/-! The invariant of a transfer: in each phase the log tells how far the
transfer has come, and the codec, the buffer and the output agree with it. -/
namespace HexFilter

/-- A codec that has taken all that was delivered, and found no fault in it. -/
def Codec.Follows (log : Log) : Codec → Prop
  | .encoder e => e = {}
  | .decoder d => (Decoder.decoded log.delivered).decoder = d ∧
      (Decoder.decoded log.delivered).fault = none

/-- What a codec remembers depends on what was delivered alone. -/
theorem Codec.Follows.congr {codec : Codec} {log other : Log} (follows : codec.Follows log)
    (h : other.delivered = log.delivered) : codec.Follows other := by
  cases codec with
  | encoder e => exact follows
  | decoder d =>
      unfold Codec.Follows at follows ⊢
      rwa [h]

/-- A decoder that still follows has met no bad pair. -/
theorem Codec.Follows.not_malformed {codec : Codec} {log : Log} (follows : codec.Follows log)
    (hMode : codec.mode = .decode) : ¬ Text.Malformed log.delivered := by
  cases codec with
  | encoder e => cases hMode
  | decoder d => exact (Decoder.fault_decoded_eq_none_iff _).mp follows.2

section Chunk

variable {codec : Codec} {past : Log} {bytes : List UInt8}

/-- A decoder that has taken all so far takes a further chunk. -/
theorem Codec.Follows.decoded_append {d : Decoder} (follows : (Codec.decoder d).Follows past)
    (bytes : List UInt8) :
    Decoder.decoded (past.delivered ++ bytes) =
      ⟨(d.chunk #[] bytes).decoder,
        (Decoder.decoded past.delivered).output ++ (d.chunk #[] bytes).output,
        (d.chunk #[] bytes).fault⟩ := by
  rw [Decoder.decoded_append, Decoder.resume, follows.2, follows.1, ← Decoder.chunk_behind]

/-- The output for a chunk is what the chunk adds to the ideal output. -/
theorem Codec.Follows.ideal_chunk (follows : codec.Follows past) (hEnded : past.ended = false)
    (hBytes : bytes ≠ []) (limit : Nat) :
    Log.ideal codec.mode (past ++ [.received limit bytes]) =
      past.ideal codec.mode ++ (codec.chunk #[] bytes).output.toList := by
  cases codec with
  | encoder e =>
      have hEnd := Event.isEnd_received limit hBytes
      simp [Log.ideal, Codec.mode, Codec.chunk, hEnded, hEnd, hexText, Event.delivered]
  | decoder d =>
      have hDecoded := follows.decoded_append bytes
      simp only [Log.ideal, Codec.mode, Codec.chunk, Log.delivered_append,
        Log.delivered_singleton, Event.delivered]
      rw [← Decoder.toList_output_decoded, hDecoded, ← Decoder.toList_output_decoded,
        Array.toList_append]

/-- A chunk without a bad pair is followed to its end. -/
theorem Codec.Follows.chunk (follows : codec.Follows past)
    (hFault : (codec.chunk #[] bytes).fault = none) (limit : Nat) :
    (codec.chunk #[] bytes).codec.Follows (past ++ [.received limit bytes]) := by
  cases codec with
  | encoder e => exact follows
  | decoder d =>
      have hDecoded := follows.decoded_append bytes
      simp only [Codec.chunk, Codec.Follows, Log.delivered_append, Log.delivered_singleton,
        Event.delivered]
      rw [hDecoded]
      exact ⟨rfl, hFault⟩

/-- A bad pair in a chunk is the first one in all that was delivered, and only a
decoder meets one. -/
theorem Codec.Follows.fault_chunk {error : InvalidDigit} (follows : codec.Follows past)
    (hFault : (codec.chunk #[] bytes).fault = some error) :
    codec.mode = .decode ∧ (Decoder.decoded (past.delivered ++ bytes)).fault = some error := by
  cases codec with
  | encoder e => cases hFault
  | decoder d =>
      refine ⟨rfl, ?_⟩
      rw [follows.decoded_append]
      exact hFault

end Chunk

/-- The text delivered has a bad digit, which came with the last chunk. These
are the calls made since. -/
def Log.Broken (log : Log) (error : InvalidDigit) (since : Log) : Prop :=
  (Decoder.decoded log.delivered).fault = some error ∧
    ∃ past limit chunk, log = past ++ .received limit chunk :: since ∧ Log.Ready .decode past

/-- A transfer goes on as the log says. -/
def Next.Agrees (mode : Mode) (codec : Codec) (log : Log) : Next → Prop
  | .read => log.ended = false ∧ codec.Follows log
  | .fail error => mode = .decode ∧ log.ended = false ∧
      ∃ since, log.Broken error since ∧ ∀ call ∈ since, call.isWrite
  | .close => mode = .encode ∧ log.ended

/-- Writing does not change where a transfer goes on. -/
theorem Next.Agrees.append_writes {mode : Mode} {codec : Codec} {log calls : Log} {next : Next}
    (agrees : next.Agrees mode codec log) (hWrites : ∀ call ∈ calls, call.isWrite) :
    next.Agrees mode codec (log ++ calls) := by
  have hDelivered : Log.delivered (log ++ calls) = log.delivered := by
    rw [Log.delivered_append, Log.delivered_eq_nil hWrites, List.append_nil]
  have hEnded : Log.ended (log ++ calls) = log.ended := by
    rw [Log.ended_append, Log.ended_eq_false hWrites, Bool.or_false]
  cases next with
  | read => exact ⟨hEnded.trans agrees.1, agrees.2.congr hDelivered⟩
  | fail error =>
      obtain ⟨hMode, hOpen, since, ⟨hFault, past, limit, chunk, rfl, ready⟩, hSince⟩ := agrees
      refine ⟨hMode, hEnded.trans hOpen, since ++ calls, ⟨?_, past, limit, chunk, ?_, ready⟩, ?_⟩
      · rw [hDelivered]
        exact hFault
      · simp
      · exact List.forall_mem_append.mpr ⟨hSince, hWrites⟩
  | close => exact ⟨agrees.1, hEnded.trans agrees.2⟩

/-- The last call has failed, and no call before it. -/
def Log.FailedLast (log : Log) (error : ChannelError) : Prop :=
  ∃ past last, log = past ++ [last] ∧ Log.Calm past ∧ last.failure = some error

theorem Log.FailedLast.not_calm {log : Log} {error : ChannelError} (failed : log.FailedLast error) :
    ¬ log.Calm := by
  obtain ⟨past, last, rfl, _, hFailure⟩ := failed
  exact Log.not_calm_of_failure (by simp) hFailure

/-- The input has ended, and all that should be out is out. -/
structure Log.Complete (mode : Mode) (log : Log) : Prop extends Log.Settled mode log where
  ended : log.ended
  not_malformed : mode = .decode → ¬ Text.Malformed log.delivered

/-- No bad digit was found in a text that was decoded to its end. -/
theorem Log.Complete.fault_eq_none {log : Log} (complete : log.Complete .decode) :
    (Decoder.decoded log.delivered).fault = none :=
  (Decoder.fault_decoded_eq_none_iff _).mpr (complete.not_malformed rfl)

namespace Transfer

/-- What the log has to say in each phase. -/
def Agrees (mode : Mode) (t : Transfer) (log : Log) : Prop :=
  match t.phase with
  | .reading => log.Ready mode ∧ t.codec.Follows log ∧ t.output = #[]
  | .translating count => ∃ past limit chunk, log = past ++ [.received limit chunk] ∧
      Log.Ready mode past ∧ t.codec.Follows past ∧ t.output = #[] ∧
      t.buffer.take count = chunk ∧ chunk ≠ []
  | .writing next => log.Owing mode t.output.toList ∧ next.Agrees mode t.codec log
  | .flushing next => log.Owing mode [] ∧ next.Agrees mode t.codec log
  | .closing => log.Complete mode
  | .finished summary => log.Complete mode ∧ summary.tally = t.tally
  | .stopped (.channel error) => log.FailedLast error
  | .stopped (.codec error) => mode = .decode ∧ log.ended = false ∧ log.Settled mode ∧
      ∃ writes, log.Broken error (writes ++ [.flushed]) ∧ ∀ call ∈ writes, call.isWrite
  | .stopped (.settings _) => False

/-- What holds in every phase of a transfer. -/
structure Framed (settings : Settings) (t : Transfer) (log : Log) : Prop where
  mode_eq : t.codec.mode = settings.mode
  length_buffer : t.buffer.length = settings.chunkSize
  chunksRead_eq : t.tally.chunksRead = log.chunks.toUInt64
  orderly : log.Orderly settings.mode settings.chunkSize

/-- The invariant of a transfer whose settings were accepted. -/
structure Sound (settings : Settings) (t : Transfer) (log : Log) : Prop
    extends Framed settings t log where
  agrees : t.Agrees settings.mode log

variable {settings : Settings} {t : Transfer} {log calls : Log}

theorem Sound.note (sound : t.Sound settings log) (notice : Notice) :
    (t.note notice).Sound settings log := by
  unfold Transfer.note
  split
  · exact ⟨⟨sound.mode_eq, sound.length_buffer, sound.chunksRead_eq, sound.orderly⟩, sound.agrees⟩
  · exact sound

theorem Sound.charge (sound : t.Sound settings log) (stage : Stage) (began ended : Duration) :
    (t.charge stage began ended).Sound settings log :=
  ⟨⟨sound.mode_eq, sound.length_buffer, sound.chunksRead_eq, sound.orderly⟩, sound.agrees⟩

/-- A failed call stops a transfer. -/
theorem Framed.stop {error : ChannelError} (framed : t.Framed settings log)
    (failed : log.FailedLast error) : (t.stop (.channel error)).Sound settings log := by
  apply Sound.note
  exact ⟨⟨framed.mode_eq, framed.length_buffer, framed.chunksRead_eq, framed.orderly⟩, failed⟩

/-- What is owed when the input has ended is the closing newline of an encoding, and
nothing of a decoding. -/
theorem Framed.endInput {past : Log} {limit : Nat}
    (framed : t.Framed settings (past ++ [.received limit []])) (ready : past.Ready settings.mode)
    (follows : t.codec.Follows past) (hOutput : t.output = #[]) :
    t.endInput.Sound settings (past ++ [.received limit []]) := by
  obtain ⟨mode_eq, length_buffer, chunksRead_eq, orderly⟩ := framed
  unfold Transfer.endInput
  cases hCodec : t.codec with
  | encoder e =>
      have hMode : settings.mode = .encode := by rw [← mode_eq, hCodec]; rfl
      rw [hCodec] at follows
      cases follows
      refine ⟨⟨hMode.symm, length_buffer, chunksRead_eq, orderly⟩, ?_, hMode, by simp [Event.isEnd]⟩
      rw [hMode] at ready ⊢
      apply ready.owing
      · simp [Log.ideal, Event.delivered, Event.isEnd, ready.not_ended, hOutput, Encoder.finish]
      · simp [Log.due, Event.delivered, Event.isEnd, ready.not_ended]
  | decoder d =>
      have hMode : settings.mode = .decode := by rw [← mode_eq, hCodec]; rfl
      have complete : Log.Complete settings.mode (past ++ [.received limit []]) := by
        rw [hMode] at ready ⊢
        exact ⟨ready.received_end, by simp [Event.isEnd],
          fun _ => by simpa [Event.delivered] using ready.not_malformed rfl⟩
      have sound (tally : Tally) (hTally : tally.chunksRead = t.tally.chunksRead) :
          Transfer.Sound settings
            { t with codec := .decoder d.finish.1, tally, phase := .closing }
            (past ++ [.received limit []]) :=
        ⟨⟨hMode.symm, length_buffer, hTally.trans chunksRead_eq, orderly⟩, complete⟩
      dsimp only
      split
      · exact sound _ rfl
      · apply Sound.note
        exact sound _ rfl

/-- A read is answered. What it got stands in front of the buffer. -/
theorem Sound.onRead {answer : Except ChannelError (List UInt8)} (sound : t.Sound settings log)
    (hPhase : t.phase = .reading) (receives : Channel.Receives t.buffer.length calls answer) :
    (t.onRead (answer.map (Channel.fill t.buffer))).Sound settings (log ++ calls) := by
  obtain ⟨framed, agrees⟩ := sound
  simp only [Agrees, hPhase] at agrees
  obtain ⟨ready, follows, hOutput⟩ := agrees
  have hLimit := framed.length_buffer
  rw [hLimit] at receives
  obtain ⟨past, hPast, readyPast, hDelivered, hChunks, orderly⟩ :=
    receives.ready ready framed.orderly
  have followsPast : t.codec.Follows past := follows.congr hDelivered
  rw [hPast] at orderly ⊢
  cases hAnswer : answer with
  | error error =>
      rw [hAnswer] at orderly receives
      have chunksRead_eq := framed.chunksRead_eq
      apply Framed.stop
      · refine ⟨framed.mode_eq, hLimit, ?_, orderly⟩
        simp [Event.ofRead, Event.delivered, chunksRead_eq, hChunks]
      · exact ⟨past, _, rfl, readyPast.calm, receives.failure⟩
  | ok bytes =>
      rw [hAnswer] at orderly
      cases bytes with
      | nil =>
          have hBuffer : Channel.fill t.buffer [] = (0, t.buffer) := by simp [Channel.fill]
          simp only [Except.map, hBuffer, Transfer.onRead]
          refine Framed.endInput ⟨framed.mode_eq, hLimit, ?_, orderly⟩ readyPast followsPast hOutput
          simp [Event.delivered, framed.chunksRead_eq, hChunks]
      | cons byte bytes =>
          have hLength : bytes.length + 1 ≤ settings.chunkSize := by
            rw [hAnswer] at receives
            exact receives.length_le
          have hRead : t.onRead (Except.map (Channel.fill t.buffer) (.ok (byte :: bytes))) =
              { t with
                buffer := byte :: bytes ++ t.buffer.drop (bytes.length + 1)
                tally := t.tally.addRead (bytes.length + 1).toUInt64
                phase := .translating (bytes.length + 1) } := rfl
          rw [hRead]
          refine ⟨⟨framed.mode_eq, ?_, ?_, orderly⟩, past, _, _, rfl, readyPast, followsPast,
            hOutput, List.take_left' rfl, List.cons_ne_nil _ _⟩
          · simp only [List.length_append, List.length_cons, List.length_drop, hLimit]
            omega
          · simp [Tally.addRead, Event.ofRead, Event.delivered, framed.chunksRead_eq, hChunks]

/-- A chunk is translated, and its output is owed. -/
theorem Sound.translate {count : Nat} (sound : t.Sound settings log)
    (hPhase : t.phase = .translating count) : (t.translate count).Sound settings log := by
  obtain ⟨framed, agrees⟩ := sound
  simp only [Agrees, hPhase] at agrees
  obtain ⟨past, limit, chunk, rfl, ready, follows, hOutput, hTake, hChunk⟩ := agrees
  have hEnd := Event.isEnd_received limit hChunk
  have hEnded : Log.ended (past ++ [.received limit chunk]) = false := by
    rw [Log.ended_append, ready.not_ended, Log.ended_singleton, hEnd]
    rfl
  have owing : Log.Owing settings.mode (past ++ [.received limit chunk])
      (t.codec.chunk #[] chunk).output.toList := by
    apply ready.owing
    · rw [← framed.mode_eq]
      exact follows.ideal_chunk ready.not_ended hChunk limit
    · simp [Log.due, Event.delivered, hChunk, hEnded, ready.not_ended]
  have hCount (output : Array UInt8) : (t.count output).chunksRead = t.tally.chunksRead := by
    unfold Transfer.count
    split <;> rfl
  unfold Transfer.translate
  -- Only here it matters that the output was emptied and that the chunk stands
  -- in front of what the buffer still holds of longer reads.
  rw [hOutput, hTake]
  refine ⟨⟨(Codec.mode_chunk ..).trans framed.mode_eq, framed.length_buffer,
    (hCount _).trans framed.chunksRead_eq, framed.orderly⟩, owing, ?_⟩
  cases hFault : (t.codec.chunk #[] chunk).fault with
  | none => exact ⟨hEnded, follows.chunk hFault limit⟩
  | some error =>
      obtain ⟨hMode, hError⟩ := follows.fault_chunk hFault
      rw [framed.mode_eq] at hMode
      refine ⟨hMode, hEnded, [], ⟨?_, past, limit, chunk, rfl, ?_⟩, by simp⟩
      · simpa [Event.delivered] using hError
      · rw [← hMode]
        exact ready

/-- The output is written, or writing it fails. -/
theorem Sound.onWritten {next : Next} {answer : Except ChannelError Unit}
    (sound : t.Sound settings log) (hPhase : t.phase = .writing next)
    (offers : Channel.Offers t.output.toList calls answer) :
    (t.onWritten next answer).Sound settings (log ++ calls) := by
  obtain ⟨framed, agrees⟩ := sound
  simp only [Agrees, hPhase] at agrees
  obtain ⟨owing, hNext⟩ := agrees
  have framed : t.Framed settings (log ++ calls) := by
    refine ⟨framed.mode_eq, framed.length_buffer, ?_, offers.orderly owing framed.orderly⟩
    rw [framed.chunksRead_eq, Log.chunks_append, Log.chunks_eq_zero offers.isWrite, Nat.add_zero]
  cases answer with
  | error error => exact framed.stop (offers.failed_last owing rfl)
  | ok =>
      exact ⟨⟨framed.mode_eq, framed.length_buffer, framed.chunksRead_eq, framed.orderly⟩,
        offers.owing owing rfl, hNext.append_writes offers.isWrite⟩

/-- The output is flushed, and the transfer goes on as it was going to. -/
theorem Sound.onFlushed {next : Next} (sound : t.Sound settings log)
    (hPhase : t.phase = .flushing next) (answer : Except ChannelError Unit) :
    (t.onFlushed next answer).Sound settings (log ++ [Event.ofFlush answer]) := by
  obtain ⟨framed, agrees⟩ := sound
  simp only [Agrees, hPhase] at agrees
  obtain ⟨owing, hNext⟩ := agrees
  have permitted : log.Permitted settings.mode settings.chunkSize (Event.ofFlush answer) := by
    cases answer with
    | ok => exact owing
    | error error => exact owing
  have hDelivered : (Event.ofFlush answer).delivered = [] := by
    cases answer with
    | ok => rfl
    | error error => rfl
  have framed (output : Array UInt8) (phase : Phase) :
      { t with output, phase }.Framed settings (log ++ [Event.ofFlush answer]) := by
    refine ⟨framed.mode_eq, framed.length_buffer, ?_,
      Log.orderly_concat.mpr ⟨framed.orderly, permitted⟩⟩
    simp [framed.chunksRead_eq, hDelivered]
  cases answer with
  -- An interrupted flush is no exception: it is not made again.
  | error error => exact (framed t.output t.phase).stop ⟨log, _, rfl, owing.calm, rfl⟩
  | ok =>
      have settled := owing.flushed
      have hSame : Log.delivered (log ++ [.flushed]) = log.delivered := by simp [Event.delivered]
      have hEnded : Log.ended (log ++ [.flushed]) = log.ended := by simp [Event.isEnd]
      cases next with
      | read =>
          obtain ⟨hOpen, follows⟩ := hNext
          have follows := follows.congr hSame
          have ready : Log.Ready settings.mode (log ++ [.flushed]) :=
            ⟨settled, hEnded.trans hOpen, fun hMode =>
              follows.not_malformed ((framed #[] .reading).mode_eq.trans hMode)⟩
          exact ⟨framed #[] .reading, ready, follows, rfl⟩
      | fail error =>
          obtain ⟨hMode, hOpen, since, ⟨hFault, past, limit, chunk, rfl, ready⟩, hWrites⟩ := hNext
          apply Sound.note
          refine ⟨framed #[] (.stopped (.codec error)), hMode, hEnded.trans hOpen, settled, since,
            ⟨?_, past, limit, chunk, by simp [Event.ofFlush], ready⟩, hWrites⟩
          rw [Event.ofFlush, hSame]
          exact hFault
      | close =>
          obtain ⟨hMode, hClosed⟩ := hNext
          refine ⟨framed #[] .closing, settled, hEnded.trans hClosed, ?_⟩
          rw [hMode]
          intro hDecode
          cases hDecode

/-- The time is taken, and nothing else happens. -/
theorem Sound.close (sound : t.Sound settings log) (hPhase : t.phase = .closing) (now : Duration) :
    (t.close now).Sound settings log := by
  obtain ⟨framed, agrees⟩ := sound
  simp only [Agrees, hPhase] at agrees
  apply Sound.note
  exact ⟨⟨framed.mode_eq, framed.length_buffer, framed.chunksRead_eq, framed.orderly⟩, agrees, rfl⟩

/-- A transfer with good settings begins in order, with nothing read and nothing
owed. -/
theorem sound_start (hValid : settings.validate = .ok ()) (now : Duration) :
    (start settings now).Sound settings [] := by
  have ready : Log.Ready settings.mode [] := by
    refine ⟨⟨Log.calm_nil, ?_, ?_⟩, rfl, fun _ => Text.not_badPair_nil⟩
    · cases settings.mode <;> rfl
    · simp [Log.flushes, Log.due, Log.chunks, Log.ended]
  have follows : (Codec.forMode settings.mode).Follows [] := by
    cases settings.mode with
    | encode => rfl
    | decode => exact ⟨rfl, rfl⟩
  unfold start
  rw [hValid]
  apply Sound.note
  exact ⟨⟨Codec.mode_forMode _, List.length_replicate, rfl, Log.orderly_nil _ _⟩, ready, follows,
    rfl⟩

end Transfer

namespace Session

/-- The invariant of a session, from its transfer and its log. -/
def Sound (settings : Settings) (s : Session) : Prop :=
  s.transfer.Sound settings s.channel.log.toList

/-- Every step of a sound session is sound: one case for each phase. -/
theorem Moves.sound {settings : Settings} {s next : Session} (moves : s.Moves next)
    (sound : s.Sound settings) : next.Sound settings := by
  have sound : s.transfer.Sound settings s.channel.log.toList := sound
  cases moves with
  | read began ended clock hPhase =>
      obtain ⟨calls, answer, receives, hAnswer, hLog⟩ := s.channel.readInto_calls s.transfer.buffer
      rw [Session.Sound, hAnswer, hLog]
      exact (sound.charge .read began ended).onRead hPhase receives
  | translate count stage began ended clock hPhase =>
      exact (sound.charge stage began ended).translate hPhase
  | write next began ended clock hPhase =>
      obtain ⟨calls, offers, hLog⟩ := s.channel.writeAll_calls s.transfer.output.toList
      rw [Session.Sound, hLog]
      exact (sound.charge .write began ended).onWritten hPhase offers
  | flush next began ended clock hPhase =>
      rw [Session.Sound, s.channel.flush_call]
      exact (sound.charge .flush began ended).onFlushed hPhase s.channel.flush.1
  | close now clock hPhase => exact sound.close hPhase now
  | rest => exact sound

/-- The invariant holds at every moment of a transfer. -/
theorem sound_iterate {settings : Settings} (hValid : settings.validate = .ok ()) (source : Source)
    (sink : Sink) (clock : Clock) (steps : Nat) :
    (step^[steps] (begin settings { source, sink } clock)).Sound settings := by
  have sound : (begin settings { source, sink } clock).Sound settings :=
    Transfer.sound_start hValid clock.read.1
  exact Function.Iterate.rec (Session.Sound settings) sound
    (fun s sound => s.moves_step.sound sound) steps

end Session

/-- The ways a transfer ends: with its input, at a bad digit, or with a failed
call. -/
inductive Transfer.Outcome (mode : Mode) (t : Transfer) (log : Log) :
    Except Failure Summary → Prop where
  | finished {summary : Summary} (complete : log.Complete mode)
      (hTally : summary.tally = t.tally) : Outcome mode t log (.ok summary)
  | broken {error : InvalidDigit} {writes : Log} (hMode : mode = .decode)
      (hOpen : log.ended = false) (settled : log.Settled mode)
      (hBroken : log.Broken error (writes ++ [.flushed]))
      (hWrites : ∀ call ∈ writes, call.isWrite) : Outcome mode t log (.error (.codec error))
  | failed {error : ChannelError} (hFailed : log.FailedLast error) :
      Outcome mode t log (.error (.channel error))

/-- What a sound transfer has come to when it is over. -/
theorem Transfer.Sound.outcome {settings : Settings} {t : Transfer} {log : Log}
    (sound : t.Sound settings log) {result : Except Failure Summary}
    (hPhase : t.phase = Phase.ofResult result) : t.Outcome settings.mode log result := by
  have agrees := sound.agrees
  unfold Transfer.Agrees at agrees
  rw [hPhase] at agrees
  match result with
  | .ok summary => exact .finished agrees.1 agrees.2
  | .error (.codec error) =>
      obtain ⟨hMode, hOpen, settled, writes, hBroken, hWrites⟩ := agrees
      exact .broken hMode hOpen settled hBroken hWrites
  | .error (.settings error) => exact agrees.elim
  | .error (.channel error) => exact .failed agrees

/-- The invariant holds at the end of every transfer, and tells how it ended. -/
theorem transfer_sound {settings : Settings} (hValid : settings.validate = .ok ())
    {source : Source} {sink : Sink} {clock : Clock} {result : Except Failure Summary}
    {session : Session} (hRun : transfer settings { source, sink } clock = (result, session)) :
    session.Sound settings ∧
      session.transfer.Outcome settings.mode session.channel.log.toList result := by
  obtain ⟨sound, hPhase⟩ := transfer_preserves (motive := fun s => s.Sound settings) hRun
    (Transfer.sound_start hValid clock.read.1) (fun s sound => s.moves_step.sound sound)
  exact ⟨sound, Transfer.Sound.outcome sound hPhase⟩

end HexFilter
