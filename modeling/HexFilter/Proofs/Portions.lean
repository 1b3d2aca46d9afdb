import HexFilter.Proofs.Accounts

/-! The portions in which the input reaches the codec, against the reads that
brought them. Every read fills the same buffer from its front, so a portion has
to be what its own read got and nothing of a longer one before it. How many
there are lies between what full reads and reads of single bytes would make. -/
namespace HexFilter

/-- A read call that got less than it asked for. -/
def Event.isShort : Event → Bool
  | received limit bytes => bytes.length < limit
  | _ => false

namespace Log

/-- What the read calls that got bytes got, call by call. -/
def portions (log : Log) : List (List UInt8) :=
  (log.map Event.delivered).filter fun bytes => !bytes.isEmpty

/-- Every read call was answered in full as long as there were bytes to come. -/
def Filled : Log → Prop
  | [] => True
  | event :: later => (event.isShort → Log.delivered later = []) ∧ Filled later

instance decidableFilled : (log : Log) → Decidable log.Filled
  | [] => isTrue trivial
  | event :: later =>
      have := decidableFilled later
      inferInstanceAs (Decidable ((event.isShort → Log.delivered later = []) ∧ Filled later))

theorem portions_append (first second : Log) :
    portions (first ++ second) = portions first ++ portions second := by
  simp [portions]

/-- Calls that bring no bytes bring no portion. -/
theorem portions_eq_nil {calls : Log} (hDelivered : ∀ call ∈ calls, call.delivered = []) :
    portions calls = [] := by
  rw [portions, List.filter_eq_nil_iff]
  intro bytes hBytes
  obtain ⟨call, hCall, rfl⟩ := List.mem_map.mp hBytes
  simp [hDelivered call hCall]

theorem portions_received (limit : Nat) {bytes : List UInt8} (hBytes : bytes ≠ []) :
    portions [.received limit bytes] = [bytes] := by
  simp [portions, Event.delivered, hBytes]

/-- There are as many portions as chunks were read. -/
theorem length_portions (log : Log) : log.portions.length = log.chunks := by
  rw [portions, chunks, ← List.countP_eq_length_filter, List.countP_map]
  rfl

/-- Put together the portions are what was delivered. -/
theorem flatten_portions (log : Log) : log.portions.flatten = log.delivered := by
  rw [portions, List.flatten_filter_not_isEmpty, delivered, List.flatMap_def]

/-- Every portion is what one read call got, and is not empty. -/
theorem exists_of_mem_portions {log : Log} {portion : List UInt8} (h : portion ∈ log.portions) :
    portion ≠ [] ∧ ∃ limit, .received limit portion ∈ log := by
  obtain ⟨hMem, hNonempty⟩ := List.mem_filter.mp h
  obtain ⟨event, hEvent, rfl⟩ := List.mem_map.mp hMem
  refine ⟨by simpa using hNonempty, ?_⟩
  cases event with
  | received limit bytes => exact ⟨limit, hEvent⟩
  | readFailed | wrote | writeFailed | flushed | flushFailed => simp [Event.delivered] at hNonempty

variable {mode : Mode} {size : Nat} {log : Log}

/-- Every read call asks for what the buffer holds, and gets no more. -/
theorem Orderly.received_le (orderly : log.Orderly mode size) {limit : Nat} {bytes : List UInt8}
    (hMem : .received limit bytes ∈ log) : limit = size ∧ bytes.length ≤ size := by
  obtain ⟨past, after, hLog⟩ := List.append_of_mem hMem
  exact (orderly past _ after hLog).2

section Bounds

variable (hReads : ∀ limit bytes, .received limit bytes ∈ log → limit = size ∧ bytes.length ≤ size)

include hReads

/-- As many full reads as there are chunks would have got at least as much. -/
theorem length_delivered_le : log.delivered.length ≤ log.chunks * size := by
  induction log with
  | nil => exact Nat.zero_le _
  | cons event later ih =>
      have hOne : event.delivered.length ≤ chunks [event] * size := by
        rw [chunks_singleton]
        cases event with
        | received limit bytes =>
            have hLe := (hReads limit bytes List.mem_cons_self).2
            cases bytes with
            | nil => exact Nat.zero_le _
            | cons => simpa [Event.delivered] using hLe
        | readFailed | wrote | writeFailed | flushed | flushFailed => exact Nat.zero_le _
      have hLater := ih fun limit bytes hMem => hReads limit bytes (List.mem_cons_of_mem _ hMem)
      rw [← List.singleton_append, chunks_append, delivered_append, List.length_append,
        delivered_singleton, Nat.add_mul]
      exact Nat.add_le_add hOne hLater

/-- No fewer chunks are read than full buffers would take. -/
theorem ceil_le_chunks (hSize : 1 ≤ size) :
    (log.delivered.length + size - 1) / size ≤ log.chunks := by
  have hLength := length_delivered_le hReads
  rw [← Nat.lt_add_one_iff, Nat.div_lt_iff_lt_mul hSize, Nat.add_mul]
  omega

/-- Of reads that get all they ask for as long as there is something left, only the
last one gets less. -/
theorem Filled.chunks_mul_lt (filled : log.Filled) (hSize : 1 ≤ size) :
    log.chunks * size < log.delivered.length + size := by
  induction log with
  | nil => simpa [chunks] using Nat.lt_add_left _ hSize
  | cons event later ih =>
      obtain ⟨hShort, filled⟩ := filled
      have hLater := ih (fun limit bytes hMem => hReads limit bytes (List.mem_cons_of_mem _ hMem))
        filled
      rw [← List.singleton_append, chunks_append, delivered_append, List.length_append,
        delivered_singleton, chunks_singleton, Nat.add_mul]
      cases hBytes : event.delivered with
      | nil => simpa using hLater
      | cons byte bytes =>
          obtain ⟨limit, rfl⟩ : ∃ limit, event = .received limit (byte :: bytes) := by
            cases event with
            | received limit got => exact ⟨limit, congrArg _ hBytes⟩
            | readFailed | wrote | writeFailed | flushed | flushFailed => cases hBytes
          have hLe := hReads limit _ List.mem_cons_self
          have hLength : (byte :: bytes).length = bytes.length + 1 := rfl
          rw [List.isEmpty_cons, if_neg Bool.false_ne_true, Nat.one_mul]
          by_cases hFull : (byte :: bytes).length = size
          · omega
          · have hNothing : Log.delivered later = [] := by
              refine hShort ?_
              simp only [Event.isShort, decide_eq_true_eq]
              omega
            have hNone := chunks_le_length later
            rw [hNothing, List.length_nil, Nat.le_zero] at hNone
            rw [hNone]
            omega

/-- Where every read but the last fills the buffer, no more chunks are read than it
takes. -/
theorem Filled.chunks_eq (filled : log.Filled) (hSize : 1 ≤ size) :
    log.chunks = (log.delivered.length + size - 1) / size := by
  refine Nat.le_antisymm ?_ (ceil_le_chunks hReads hSize)
  have hLess := filled.chunks_mul_lt hReads hSize
  rw [Nat.le_div_iff_mul_le hSize]
  omega

end Bounds

end Log

namespace Channel

/-- The calls of one read bring its answer as a portion, unless it is empty. -/
theorem Receives.portions_of_ok {limit : Nat} {calls : Log} {bytes : List UInt8}
    (receives : Receives limit calls (.ok bytes)) :
    calls.portions = Log.portions [.received limit bytes] := by
  generalize hAnswer : Except.ok bytes = answer at receives
  induction receives with
  | retried _ _ ih => exact ih hAnswer
  | got =>
      cases hAnswer
      rfl
  | failed => cases hAnswer

theorem Receives.portions_of_error {limit : Nat} {calls : Log} {error : ChannelError}
    (receives : Receives limit calls (.error error)) : calls.portions = [] := by
  generalize hAnswer : Except.error error = answer at receives
  induction receives with
  | retried _ _ ih => exact ih hAnswer
  | got => cases hAnswer
  | failed => rfl

end Channel

/-- The portion that waits to be translated. -/
def Transfer.inHand (t : Transfer) : List (List UInt8) :=
  match t.phase with
  | .translating count => [t.buffer.take count]
  | _ => []

namespace Transfer

variable (t : Transfer)

@[simp] theorem inHand_note (notice : Notice) : (t.note notice).inHand = t.inHand := by
  unfold note
  split <;> rfl

@[simp] theorem inHand_stop (failure : Failure) : (t.stop failure).inHand = [] := by
  simp [stop, inHand]

/-- After the end of the input nothing waits to be translated. -/
theorem inHand_endInput : t.endInput.inHand = [] := by
  unfold endInput
  cases t.codec with
  | encoder e => rfl
  | decoder d =>
      dsimp only
      split
      · rfl
      · rw [inHand_note]
        rfl

/-- Whatever stood in the buffer before a read, the bytes in hand after it are the
ones that it got. -/
theorem inHand_onRead (answer : Except ChannelError (List UInt8)) :
    (t.onRead (answer.map (Channel.fill t.buffer))).inHand =
      match answer with
      | .ok bytes => Log.portions [.received t.buffer.length bytes]
      | .error _ => [] := by
  cases answer with
  | error error => exact t.inHand_stop _
  | ok bytes =>
      cases bytes with
      | nil => exact inHand_endInput _
      | cons byte bytes =>
          have hHand :
              (t.onRead (Except.map (Channel.fill t.buffer) (.ok (byte :: bytes)))).inHand =
                [(byte :: bytes ++ t.buffer.drop (bytes.length + 1)).take (bytes.length + 1)] := rfl
          have hFront :
              (byte :: bytes ++ t.buffer.drop (bytes.length + 1)).take (bytes.length + 1) =
                byte :: bytes := List.take_left' rfl
          rw [hHand, hFront]
          exact (Log.portions_received _ (List.cons_ne_nil _ _)).symm

theorem inHand_translate (count : Nat) : (t.translate count).inHand = [] := rfl

theorem inHand_onWritten (next : Next) (answer : Except ChannelError Unit) :
    (t.onWritten next answer).inHand = [] := by
  cases answer with
  | error error => exact t.inHand_stop _
  | ok => rfl

theorem inHand_onFlushed (next : Next) (answer : Except ChannelError Unit) :
    (t.onFlushed next answer).inHand = [] := by
  cases answer with
  | error error => exact t.inHand_stop _
  | ok =>
      cases next with
      | read | close => rfl
      | fail error => exact inHand_stop _ _

theorem inHand_close (now : Duration) : (t.close now).inHand = [] := by
  rw [close, inHand_note]
  rfl

end Transfer

namespace Session

/-- The portions that the codec is given from here to the end of a run. -/
def portions (s : Session) : List (List UInt8) :=
  match _hPhase : s.transfer.phase with
  | .finished _ | .stopped _ => []
  | .translating count => s.transfer.buffer.take count :: s.step.portions
  | .reading | .writing _ | .flushing _ | .closing => s.step.portions
termination_by s.work
decreasing_by
  all_goals exact work_step_lt s (by simp [_hPhase]) (by simp [_hPhase])

/-- What a step reads it has in hand. -/
theorem Moves.portions_log {s next : Session} (moves : s.Moves next)
    (hEmpty : s.transfer.inHand = []) :
    Log.portions next.channel.log.toList =
      Log.portions s.channel.log.toList ++ next.transfer.inHand := by
  cases moves with
  | read began ended clock hPhase =>
      obtain ⟨calls, answer, receives, hAnswer, hLog⟩ := s.channel.readInto_calls s.transfer.buffer
      have hHand := (s.transfer.charge .read began ended).inHand_onRead answer
      rw [hLog, Log.portions_append, hAnswer]
      refine congrArg _ (Eq.trans ?_ hHand.symm)
      cases answer with
      | ok bytes => exact receives.portions_of_ok
      | error error => exact receives.portions_of_error
  | translate count stage began ended clock hPhase =>
      simp [Transfer.inHand, hPhase] at hEmpty
  | write next began ended clock hPhase =>
      obtain ⟨calls, offers, hLog⟩ := s.channel.writeAll_calls s.transfer.output.toList
      have hNothing : calls.portions = [] := Log.portions_eq_nil fun call hCall =>
        Event.delivered_of_isWrite (offers.isWrite call hCall)
      rw [hLog, Log.portions_append, Transfer.inHand_onWritten, hNothing]
  | flush next began ended clock hPhase =>
      rw [s.channel.flush_call, Log.portions_append, Transfer.inHand_onFlushed]
      cases s.channel.flush.1 <;> rfl
  | close now clock hPhase => rw [Transfer.inHand_close, List.append_nil]
  | rest => rw [hEmpty, List.append_nil]

/-- The run passes on to the codec what is in hand and what it reads from here on,
read by read. -/
theorem portions_run (s : Session) (before : List (List UInt8))
    (hBefore : Log.portions s.channel.log.toList = before ++ s.transfer.inHand) :
    Log.portions s.run.2.channel.log.toList = before ++ s.portions := by
  have reads {s : Session} {before : List (List UInt8)} (hEmpty : s.transfer.inHand = [])
      (hBefore : Log.portions s.channel.log.toList = before ++ s.transfer.inHand) :
      Log.portions s.step.channel.log.toList = before ++ s.step.transfer.inHand := by
    rw [s.moves_step.portions_log hEmpty, hBefore, hEmpty, List.append_nil]
  fun_induction portions s generalizing before with
  | case1 s summary hPhase =>
      have hOver : s.transfer.phase = Phase.ofResult (.ok summary) := hPhase
      rw [run_of_over hOver, hBefore]
      simp [Transfer.inHand, hPhase]
  | case2 s failure hPhase =>
      have hOver : s.transfer.phase = Phase.ofResult (.error failure) := hPhase
      rw [run_of_over hOver, hBefore]
      simp [Transfer.inHand, hPhase]
  | case3 s count hPhase ih =>
      have hHand : s.transfer.inHand = [s.transfer.buffer.take count] := by
        simp [Transfer.inHand, hPhase]
      have hSame : s.step.channel = s.channel := by rw [step_of_translating hPhase]
      have hEmpty : s.step.transfer.inHand = [] := by
        rw [step_of_translating hPhase]
        exact Transfer.inHand_translate _ _
      rw [← run_step, List.append_cons]
      refine ih _ ?_
      rw [hSame, hBefore, hHand, hEmpty, List.append_nil]
  | case4 s hPhase ih | case5 s next hPhase ih | case6 s next hPhase ih | case7 s hPhase ih =>
      rw [← run_step]
      exact ih _ (reads (by simp [Transfer.inHand, hPhase]) hBefore)

/-- What the codec is given is what the last read got. -/
theorem Sound.step_translating {settings : Settings} {s : Session} (sound : s.Sound settings)
    {count : Nat} (hPhase : s.transfer.phase = .translating count) :
    ∃ past limit portion, s.channel.log.toList = past ++ [.received limit portion] ∧
      s.step.transfer.codec = (s.transfer.codec.chunk #[] portion).codec ∧
      s.step.transfer.output = (s.transfer.codec.chunk #[] portion).output := by
  have agrees := Transfer.Sound.agrees sound
  simp only [Transfer.Agrees, hPhase] at agrees
  obtain ⟨past, limit, portion, hLog, _, _, hOutput, hTake, _⟩ := agrees
  refine ⟨past, limit, portion, hLog, ?_⟩
  rw [step_of_translating hPhase, ← hTake, ← hOutput]
  exact ⟨rfl, rfl⟩

end Session

/-- A transfer gives the codec what was read, and nothing is in hand before the first
read. -/
theorem transfer_portions {settings : Settings} {channel : Channel} {clock : Clock}
    {result : Except Failure Summary} {session : Session} (hNew : channel.log = #[])
    (hRun : transfer settings channel clock = (result, session)) :
    (Session.begin settings channel clock).portions =
      Log.portions session.channel.log.toList := by
  have hEmpty : (Session.begin settings channel clock).transfer.inHand = [] := by
    simp only [Session.begin, Transfer.start]
    cases settings.validate with
    | error error => rfl
    | ok => exact Transfer.inHand_note _ _
  have hNothing : Log.portions (Session.begin settings channel clock).channel.log.toList = [] := by
    simp [Session.begin, hNew, Log.portions]
  have hAll := Session.portions_run (Session.begin settings channel clock) []
    (by rw [hNothing, hEmpty, List.append_nil])
  rw [← transfer, hRun] at hAll
  exact hAll.symm

/-- The codec is given the input portion by portion, each one just what its read got:
no empty one, none that is longer than the buffer, and nothing that an earlier
read left in the buffer. Their number is counted, and it is that of full reads if
every read gets all it asks for as long as there is something left. -/
theorem portions_cover_delivered (settings : Settings) (hValid : settings.validate = .ok ())
    (source : Source) (sink : Sink) (clock : Clock) :
    let start := Session.begin settings { source, sink } clock
    let (result, session) := transfer settings { source, sink } clock
    let log : Log := session.channel.log.toList
    let size := settings.chunkSize
    let length := log.delivered.length
    (start.portions = log.portions ∧ start.portions.flatten = log.delivered ∧
      ∀ portion ∈ start.portions, portion ≠ [] ∧ portion.length ≤ size) ∧
    (∀ steps count, let s := Session.step^[steps] start
      s.transfer.phase = .translating count →
        ∃ past limit portion, s.channel.log.toList = past ++ [.received limit portion] ∧
          s.step.transfer.codec = (s.transfer.codec.chunk #[] portion).codec ∧
          s.step.transfer.output = (s.transfer.codec.chunk #[] portion).output) ∧
    (∀ summary, result = .ok summary →
      summary.tally.chunksRead = start.portions.length.toUInt64 ∧
      (start.portions.length < UInt64.size →
        summary.tally.chunksRead.toNat = start.portions.length) ∧
      (length + size - 1) / size ≤ start.portions.length ∧ start.portions.length ≤ length ∧
      (log.Filled → start.portions.length = (length + size - 1) / size)) := by
  rcases hRun : transfer settings { source, sink } clock with ⟨result, session⟩
  obtain ⟨sound, outcome⟩ := transfer_sound hValid hRun
  have hSize : 1 ≤ settings.chunkSize := (Settings.validate_eq_ok_iff.mp hValid).1
  have hPortions := transfer_portions rfl hRun
  have hReads (limit : Nat) (bytes : List UInt8)
      (hMem : .received limit bytes ∈ session.channel.log.toList) :
      limit = settings.chunkSize ∧ bytes.length ≤ settings.chunkSize :=
    sound.orderly.received_le hMem
  have hChunks := Log.chunks_le_length session.channel.log.toList
  dsimp only
  rw [hPortions, Log.length_portions]
  refine ⟨⟨rfl, Log.flatten_portions _, ?_⟩, ?_, ?_⟩
  · intro portion hPortion
    obtain ⟨hNonempty, limit, hMem⟩ := Log.exists_of_mem_portions hPortion
    exact ⟨hNonempty, (hReads limit portion hMem).2⟩
  · intro steps count hPhase
    exact (Session.sound_iterate hValid source sink clock steps).step_translating hPhase
  · rintro summary rfl
    obtain @⟨_, complete, hTally⟩ := outcome
    have hCount : summary.tally.chunksRead = (Log.chunks session.channel.log.toList).toUInt64 := by
      rw [hTally, sound.chunksRead_eq]
    refine ⟨hCount, ?_, Log.ceil_le_chunks hReads hSize, hChunks, ?_⟩
    · intro hWord
      rw [hCount]
      exact UInt64.toNat_ofNat_of_lt' hWord
    · intro filled
      exact filled.chunks_eq hReads hSize

/-- Behind a full read the buffer still holds two of its bytes when the last read
gets one. -/
theorem portions_cover_delivered_shorter :
    let settings : Settings := { mode := .encode, chunkSize := 3 }
    let source : Source := [.data [1, 2, 3] none, .fail ⟨.interrupted, none⟩, .data [4] none]
    let (result, session) := transfer settings { source } {}
    let log : Log := session.channel.log.toList
    settings.validate = .ok () ∧ log.Filled ∧
      (Session.begin settings { source } {}).portions = [[1, 2, 3], [4]] ∧
      log.delivered.length = 4 ∧
      ∃ summary, result = .ok summary ∧ summary.tally.chunksRead.toNat = 2 := by
  intro settings source
  have hValid : settings.validate = .ok () := by decide
  have h := portions_cover_delivered settings hValid source {} {}
  have hLog : (transfer settings { source } {}).2.channel.log.toList =
      [.received 3 [1, 2, 3], .wrote [48, 49, 48, 50, 48, 51] 6, .flushed,
        .readFailed 3 ⟨.interrupted, none⟩, .received 3 [4], .wrote [48, 52] 2, .flushed,
        .received 3 [], .wrote [10] 1, .flushed] := by decide +kernel
  have hOk : (transfer settings { source } {}).1.isOk := by decide +kernel
  rcases hRun : transfer settings { source } {} with ⟨result, session⟩
  rw [hRun] at h hLog hOk
  obtain ⟨⟨hPortions, _⟩, _, hCounts⟩ := h
  cases result with
  | error failure => cases hOk
  | ok summary =>
      obtain ⟨_, hNat, _, _, hFilled⟩ := hCounts summary rfl
      have filled : Log.Filled session.channel.log.toList := by
        rw [hLog]
        decide
      have hLength : (Log.delivered session.channel.log.toList).length = 4 := by
        rw [hLog]
        decide
      have hBoth : (Session.begin settings { source } {}).portions = [[1, 2, 3], [4]] := by
        rw [hPortions, hLog]
        rfl
      refine ⟨hValid, filled, hBoth, hLength, summary, rfl, ?_⟩
      rw [hNat (by rw [hBoth]; decide), hFilled filled, hLength]
      simp [settings]

end HexFilter
