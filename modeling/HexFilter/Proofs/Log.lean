import HexFilter.Channel
import HexFilter.Encoder
import HexFilter.Settings
import HexFilter.Proofs.Decoder

/-! What a log of calls says about a transfer, and when a call is in its place.
A log is read without the machine that wrote it: what came in, what went out,
what should have gone out, and how often the sink was flushed. -/
namespace HexFilter

namespace Event

/-- The error of a call that ends a transfer. Interrupted reads and writes are
made again and end nothing; an interrupted flush does. -/
def failure : Event → Option ChannelError
  | received _ _ => none
  | readFailed _ error => if error.isInterrupted then none else some error
  | wrote _ count => if count = 0 then some .nothingAccepted else none
  | writeFailed _ error => if error.isInterrupted then none else some error
  | flushed => none
  | flushFailed error => some error

def isRead : Event → Bool
  | received _ _ | readFailed _ _ => true
  | _ => false

def isWrite : Event → Bool
  | wrote _ _ | writeFailed _ _ => true
  | _ => false

def isFlush : Event → Bool
  | flushed | flushFailed _ => true
  | _ => false

/-- A read call that got nothing: the input has ended. -/
def isEnd : Event → Bool
  | received _ [] => true
  | _ => false

/-- Bytes come in by read calls alone. -/
theorem delivered_of_isWrite {event : Event} (h : event.isWrite) : event.delivered = [] := by
  cases event with
  | wrote | writeFailed => rfl
  | received | readFailed | flushed | flushFailed => cases h

theorem isEnd_of_isWrite {event : Event} (h : event.isWrite) : event.isEnd = false := by
  cases event with
  | wrote | writeFailed => rfl
  | received | readFailed | flushed | flushFailed => cases h

theorem isFlush_of_isWrite {event : Event} (h : event.isWrite) : event.isFlush = false := by
  cases event with
  | wrote | writeFailed => rfl
  | received | readFailed | flushed | flushFailed => cases h

theorem isEnd_received (limit : Nat) {bytes : List UInt8} (h : bytes ≠ []) :
    (received limit bytes).isEnd = false := by
  cases bytes with
  | nil => exact absurd rfl h
  | cons => rfl

end Event

/-- Calls on a channel, the oldest first. -/
abbrev Log := List Event

namespace Log

def delivered (log : Log) : List UInt8 := log.flatMap Event.delivered

def accepted (log : Log) : List UInt8 := log.flatMap Event.accepted

/-- The number of read calls that got bytes. -/
def chunks (log : Log) : Nat := log.countP fun event => !event.delivered.isEmpty

def flushes (log : Log) : Nat := log.countP Event.isFlush

def ended (log : Log) : Bool := log.any Event.isEnd

/-- What should have come out of the bytes that came in: their text, with the
closing newline once the input has ended, or the bytes that can be read from
them. -/
def ideal (mode : Mode) (log : Log) : List UInt8 :=
  match mode with
  | .encode => hexText log.delivered ++ (if log.ended then [newline] else [])
  | .decode => Text.readable log.delivered

/-- The flushes it takes to bring all of that out: one for every chunk, and one
for the closing newline. -/
def due (mode : Mode) (log : Log) : Nat :=
  log.chunks + (if mode = .encode ∧ log.ended then 1 else 0)

/-- No call has ended the transfer. -/
def Calm (log : Log) : Prop := ∀ event ∈ log, event.failure = none

/-- All is out that should be, and flushed. -/
structure Settled (mode : Mode) (log : Log) : Prop where
  calm : log.Calm
  accepted_eq : log.accepted = log.ideal mode
  flushes_eq : log.flushes = log.due mode

/-- It is time for a read call. -/
structure Ready (mode : Mode) (log : Log) : Prop extends Settled mode log where
  not_ended : log.ended = false
  not_malformed : mode = .decode → ¬ Text.Malformed log.delivered

/-- This much is still to be written, and then one flush is to be made. -/
structure Owing (mode : Mode) (log : Log) (data : List UInt8) : Prop where
  calm : log.Calm
  accepted_append : log.accepted ++ data = log.ideal mode
  flushes_succ : log.flushes + 1 = log.due mode

/-- A call is in its place. Reads come when all is out, writes offer exactly
what is missing, and flushes come when nothing is missing any more. -/
def Permitted (mode : Mode) (limit : Nat) (past : Log) : Event → Prop
  | .received asked bytes => past.Ready mode ∧ asked = limit ∧ bytes.length ≤ limit
  | .readFailed asked _ => past.Ready mode ∧ asked = limit
  | .wrote data count => past.Owing mode data ∧ data ≠ [] ∧ count ≤ data.length
  | .writeFailed data _ => past.Owing mode data ∧ data ≠ []
  | .flushed => past.Owing mode []
  | .flushFailed _ => past.Owing mode []

/-- Every call is as it should be in view of those before it. -/
def Throughout (should : Log → Event → Prop) (log : Log) : Prop :=
  ∀ past event after, log = past ++ event :: after → should past event

/-- Every call is in its place. -/
def Orderly (mode : Mode) (limit : Nat) (log : Log) : Prop :=
  log.Throughout (Permitted mode limit)

section Append

variable (first second : Log)

@[simp] theorem delivered_append : delivered (first ++ second) =
    delivered first ++ delivered second := List.flatMap_append

@[simp] theorem accepted_append : accepted (first ++ second) =
    accepted first ++ accepted second := List.flatMap_append

@[simp] theorem chunks_append : chunks (first ++ second) = chunks first + chunks second :=
  List.countP_append

@[simp] theorem flushes_append : flushes (first ++ second) = flushes first + flushes second :=
  List.countP_append

@[simp] theorem ended_append : ended (first ++ second) = (ended first || ended second) :=
  List.any_append

theorem calm_append : Calm (first ++ second) ↔ Calm first ∧ Calm second :=
  List.forall_mem_append

end Append

section Singleton

variable (event : Event)

@[simp] theorem delivered_singleton : delivered [event] = event.delivered := by
  simp [delivered]

@[simp] theorem accepted_singleton : accepted [event] = event.accepted := by
  simp [accepted]

@[simp] theorem chunks_singleton :
    chunks [event] = if event.delivered.isEmpty then 0 else 1 := by
  cases h : event.delivered.isEmpty <;> simp [chunks, h]

@[simp] theorem flushes_singleton : flushes [event] = if event.isFlush then 1 else 0 := by
  simp [flushes, List.countP_singleton]

@[simp] theorem ended_singleton : ended [event] = event.isEnd := by
  simp [ended]

@[simp] theorem calm_singleton : Calm [event] ↔ event.failure = none := by
  simp [Calm]

end Singleton

/-- While output is written nothing comes in. -/
theorem delivered_eq_nil {calls : Log} (hWrites : ∀ call ∈ calls, call.isWrite) :
    delivered calls = [] := by
  rw [delivered, List.flatMap_eq_nil_iff]
  intro call hCall
  exact Event.delivered_of_isWrite (hWrites call hCall)

theorem ended_eq_false {calls : Log} (hWrites : ∀ call ∈ calls, call.isWrite) :
    ended calls = false := by
  rw [ended, List.any_eq_false]
  intro call hCall
  rw [Event.isEnd_of_isWrite (hWrites call hCall)]
  exact Bool.false_ne_true

theorem chunks_eq_zero {calls : Log} (hWrites : ∀ call ∈ calls, call.isWrite) :
    chunks calls = 0 := by
  rw [chunks, List.countP_eq_zero]
  intro call hCall
  simp [Event.delivered_of_isWrite (hWrites call hCall)]

theorem calm_nil : Calm [] := by
  intro event hEvent
  cases hEvent

theorem Calm.concat {log : Log} {event : Event} (calm : Calm log) (hNone : event.failure = none) :
    Calm (log ++ [event]) :=
  (calm_append _ _).mpr ⟨calm, (calm_singleton event).mpr hNone⟩

/-- A single call that failed for good takes the calm away. -/
theorem not_calm_of_failure {log : Log} {event : Event} {error : ChannelError} (hMem : event ∈ log)
    (hFailure : event.failure = some error) : ¬ Calm log := by
  intro calm
  have hNone := calm event hMem
  rw [hFailure] at hNone
  cases hNone

section Throughout

variable {should : Log → Event → Prop} {log : Log}

theorem throughout_nil : Throughout should [] := by
  intro past event after h
  simp at h

/-- What holds of every call, given the calls before it, is extended call by call. -/
theorem throughout_concat {event : Event} :
    Throughout should (log ++ [event]) ↔ Throughout should log ∧ should log event := by
  constructor
  · intro all
    refine ⟨?_, all log event [] rfl⟩
    intro past other after h
    exact all past other (after ++ [event]) (by simp [h])
  · rintro ⟨all, last⟩ past other after h
    rcases List.eq_nil_or_concat after with rfl | ⟨after, final, rfl⟩
    · obtain ⟨rfl, hEvent⟩ := List.append_inj' h rfl
      cases hEvent
      exact last
    · rw [List.concat_eq_append, ← List.cons_append, ← List.append_assoc] at h
      exact all past other after (List.append_inj' h rfl).1

/-- Calls that are as they should be whatever was before may be added. -/
theorem Throughout.append (all : Throughout should log) {calls : Log}
    (hCalls : ∀ past, ∀ call ∈ calls, should past call) : Throughout should (log ++ calls) := by
  induction calls generalizing log with
  | nil => rwa [List.append_nil]
  | cons call calls ih =>
      rw [List.append_cons]
      refine ih (throughout_concat.mpr ⟨all, hCalls log call List.mem_cons_self⟩) ?_
      exact fun past other hOther => hCalls past other (List.mem_cons_of_mem _ hOther)

end Throughout

theorem orderly_nil (mode : Mode) (limit : Nat) : Orderly mode limit [] := throughout_nil

variable {mode : Mode} {limit : Nat} {log : Log}

theorem orderly_concat {event : Event} :
    Orderly mode limit (log ++ [event]) ↔
      Orderly mode limit log ∧ Permitted mode limit log event :=
  throughout_concat

/-- Every beginning of an orderly log is orderly. -/
theorem Orderly.of_append {after : Log} (orderly : Orderly mode limit (log ++ after)) :
    Orderly mode limit log := by
  intro past event later h
  exact orderly past event (later ++ after) (by simp [h])

/-- A call that brings nothing in calls for no further output. -/
theorem ideal_concat {event : Event} (hDelivered : event.delivered = [])
    (hEnd : event.isEnd = false) : ideal mode (log ++ [event]) = ideal mode log := by
  cases mode <;> simp [ideal, hDelivered, hEnd]

theorem due_concat {event : Event} (hDelivered : event.delivered = [])
    (hEnd : event.isEnd = false) : due mode (log ++ [event]) = due mode log := by
  simp [due, hDelivered, hEnd]

/-- While the input goes on, every chunk takes one flush. -/
theorem Ready.flushes_eq_chunks (ready : Ready mode log) : log.flushes = log.chunks := by
  simp [ready.flushes_eq, due, ready.not_ended]

/-- In the midst of an encoding there is no closing newline. -/
theorem Ready.accepted_eq_hexText (ready : Ready mode log) (hMode : mode = .encode) :
    log.accepted = hexText log.delivered := by
  rw [ready.accepted_eq, hMode]
  simp [ideal, ready.not_ended]

/-- An interrupted read call leaves all as it was before: the call is made again. -/
theorem Ready.interrupted {error : ChannelError} (ready : Ready mode log)
    (hInterrupted : error.isInterrupted) : Ready mode (log ++ [.readFailed limit error]) where
  calm := ready.calm.concat (by simp [Event.failure, hInterrupted])
  accepted_eq := by
    rw [ideal_concat rfl rfl, ← ready.accepted_eq]
    simp [Event.accepted]
  flushes_eq := by
    rw [due_concat rfl rfl, ← ready.flushes_eq]
    simp [Event.isFlush]
  not_ended := by simp [ready.not_ended, Event.isEnd]
  not_malformed := by simpa [Event.delivered] using ready.not_malformed

/-- What a read adds to the ideal output is owed then. -/
theorem Ready.owing {bytes data : List UInt8} (ready : Ready mode log)
    (hIdeal : ideal mode (log ++ [.received limit bytes]) = ideal mode log ++ data)
    (hDue : due mode (log ++ [.received limit bytes]) = due mode log + 1) :
    Owing mode (log ++ [.received limit bytes]) data where
  calm := ready.calm.concat rfl
  accepted_append := by
    rw [hIdeal, ← ready.accepted_eq]
    simp [Event.accepted]
  flushes_succ := by
    rw [hDue, ← ready.flushes_eq]
    simp [Event.isFlush]

/-- Decoding has nothing to add when the input ends. -/
theorem Ready.received_end (ready : Ready .decode log) :
    Settled .decode (log ++ [.received limit []]) where
  calm := ready.calm.concat rfl
  accepted_eq := by
    rw [accepted_append, ready.accepted_eq]
    simp [ideal, Event.accepted, Event.delivered]
  flushes_eq := by
    rw [flushes_append, ready.flushes_eq]
    simp [due, Event.isFlush, Event.delivered]

/-- A write call that did not fail leaves owed what it did not take. -/
theorem Owing.concat {event : Event} {left : List UInt8}
    (owing : Owing mode log (event.accepted ++ left)) (hWrite : event.isWrite)
    (hNone : event.failure = none) : Owing mode (log ++ [event]) left := by
  have hDelivered := Event.delivered_of_isWrite hWrite
  have hEnd := Event.isEnd_of_isWrite hWrite
  refine ⟨owing.calm.concat hNone, ?_, ?_⟩
  · rw [ideal_concat hDelivered hEnd, ← owing.accepted_append]
    simp
  · rw [due_concat hDelivered hEnd, ← owing.flushes_succ]
    simp [Event.isFlush_of_isWrite hWrite]

/-- What a write call has taken is no longer owed. -/
theorem Owing.took {data : List UInt8} {count : Nat} (owing : Owing mode log data)
    (hCount : 0 < count) : Owing mode (log ++ [.wrote data count]) (data.drop count) := by
  have hData : (Event.wrote data count).accepted ++ data.drop count = data :=
    List.take_append_drop count data
  rw [← hData] at owing
  exact owing.concat rfl (if_neg (Nat.ne_of_gt hCount))

/-- After an interrupted write call as much is owed as before. -/
theorem Owing.retried {data : List UInt8} {error : ChannelError} (owing : Owing mode log data)
    (hInterrupted : error.isInterrupted) : Owing mode (log ++ [.writeFailed data error]) data :=
  owing.concat rfl (by simp [Event.failure, hInterrupted])

/-- A flush settles the account once nothing is owed any more. -/
theorem Owing.flushed (owing : Owing mode log []) : Settled mode (log ++ [.flushed]) where
  calm := owing.calm.concat rfl
  accepted_eq := by
    rw [ideal_concat rfl rfl, ← owing.accepted_append]
    simp [Event.accepted]
  flushes_eq := by
    rw [due_concat rfl rfl, ← owing.flushes_succ]
    simp [Event.isFlush]

end Log

end HexFilter
