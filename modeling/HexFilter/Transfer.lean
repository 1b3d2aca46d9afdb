import HexFilter.Codec
import HexFilter.Notice

/-! A transfer as a machine that makes no calls itself. Its phase says what is
to be done next; whoever drives it does that, and hands back the answer and the
readings of the clock before and after. The same machine therefore serves a
real process and a scripted channel. Output for a chunk is written and flushed
before the next chunk is asked for, and one chunk at a time is in flight: every
read fills the same buffer from its front, and every chunk is translated into
the same output. -/
namespace HexFilter

/-- The stage in which a chunk is translated. -/
def Stage.ofMode : Mode → Stage
  | .encode => encode
  | .decode => decode

/-- Where a transfer goes on once its present output is out. -/
inductive Next where
  | read
  /-- The chunk held a bad digit, which is reported only now that the bytes
  completed before it are out. -/
  | fail (error : InvalidDigit)
  | close
deriving DecidableEq

/-- What a transfer waits for. -/
inductive Phase where
  | reading
  /-- The first bytes of the buffer are to be translated, this many. -/
  | translating (count : Nat)
  /-- The output is to be written, which takes no call if there is none. -/
  | writing (next : Next)
  | flushing (next : Next)
  /-- All is done, and the time is to be taken. -/
  | closing
  | finished (summary : Summary)
  | stopped (failure : Failure)
deriving DecidableEq

/-- What is still ahead of a transfer after it went on, beyond closing. -/
def Next.detour : Next → Nat
  | .close => 0
  | _ => 3

/-- How far a phase is from the end, if no more input is read. -/
def Phase.distance : Phase → Nat
  | .finished _ => 0
  | .stopped _ => 0
  | .closing => 1
  | .flushing next => 2 + next.detour
  | .writing next => 3 + next.detour
  | .reading => 4
  | .translating _ => 7

/-- The whole state of a transfer. -/
structure Transfer where
  settings : Settings
  codec : Codec
  tally : Tally := {}
  watch : Stopwatch
  /-- What was read last, in front of what is left of longer reads before. -/
  buffer : List UInt8 := []
  /-- What has been translated and is not yet written and flushed. -/
  output : Array UInt8 := #[]
  notices : List Notice := []
  phase : Phase := .reading
deriving DecidableEq

namespace Transfer

def note (t : Transfer) (notice : Notice) : Transfer :=
  if t.settings.trace then { t with notices := t.notices ++ [notice] } else t

/-- All that was reported, with the entries of a timesheet in a given order of the
stages. -/
def reportIn (order : List Stage) (t : Transfer) : String :=
  String.join (t.notices.map (Notice.printedIn order))

def report (t : Transfer) : String := t.reportIn Stage.byName

def stop (t : Transfer) (failure : Failure) : Transfer :=
  { t with phase := .stopped failure }.note (.aborted t.tally.bytesIn failure)

/-- Begin a transfer. Refused settings stop it at once, without a report and
without a buffer. -/
def start (settings : Settings) (now : Duration) : Transfer :=
  let t : Transfer :=
    { settings, codec := Codec.forMode settings.mode, watch := { started := now } }
  match settings.validate with
  | .error error => { t with phase := .stopped (.settings error) }
  | .ok () =>
      { t with buffer := List.replicate settings.chunkSize 0 }.note
        (.started settings.mode settings.chunkSize)

def charge (t : Transfer) (stage : Stage) (began ended : Duration) : Transfer :=
  { t with watch := t.watch.charge stage began ended }

/-- The input has ended. Encoding still owes the closing newline; decoding
drops a half pair without looking at it. -/
def endInput (t : Transfer) : Transfer :=
  match t.codec with
  | .encoder e =>
      let (e, output) := e.finish t.output
      { t with
        codec := .encoder e
        output
        tally := t.tally.addTrailer output.size.toUInt64
        phase := .writing .close }
  | .decoder d =>
      let (last, dropped) := d.finish
      let t := { t with
        codec := .decoder last
        tally := { t.tally with
          newlinesSkipped := d.newlines.toUInt64, danglingNibble := dropped.isSome }
        phase := .closing }
      match dropped with
      | none => t
      | some digit => t.note (.dropped digit)

/-- The answer to reading: how many bytes, and the buffer with them in front. No
bytes are the end of the input. -/
def onRead (t : Transfer) : Except ChannelError (Nat × List UInt8) → Transfer
  | .error error => t.stop (.channel error)
  | .ok (0, buffer) => { t with buffer }.endInput
  | .ok (count + 1, buffer) =>
      { t with
        buffer
        tally := t.tally.addRead (count + 1).toUInt64
        phase := .translating (count + 1) }

def count (t : Transfer) (output : Array UInt8) : Tally :=
  match t.codec.mode with
  | .encode => t.tally.addEncoded output.size.toUInt64
  | .decode => t.tally.addDecoded output.size.toUInt64

/-- Translate a chunk of this many bytes. What came out before a bad digit is
written all the same. -/
def translate (t : Transfer) (count : Nat) : Transfer :=
  let translated := t.codec.chunk t.output (t.buffer.take count)
  let next := match translated.fault with
    | none => Next.read
    | some error => Next.fail error
  { t with
    codec := translated.codec
    output := translated.output
    tally := t.count translated.output
    phase := .writing next }

def onWritten (t : Transfer) (next : Next) : Except ChannelError Unit → Transfer
  | .error error => t.stop (.channel error)
  | .ok () => { t with phase := .flushing next }

/-- The answer to flushing. Only now the output is emptied. -/
def onFlushed (t : Transfer) (next : Next) : Except ChannelError Unit → Transfer
  | .error error => t.stop (.channel error)
  | .ok () =>
      let t := { t with output := #[] }
      match next with
      | .read => { t with phase := .reading }
      | .fail error => t.stop (.codec error)
      | .close => { t with phase := .closing }

def close (t : Transfer) (now : Duration) : Transfer :=
  let watch := t.watch.finish now
  let summary := Summary.of t.settings.mode t.tally watch now
  { t with watch, phase := .finished summary }.note (.done summary)

@[simp] theorem phase_note (t : Transfer) (notice : Notice) : (t.note notice).phase = t.phase := by
  unfold note
  split <;> rfl

@[simp] theorem phase_stop (t : Transfer) (failure : Failure) :
    (t.stop failure).phase = .stopped failure := by
  simp [stop]

@[simp] theorem phase_charge (t : Transfer) (stage : Stage) (began ended : Duration) :
    (t.charge stage began ended).phase = t.phase := rfl

/-- After the end of the input a transfer reads no more. -/
theorem distance_endInput (t : Transfer) : t.endInput.phase.distance ≤ 3 := by
  unfold endInput
  split
  · simp [Phase.distance, Next.detour]
  · dsimp only
    split <;> simp [Phase.distance]

/-- A chunk that is translated is still to be written and flushed. -/
theorem distance_translate (t : Transfer) (count : Nat) :
    (t.translate count).phase.distance = 6 := by
  unfold translate
  dsimp only
  split <;> rfl

/-- After a write a transfer is a step closer to its end, or over. -/
theorem distance_onWritten (t : Transfer) (next : Next) (answer : Except ChannelError Unit) :
    (t.onWritten next answer).phase.distance < 3 + next.detour := by
  cases answer with
  | error error => simp only [onWritten, phase_stop, Phase.distance]; omega
  | ok => simp only [onWritten, Phase.distance]; omega

/-- After a flush a transfer is closer to its end, or goes back to reading. -/
theorem distance_onFlushed (t : Transfer) (next : Next) (answer : Except ChannelError Unit) :
    (t.onFlushed next answer).phase.distance < 2 + next.detour := by
  cases answer with
  | error error => simp only [onFlushed, phase_stop, Phase.distance]; omega
  | ok => cases next <;> simp [onFlushed, Phase.distance, Next.detour]

theorem distance_close (t : Transfer) (now : Duration) : (t.close now).phase.distance = 0 := by
  simp [close, Phase.distance]

end Transfer

end HexFilter
