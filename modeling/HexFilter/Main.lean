import HexFilter.CommandLine

/-! The program on the streams of its process. Every decision is taken by the
transfer; here the calls are made that it waits for. -/
namespace HexFilter.Program

structure Streams where
  input : IO.FS.Stream
  output : IO.FS.Stream
  errors : IO.FS.Stream

def now : IO Duration := return (Duration.ofNanos? (← IO.monoNanosNow)).getD .longest

def streamError : IO.Error → ChannelError
  | .resourceVanished code details => ⟨.brokenPipe, some s!"{details} (os error {code})"⟩
  | .interrupted _ code details => ⟨.interrupted, some s!"{details} (os error {code})"⟩
  | error => ⟨.other, some (toString error)⟩

/-- Make a call on a stream and keep its failure as an answer. -/
def attempt {α : Type} (call : IO α) : IO (Except ChannelError α) := do
  match ← call.toBaseIO with
  | .ok value => return .ok value
  | .error error => return .error (streamError error)

/-- The next bytes of a stream. An interrupted call is made again. -/
partial def readChunk (stream : IO.FS.Stream) (limit : Nat) :
    IO (Except ChannelError (List UInt8)) := do
  match ← attempt (stream.read limit.toUSize) with
  | .ok bytes => return .ok bytes.toList
  | .error error =>
      if error.isInterrupted then readChunk stream limit else return .error error

/-- Put all of the data into a stream. No data makes no call. -/
def writeAll (stream : IO.FS.Stream) (data : List UInt8) : IO (Except ChannelError Unit) :=
  if data.isEmpty then return .ok () else attempt (stream.write ⟨data.toArray⟩)

def advance (streams : Streams) (t : Transfer) : IO Transfer := do
  let began ← now
  match t.phase with
  | .reading =>
      let answer ← readChunk streams.input t.buffer.length
      return (t.charge .read began (← now)).onRead (answer.map (Channel.fill t.buffer))
  | .translating count =>
      let translated := t.translate count
      return translated.charge (Stage.ofMode t.codec.mode) began (← now)
  | .writing next =>
      let answer ← writeAll streams.output t.output.toList
      return (t.charge .write began (← now)).onWritten next answer
  | .flushing next =>
      let answer ← attempt streams.output.flush
      return (t.charge .flush began (← now)).onFlushed next answer
  | .closing => return t.close began
  | .finished _ | .stopped _ => return t

/-- Print the reports of a transfer after the first few. -/
def printNotices (streams : Streams) (printed : Nat) (t : Transfer) : IO Unit :=
  (t.notices.drop printed).forM fun notice => streams.errors.putStr notice.printed

/-- Advance a transfer until it is over, and print its reports as they come. -/
partial def drive (streams : Streams) (printed : Nat) (t : Transfer) :
    IO (Except Failure Summary) := do
  printNotices streams printed t
  match t.phase with
  | .finished summary => return .ok summary
  | .stopped failure => return .error failure
  | _ => drive streams t.notices.length (← advance streams t)

end HexFilter.Program

def main (arguments : List String) : IO UInt32 := do
  let options := HexFilter.CommandLine.parse
    ([] :: arguments.map fun argument => argument.toUTF8.toList)
  let streams : HexFilter.Program.Streams :=
    { input := ← IO.getStdin, output := ← IO.getStdout, errors := ← IO.getStderr }
  let start := HexFilter.Transfer.start options.settings (← HexFilter.Program.now)
  let result ← HexFilter.Program.drive streams 0 start
  streams.errors.putStr (HexFilter.CommandLine.complaint options.mode result)
  return HexFilter.CommandLine.exitCode result
