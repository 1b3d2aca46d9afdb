import HexFilter.Session

/-! The program as it is called: its arguments, and what it leaves behind. One
flag selects decoding. Every other argument is ignored, so reading the
arguments never fails. -/
namespace HexFilter.CommandLine

/-- The name to go by if the program was called without one. -/
def programName : String := "hexpipe"

def decodeFlag : String := "-r"

/-- The arguments that are not ignored. -/
def recognizedFlags : List String := [decodeFlag]

/-- Whether the bytes of an argument are exactly those of a recognized flag. -/
def isRecognized (argument : List UInt8) : Bool :=
  recognizedFlags.any fun flag => argument = flag.toUTF8.toList

/-- What the flags are read from: the name of the program, and those of the other
arguments that are not ignored. -/
def tokens (arguments : List (List UInt8)) : List (List UInt8) :=
  arguments.headD programName.toUTF8.toList :: (arguments.drop 1).filter isRecognized

/-- A command as the library is told of it that reads the flags: each flag is a letter
behind a dash and takes no value. The library has flags for help and for the version
of its own, unless they are disabled. -/
structure Command where
  name : String
  shorts : List Char
  disableHelpFlag : Bool := false
  disableVersionFlag : Bool := false
  /-- A flag may be given again. -/
  argsOverrideSelf : Bool := false
deriving DecidableEq

/-- The command of the program. -/
def command : Command where
  name := programName
  shorts := ['r']
  disableHelpFlag := true
  disableVersionFlag := true
  argsOverrideSelf := true

/-- What the library does: to the arguments of a command, the name of the program in
front, it tells which of the flags are set, or why it refuses them. -/
abbrev Parser (ε : Type) := Command → List (List UInt8) → Except ε (List Char)

structure Options where
  reverse : Bool := false
deriving DecidableEq

/-- What is kept of the flags that are set. -/
def Options.ofFlags (set : List Char) : Options := { reverse := set.contains 'r' }

/-- Read the arguments that are not ignored with a parser. -/
def readOptions {ε : Type} (parser : Parser ε) (arguments : List (List UInt8)) :
    Except ε Options :=
  (parser command (tokens arguments)).map Options.ofFlags

/-- Read the arguments. The first one is the name of the program and is not
looked at. -/
def parse (arguments : List (List UInt8)) : Options :=
  { reverse := (arguments.drop 1).any isRecognized }

def Options.mode (o : Options) : Mode := if o.reverse then .decode else .encode

def Options.settings (o : Options) : Settings := { mode := o.mode }

/-- A direction as the report names it. -/
def activity : Mode → String
  | .encode => "encoding"
  | .decode => "decoding"

/-- The failure and what caused it, the outermost first. -/
def causes (failure : Failure) : List String := failure.message :: failure.cause?.toList

/-- The lines for the causes, numbered if there is more than one. -/
def causeLines : List String → List String
  | [cause] => [s!"    {cause}"]
  | causes => causes.zipIdx.map fun (cause, index) => s!"    {index}: {cause}"

def report (mode : Mode) (failure : Failure) : String :=
  let headline := s!"Error: {activity mode} stdin failed"
  String.intercalate "\n" ([headline, "", "Caused by:"] ++ causeLines (causes failure)) ++ "\n"

def exitCode : Except Failure Summary → UInt32
  | .ok _ => 0
  | .error _ => 1

/-- The text for standard error at the end of the program. -/
def complaint (mode : Mode) : Except Failure Summary → String
  | .ok _ => ""
  | .error failure => report mode failure

/-- What a finished call of the program leaves behind. -/
structure Exit where
  code : UInt32
  stdout : List UInt8
  stderr : String
deriving DecidableEq

/-- What the operating system says when nobody reads the standard output. -/
def brokenPipe : ChannelError := ⟨.brokenPipe, some "Broken pipe (os error 32)"⟩

/-- A standard output that nobody reads. Writing to it fails; writing nothing
makes no call and does not. -/
def unreadOutput : Sink := { writes := [.fail brokenPipe] }

/-- A buffer in front of it. It takes all that is written, and a flush that has
anything to bring out fails. -/
def unreadBuffer : Sink := { unread := some brokenPipe }

/-- The program with its options read. The reports of the transfer come in front
of the complaint. -/
def run (options : Options) (channel : Channel) (clock : Clock) : Exit :=
  let (result, session) := transfer options.settings channel clock
  { code := exitCode result
    stdout := session.channel.emerged
    stderr := session.transfer.report ++ complaint options.mode result }

/-- The whole program on a parser for its flags. If the parser refuses them, no
call is made. -/
def launch {ε : Type} (parser : Parser ε) (arguments : List (List UInt8)) (channel : Channel)
    (clock : Clock) : Except ε Exit := do
  let options ← readOptions parser arguments
  return run options channel clock

def execute (arguments : List (List UInt8)) (channel : Channel) (clock : Clock) : Exit :=
  run (parse arguments) channel clock

end HexFilter.CommandLine
