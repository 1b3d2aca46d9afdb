import HexFilter.Failure
import HexFilter.Summary.Json

namespace HexFilter

/-- A report on a transfer as it goes. -/
inductive Notice where
  | started (mode : Mode) (chunkSize : Nat)
  /-- The text ended in the middle of a pair, and this first half was
  dropped. -/
  | dropped (digit : UInt8)
  /-- The transfer failed after so many bytes had been read. -/
  | aborted (bytesIn : UInt64) (failure : Failure)
  | done (summary : Summary)
deriving DecidableEq

namespace Notice

/-- The text of a notice, in which the entries of a timesheet come in a given order
of the stages. It is a single line, unless the text of a failed call has several. -/
def textIn (order : List Stage) : Notice → String
  | started mode chunkSize => s!"[STREAM] start {mode.codecName} (chunk_size={chunkSize})"
  | dropped digit =>
      let shown := String.ofList (Quoting.notice.char (latin digit))
      s!"[STREAM] dropping dangling nibble '{shown}' at EOF"
  | aborted bytesIn failure => s!"[STREAM] aborted after {bytesIn} bytes in: {failure.message}"
  | done summary => s!"[STREAM] done {String.ofList (summary.jsonIn order)}"

/-- With the entries in the order of the stages' names. -/
def text (notice : Notice) : String := notice.textIn Stage.byName

def printedIn (order : List Stage) (notice : Notice) : String := notice.textIn order ++ "\n"

def printed (notice : Notice) : String := notice.printedIn Stage.byName

end Notice

end HexFilter
