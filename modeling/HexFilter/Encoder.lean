import HexFilter.Digit

namespace HexFilter

/-- Two lowercase digits for each byte, with nothing between them. -/
def hexText (bytes : List UInt8) : List UInt8 := bytes.flatMap Digit.spelled

/-- The writing direction. All it remembers is whether the closing newline is
out already, so that closing twice adds one newline. -/
structure Encoder where
  finished : Bool := false
deriving DecidableEq

namespace Encoder

/-- Append the text of one more chunk. Each byte stands for itself, so the
chunk is written alike before and after the end. -/
def chunk (out : Array UInt8) (input : List UInt8) : Array UInt8 :=
  input.foldl (fun out byte => (out.push (Digit.high byte)).push (Digit.low byte)) out

/-- Append the closing newline, unless it was appended before. -/
def finish (e : Encoder) (out : Array UInt8) : Encoder × Array UInt8 :=
  if e.finished then (e, out) else ({ finished := true }, out.push newline)

end Encoder

/-- A whole text: the digits of the bytes and one closing newline. -/
def encode (bytes : List UInt8) : List UInt8 :=
  (Encoder.finish {} (Encoder.chunk #[] bytes)).2.toList

end HexFilter
