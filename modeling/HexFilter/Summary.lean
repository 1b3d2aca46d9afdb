import HexFilter.Binary64
import HexFilter.Clock
import HexFilter.Settings

namespace HexFilter

/-- What a transfer counts as it goes. -/
structure Tally where
  chunksRead : UInt64 := 0
  bytesIn : UInt64 := 0
  bytesOut : UInt64 := 0
  newlinesSkipped : UInt64 := 0
  pairsDecoded : UInt64 := 0
  danglingNibble : Bool := false
deriving DecidableEq

namespace Tally

def addRead (t : Tally) (count : UInt64) : Tally :=
  { t with chunksRead := t.chunksRead + 1, bytesIn := t.bytesIn + count }

def addEncoded (t : Tally) (count : UInt64) : Tally := { t with bytesOut := t.bytesOut + count }

/-- A chunk was decoded to this many bytes, one for each completed pair. -/
def addDecoded (t : Tally) (count : UInt64) : Tally :=
  { t with bytesOut := t.bytesOut + count, pairsDecoded := t.pairsDecoded + count }

/-- The end of encoded text was marked with this many bytes. -/
def addTrailer (t : Tally) (count : UInt64) : Tally := { t with bytesOut := t.bytesOut + count }

end Tally

/-- A length of time in seconds: the whole seconds and the rest are each
rounded, and then their sum is. -/
def Duration.toSeconds (d : Duration) : Binary64 :=
  (Binary64.ofNat d.secs).add ((Binary64.ofNat d.subsecNanos).div (Binary64.ofNat Duration.second))

/-- What is known about a transfer when it is over. -/
structure Summary where
  mode : Mode
  tally : Tally
  expansionRatio : Binary64
  throughput : Binary64
  elapsed : Duration
  times : Timesheet
deriving DecidableEq

namespace Summary

/-- The quotient of two numbers that are not negative, zero where the second
one is. -/
def ratio (x y : Binary64) : Binary64 := if y.rank = 0 then .zero else x.div y

/-- Sum up a transfer from what was counted and timed. -/
def of (mode : Mode) (tally : Tally) (watch : Stopwatch) (now : Duration) : Summary :=
  let bytesIn := Binary64.ofNat tally.bytesIn.toNat
  let elapsed := watch.elapsed now
  { mode
    tally
    expansionRatio := ratio (Binary64.ofNat tally.bytesOut.toNat) bytesIn
    throughput := ratio bytesIn elapsed.toSeconds
    elapsed
    times := watch.times }

/-- The bytes that went in account for the bytes that came out. Encoded text
has two digits for a byte and one newline; decoded text has a byte for every
pair, and its digits are paired but for one that may be left over. -/
def isBalanced (s : Summary) : Bool :=
  match s.mode with
  | .encode => s.tally.bytesOut = 2 * s.tally.bytesIn + 1
  | .decode =>
      let digits := s.tally.bytesIn - s.tally.newlinesSkipped
      s.tally.bytesOut = s.tally.pairsDecoded ∧
        digits = 2 * s.tally.pairsDecoded + (if s.tally.danglingNibble then 1 else 0)

/-- The bytes are accounted for, and the stages took no longer than the whole
transfer. -/
def isSane (s : Summary) : Except DurationOverflow Bool :=
  s.times.total.map fun total => decide (total ≤ s.elapsed) && s.isBalanced

end Summary

end HexFilter
