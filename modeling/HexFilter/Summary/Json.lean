import HexFilter.Binary64.Decimal
import HexFilter.Summary

/-! The JSON text of a summary and of its parts. It is compact: it has no blanks, and
members in the order in which they are given. -/
namespace HexFilter

namespace Json

/-- A name between quotation marks. The names in use need no escapes. -/
def name (s : String) : List Char := '"' :: s.toList ++ ['"']

def natural (n : Nat) : List Char := Nat.toDigits 10 n

def boolean (b : Bool) : List Char := (if b then "true" else "false").toList

/-- A number with its shortest figures. JSON has none for infinity. -/
def double (x : Binary64) : List Char := if x.isFinite then figures x else "null".toList

def member (key : String) (value : List Char) : List Char := name key ++ ':' :: value

def object (members : List (List Char)) : List Char :=
  '{' :: (members.intersperse [',']).flatten ++ ['}']

end Json

def Mode.jsonName : Mode → String
  | encode => "Encode"
  | decode => "Decode"

def Stage.jsonName : Stage → String
  | read => "Read"
  | encode => "Encode"
  | decode => "Decode"
  | write => "Write"
  | flush => "Flush"

/-- All stages in the order of their names. -/
def Stage.byName : List Stage := [decode, encode, flush, read, write]

def Mode.json (mode : Mode) : List Char := Json.name mode.jsonName

def Stage.json (stage : Stage) : List Char := Json.name stage.jsonName

def Duration.json (d : Duration) : List Char :=
  Json.object [Json.member "secs" (Json.natural d.secs),
    Json.member "nanos" (Json.natural d.subsecNanos)]

namespace Timesheet

/-- The entry of a stage as a member of an object, if there is one. -/
def jsonEntry (t : Timesheet) (stage : Stage) : Option (List Char) :=
  (t.entry stage).map fun d => Json.member stage.jsonName d.json

/-- The entries in a given order of the stages. -/
def jsonIn (order : List Stage) (t : Timesheet) : List Char :=
  Json.object [Json.member "times" (Json.object (order.filterMap t.jsonEntry))]

/-- The entries in the order of the stages' names. -/
def json (t : Timesheet) : List Char := t.jsonIn Stage.byName

end Timesheet

namespace Tally

/-- The counts as members of an object. -/
def jsonMembers (t : Tally) : List (List Char) :=
  [Json.member "chunks_read" (Json.natural t.chunksRead.toNat),
    Json.member "bytes_in" (Json.natural t.bytesIn.toNat),
    Json.member "bytes_out" (Json.natural t.bytesOut.toNat),
    Json.member "newlines_skipped" (Json.natural t.newlinesSkipped.toNat),
    Json.member "pairs_decoded" (Json.natural t.pairsDecoded.toNat),
    Json.member "dangling_nibble" (Json.boolean t.danglingNibble)]

def json (t : Tally) : List Char := Json.object t.jsonMembers

end Tally

namespace Summary

/-- The counts stand between the direction and what was computed from them. The
entries of the timesheet come in a given order of the stages. -/
def jsonIn (order : List Stage) (s : Summary) : List Char :=
  Json.object ([Json.member "mode" s.mode.json] ++ s.tally.jsonMembers ++
    [Json.member "expansion_ratio" (Json.double s.expansionRatio),
      Json.member "throughput_in_bytes_per_sec" (Json.double s.throughput),
      Json.member "elapsed" s.elapsed.json,
      Json.member "stage_times" (s.times.jsonIn order)])

/-- With the entries of the timesheet in the order of the stages' names. -/
def json (s : Summary) : List Char := s.jsonIn Stage.byName

end Summary

end HexFilter
