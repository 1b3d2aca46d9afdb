import HexFilter.Json.Record
import HexFilter.Summary.Json

/-! Reading a summary and its parts back from JSON. The fields of a record are
collected in a draft, where each may still be missing. -/
namespace HexFilter

open Json

namespace Mode

def known : List (String × Mode) := [encode, decode].map fun mode => (mode.jsonName, mode)

def reader : Reader Mode := Reader.choiceOf known

end Mode

namespace Stage

def known : List (String × Stage) := all.map fun stage => (stage.jsonName, stage)

def reader : Reader Stage := Reader.choiceOf known

end Stage

namespace Duration

/-- A duration of which some fields may not be read yet. -/
structure Draft where
  secs : Option Nat := none
  nanos : Option Nat := none

/-- A duration has no other fields, and its nanoseconds may carry. -/
def shape : Shape Draft Duration where
  expected := "struct Duration"
  expectedList := "struct Duration"
  fields := [
    ⟨"secs", fun d => d.secs.isSome, fun d => return { d with secs := some (← Reader.word64) }⟩,
    ⟨"nanos", fun d => d.nanos.isSome, fun d => return { d with nanos := some (← Reader.word32) }⟩]
  strict := true
  blank := {}
  build absent d := do
    let secs ← required absent "secs" d.secs
    let nanos ← required absent "nanos" d.nanos
    match ofParts? secs nanos with
    | some duration => return duration
    | none => throw .longDuration

def reader : Reader Duration := shape.read

end Duration

namespace Timesheet

/-- Read one entry, if there is one more. A later entry of a stage replaces an
earlier one. -/
def entryRound : Bool × Timesheet → Reader (Reader.Round (Bool × Timesheet) Timesheet)
  | (first, times) => do
      if ← Reader.nextMember first then
        let stage ← Stage.reader
        Reader.expect ':'
        return .again (false, times.put stage (← Duration.reader))
      else return .done times

/-- Read the entries from an object whose keys are stages. -/
def entriesReader : Reader Timesheet := do
  match ← Reader.token with
  | '{' =>
      Reader.drop
      let times ← Reader.iterate entryRound (true, {})
      Reader.expect '}'
      return times
  | _ => Reader.mismatched "a map"

def shape : Shape (Option Timesheet) Timesheet where
  expected := "struct StageTimes"
  expectedList := "struct StageTimes with 1 element"
  fields := [⟨"times", Option.isSome, fun _ => return some (← entriesReader)⟩]
  strict := false
  blank := none
  build absent d := required absent "times" d

def reader : Reader Timesheet := shape.read

end Timesheet

namespace Tally

/-- Counts of which some may not be read yet. -/
structure Draft where
  chunksRead : Option Nat := none
  bytesIn : Option Nat := none
  bytesOut : Option Nat := none
  newlinesSkipped : Option Nat := none
  pairsDecoded : Option Nat := none
  danglingNibble : Option Bool := none

/-- The counts, as fields of the draft of a larger record. -/
def fieldsOf {σ : Type} (get : σ → Draft) (set : σ → Draft → σ) : List (FieldReader σ) := [
  ⟨"chunks_read", fun s => (get s).chunksRead.isSome,
    fun s => return set s { get s with chunksRead := some (← Reader.word64) }⟩,
  ⟨"bytes_in", fun s => (get s).bytesIn.isSome,
    fun s => return set s { get s with bytesIn := some (← Reader.word64) }⟩,
  ⟨"bytes_out", fun s => (get s).bytesOut.isSome,
    fun s => return set s { get s with bytesOut := some (← Reader.word64) }⟩,
  ⟨"newlines_skipped", fun s => (get s).newlinesSkipped.isSome,
    fun s => return set s { get s with newlinesSkipped := some (← Reader.word64) }⟩,
  ⟨"pairs_decoded", fun s => (get s).pairsDecoded.isSome,
    fun s => return set s { get s with pairsDecoded := some (← Reader.word64) }⟩,
  ⟨"dangling_nibble", fun s => (get s).danglingNibble.isSome,
    fun s => return set s { get s with danglingNibble := some (← Reader.boolean) }⟩]

def build (absent : String → Mismatch) (d : Draft) : Except Mismatch Tally := do
  return {
    chunksRead := (← required absent "chunks_read" d.chunksRead).toUInt64
    bytesIn := (← required absent "bytes_in" d.bytesIn).toUInt64
    bytesOut := (← required absent "bytes_out" d.bytesOut).toUInt64
    newlinesSkipped := (← required absent "newlines_skipped" d.newlinesSkipped).toUInt64
    pairsDecoded := (← required absent "pairs_decoded" d.pairsDecoded).toUInt64
    danglingNibble := ← required absent "dangling_nibble" d.danglingNibble }

def shape : Shape Draft Tally where
  expected := "struct TelemetryCounters"
  expectedList := "struct TelemetryCounters with 6 elements"
  fields := fieldsOf id fun _ d => d
  strict := false
  blank := {}
  build

def reader : Reader Tally := shape.read

end Tally

namespace Summary

/-- A summary of which some fields may not be read yet. -/
structure Draft where
  mode : Option Mode := none
  tally : Tally.Draft := {}
  expansionRatio : Option Binary64 := none
  throughput : Option Binary64 := none
  elapsed : Option Duration := none
  times : Option Timesheet := none

def shape : Shape Draft Summary where
  expected := "struct TelemetrySnapshot"
  expectedList := "struct TelemetrySnapshot with 11 elements"
  fields :=
    [⟨"mode", fun d => d.mode.isSome, fun d => return { d with mode := some (← Mode.reader) }⟩] ++
      Tally.fieldsOf Draft.tally (fun d tally => { d with tally }) ++ [
      ⟨"expansion_ratio", fun d => d.expansionRatio.isSome,
        fun d => return { d with expansionRatio := some (← Reader.double) }⟩,
      ⟨"throughput_in_bytes_per_sec", fun d => d.throughput.isSome,
        fun d => return { d with throughput := some (← Reader.double) }⟩,
      ⟨"elapsed", fun d => d.elapsed.isSome,
        fun d => return { d with elapsed := some (← Duration.reader) }⟩,
      ⟨"stage_times", fun d => d.times.isSome,
        fun d => return { d with times := some (← Timesheet.reader) }⟩]
  strict := false
  blank := {}
  build absent d := do
    return {
      mode := ← required absent "mode" d.mode
      tally := ← Tally.build absent d.tally
      expansionRatio := ← required absent "expansion_ratio" d.expansionRatio
      throughput := ← required absent "throughput_in_bytes_per_sec" d.throughput
      elapsed := ← required absent "elapsed" d.elapsed
      times := ← required absent "stage_times" d.times }

def reader : Reader Summary := shape.read

end Summary

end HexFilter
