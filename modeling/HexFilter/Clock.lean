import HexFilter.Timesheet

namespace HexFilter

/-- A clock that only moves forward. Each reading shows the time since the
clock's origin; `gaps` says how much later each further reading comes. Past the
last gap the clock stands still. -/
structure Clock where
  now : Duration := .zero
  gaps : List Duration := []
deriving DecidableEq

def Clock.read (c : Clock) : Duration × Clock :=
  match c.gaps with
  | [] => (c.now, c)
  | gap :: gaps => (c.now, ⟨c.now.addCapped gap, gaps⟩)

/-- The timing of one transfer: its first and last moment and the time charged
to the stages between them. -/
structure Stopwatch where
  started : Duration
  finished : Option Duration := none
  times : Timesheet := {}
deriving DecidableEq

namespace Stopwatch

def charge (w : Stopwatch) (stage : Stage) (began ended : Duration) : Stopwatch :=
  { w with times := w.times.charge stage (ended.minus began) }

def finish (w : Stopwatch) (now : Duration) : Stopwatch := { w with finished := some now }

/-- The time from the first moment to the last, which is the present one until
the stopwatch is finished. -/
def elapsed (w : Stopwatch) (now : Duration) : Duration := (w.finished.getD now).minus w.started

end Stopwatch

end HexFilter
