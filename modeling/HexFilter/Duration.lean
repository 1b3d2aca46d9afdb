namespace HexFilter

/-- A length of time in whole nanoseconds. The seconds in it fit into 64
bits. -/
structure Duration where
  nanos : Nat
  lt_limit : nanos < UInt64.size * 1000000000
deriving DecidableEq

/-- A duration that would not fit came up, and where. -/
inductive DurationOverflow where
  | add
  | sum
deriving DecidableEq

def DurationOverflow.message : DurationOverflow → String
  | add => "overflow when adding durations"
  | sum => "overflow in iter::sum over durations"

namespace Duration

def second : Nat := 1000000000

/-- The first number of nanoseconds that is no duration. -/
def limit : Nat := UInt64.size * second

def zero : Duration := ⟨0, by decide⟩

def longest : Duration := ⟨limit - 1, by decide⟩

instance : LE Duration where
  le a b := a.nanos ≤ b.nanos

instance (a b : Duration) : Decidable (a ≤ b) := inferInstanceAs (Decidable (a.nanos ≤ b.nanos))

def secs (d : Duration) : Nat := d.nanos / second

def subsecNanos (d : Duration) : Nat := d.nanos % second

/-- A number of nanoseconds, if it is not too long. -/
def ofNanos? (nanos : Nat) : Option Duration :=
  if h : nanos < limit then some ⟨nanos, h⟩ else none

/-- Seconds and nanoseconds together, if they are not too long. Nanoseconds
that make up a second are carried. -/
def ofParts? (secs nanos : Nat) : Option Duration := ofNanos? (secs * second + nanos)

def add? (a b : Duration) : Option Duration := ofNanos? (a.nanos + b.nanos)

/-- The sum, or the longest duration where the sum does not fit. -/
def addCapped (a b : Duration) : Duration := (add? a b).getD longest

/-- How much longer `a` is than `b`, or nothing at all. -/
def minus (a b : Duration) : Duration := ⟨a.nanos - b.nanos, by have := a.lt_limit; omega⟩

/-- The exact sum of many durations, if it fits. -/
def sum? (ds : List Duration) : Option Duration :=
  ofNanos? (ds.foldl (fun total d => total + d.nanos) 0)

end Duration

end HexFilter
