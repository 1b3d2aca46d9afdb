import HexFilter.Duration

namespace HexFilter

/-- The activities of a transfer, each timed for itself. -/
inductive Stage where
  | read
  | encode
  | decode
  | write
  | flush
deriving DecidableEq

namespace Stage

/-- All stages, in the order in which a chunk passes them. -/
def all : List Stage := [read, encode, decode, write, flush]

def word : Stage → String
  | read => "read"
  | encode => "encode"
  | decode => "decode"
  | write => "write"
  | flush => "flush"

end Stage

/-- The time charged to each stage. A stage that was never timed has no entry,
which is not the same as an entry of no time. -/
structure Timesheet where
  read : Option Duration := none
  encode : Option Duration := none
  decode : Option Duration := none
  write : Option Duration := none
  flush : Option Duration := none
deriving DecidableEq

namespace Timesheet

def entry (t : Timesheet) : Stage → Option Duration
  | .read => t.read
  | .encode => t.encode
  | .decode => t.decode
  | .write => t.write
  | .flush => t.flush

def put (t : Timesheet) (stage : Stage) (d : Duration) : Timesheet :=
  match stage with
  | .read => { t with read := some d }
  | .encode => { t with encode := some d }
  | .decode => { t with decode := some d }
  | .write => { t with write := some d }
  | .flush => { t with flush := some d }

/-- A stage has the entry that was put last. -/
@[simp] theorem entry_put_self (t : Timesheet) (stage : Stage) (d : Duration) :
    (t.put stage d).entry stage = some d := by
  cases stage <;> rfl

@[simp] theorem entry_put_of_ne (t : Timesheet) {stage other : Stage} (d : Duration)
    (h : other ≠ stage) : (t.put stage d).entry other = t.entry other := by
  cases stage <;> cases other <;> simp_all [put, entry]

def contains (t : Timesheet) (stage : Stage) : Bool := (t.entry stage).isSome

/-- The time charged to a stage, no time if there is no entry. -/
def get (t : Timesheet) (stage : Stage) : Duration := (t.entry stage).getD .zero

def add (t : Timesheet) (stage : Stage) (d : Duration) : Except DurationOverflow Timesheet :=
  match (t.get stage).add? d with
  | some sum => .ok (t.put stage sum)
  | none => .error .add

/-- Charge more time to a stage, up to the longest duration. A clock that only
moves forward never gets there. -/
def charge (t : Timesheet) (stage : Stage) (d : Duration) : Timesheet :=
  t.put stage ((t.get stage).addCapped d)

def stages (t : Timesheet) : List Stage := Stage.all.filter t.contains

def total (t : Timesheet) : Except DurationOverflow Duration :=
  match Duration.sum? (Stage.all.map t.get) with
  | some sum => .ok sum
  | none => .error .sum

end Timesheet

end HexFilter
