import HexFilter.Json.Reader

/-! Numbers. The digits of a numeral are taken into one whole number for as long
as it fits into 64 bits; it is then rounded, and scaled by a rounded power of
ten. That is two or three roundings, so a number with many digits or a large
exponent may come out as a neighbour of the nearest one. -/
namespace HexFilter.Json

structure Numeral where
  negative : Bool
  whole : List Nat
  fraction : Option (List Nat)
  exponent : Option Int
deriving DecidableEq

namespace Numeral

/-- The first number that does not fit into 64 bits. -/
def wordLimit : Nat := UInt64.size

/-- The digits before the point: their value as far as it fits, and how many
digits were left out. -/
def takeWhole (digits : List Nat) : Nat × Nat :=
  digits.foldl (fun (value, left) digit =>
    if left = 0 ∧ value * 10 + digit < wordLimit then (value * 10 + digit, 0)
    else (value, left + 1)) (0, 0)

/-- The digits after the point, added to those before it as far as they fit,
and how many were added. -/
def takeFraction (value : Nat) : List Nat → Nat × Nat
  | [] => (value, 0)
  | digit :: rest =>
      if value * 10 + digit < wordLimit then
        let (all, count) := takeFraction (value * 10 + digit) rest
        (all, count + 1)
      else (value, 0)

/-- The largest power of ten that is finite. -/
def maxPower : Nat := 308

def powerOfTen (power : Nat) : Nat := Binary64.rankOf (Nat.pow 10 power) 1

/-- A magnitude times a power of ten, unless the product is too large. -/
def enlarge (rank power : Nat) : Option Nat :=
  if rank = 0 then some 0
  else if maxPower < power then none
  else
    let product := Binary64.mulRank rank (powerOfTen power)
    if product < Binary64.infinity then some product else none

/-- A magnitude divided again and again by the largest power of ten. -/
def shrink : Nat → Nat → Nat
  | 0, rank => rank
  | times + 1, rank =>
      if rank = 0 then 0 else shrink times (Binary64.divRank rank (powerOfTen maxPower))

/-- A magnitude divided by a power of ten, in as many divisions as it takes
with finite divisors. -/
def reduce (rank power : Nat) : Nat :=
  let times := (power - 1) / maxPower
  Binary64.divRank (shrink times rank) (powerOfTen (power - times * maxPower))

/-- A magnitude scaled by a power of ten, unless it becomes too large. -/
def scale (rank : Nat) (power : Int) : Option Nat :=
  if power < 0 then some (reduce rank power.natAbs) else enlarge rank power.natAbs

def value (n : Numeral) : Option Number :=
  let (whole, left) := takeWhole n.whole
  if n.fraction.isNone ∧ n.exponent.isNone ∧ left = 0 then
    if !n.negative then some (.natural whole)
    else if 0 < whole ∧ whole ≤ Nat.pow 2 63 then some (.negative whole)
    else some (.double (Binary64.ofNat whole).neg)
  else
    let (digits, count) := takeFraction whole (n.fraction.getD [])
    let power : Int := (left : Int) - count + n.exponent.getD 0
    (scale (Binary64.rankOf digits 1) power).map fun rank => .double ⟨n.negative, rank⟩

end Numeral

namespace Reader

/-- A run of digits, perhaps an empty one. -/
def digits : Reader (List Nat) := fun cs =>
  .ok ((cs.takeWhile Char.isDigit).map fun c => c.toNat - '0'.toNat, cs.dropWhile Char.isDigit)

/-- A run of at least one digit; `ended` is the fault where the text ends
instead. -/
def someDigits (ended : Fault) : Reader (List Nat) := do
  let run ← digits
  if run.isEmpty then
    if (← peek).isNone then fail ended else malformed
  else return run

def minusSign : Reader Bool := do
  match ← peek with
  | some '-' => drop; return true
  | _ => return false

/-- The sign of an exponent, which may be left out. -/
def exponentSign : Reader Bool := do
  match ← peek with
  | some '-' => drop; return true
  | some '+' => drop; return false
  | _ => return false

/-- The digits before the point. A zero stands there alone. -/
def wholePart (ended : Fault) : Reader (List Nat) := do
  let run ← someDigits ended
  if run.head? = some 0 ∧ run.length ≠ 1 then malformed else return run

/-- The digits after a point, if there is one. -/
def fractionPart (ended : Fault) : Reader (Option (List Nat)) := do
  match ← peek with
  | some '.' => drop; return some (← someDigits ended)
  | _ => return none

def exponentSize (digits : List Nat) : Nat := digits.foldl (fun size digit => size * 10 + digit) 0

/-- The power of ten after the letter for it, if there is one. -/
def exponentPart (ended : Fault) : Reader (Option Int) := do
  match ← peek with
  | some 'e' | some 'E' =>
      drop
      let minus ← exponentSign
      let size := exponentSize (← someDigits ended)
      return some (if minus then -size else size)
  | _ => return none

/-- The spelling of a number; `ended` is the fault where the text ends instead
of a digit. -/
def numeral (ended : Fault) : Reader Numeral := do
  let negative ← minusSign
  let whole ← wholePart ended
  let fraction ← fractionPart ended
  let exponent ← exponentPart ended
  return { negative, whole, fraction, exponent }

/-- A number. One that is too large breaks the rules. -/
def number : Reader Number := do
  match (← numeral .unfinished).value with
  | some n => return n
  | none => malformed

end Reader

end HexFilter.Json
