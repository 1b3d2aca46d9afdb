/-! Double-precision numbers as exact mathematics. A magnitude is held by its
rank among all magnitudes: zero has rank 0, each further number the next rank,
and infinity comes after the largest finite one. The rank is also the number
that the lower 63 bits of the usual encoding spell, so nothing is lost by
writing it as such, and the order of magnitudes is the order of their ranks.
Every operation is carried out exactly on fractions of natural numbers and
rounded once, to the nearest magnitude and to the even rank on a tie. -/
namespace HexFilter

/-- A number in double precision. -/
structure Binary64 where
  negative : Bool := false
  rank : Nat
deriving DecidableEq

namespace Binary64

/-- Magnitudes that share a power of two. -/
def binade : Nat := Nat.pow 2 52

def infinity : Nat := 2047 * binade

/-- The whole number that is to be scaled by a power of two. -/
def significand (rank : Nat) : Nat :=
  if rank < binade then rank else binade + rank % binade

/-- The power of two that scales the significand. -/
def exponent (rank : Nat) : Int := (max (rank / binade) 1 : Nat) - 1075

/-- The fraction `num / den` divided by a power of two, with neither part
rounded. -/
def scaleDown (num den : Nat) (power : Int) : Nat × Nat :=
  (num * Nat.pow 2 (-power).toNat, den * Nat.pow 2 power.toNat)

/-- The magnitude of a finite rank as a fraction. -/
def fraction (rank : Nat) : Nat × Nat := scaleDown (significand rank) 1 (-exponent rank)

/-- The whole number nearest to a fraction, the even one on a tie. -/
def nearest (num den : Nat) : Nat :=
  let below := num / den
  let rest := num % den
  if 2 * rest < den then below
  else if 2 * rest = den then below + below % 2
  else below + 1

/-- The exponent of the binade in which a fraction lies. -/
def binadeOf (num den : Nat) : Int :=
  let guess : Int := max ((num.log2 : Int) - den.log2 - 53) (-1074)
  let (a, b) := scaleDown num den guess
  if a / b < 2 * binade then guess else guess + 1

/-- The rank of the magnitude nearest to a fraction. -/
def rankOf (num den : Nat) : Nat :=
  if num = 0 then 0
  else
    let power := binadeOf num den
    let (a, b) := scaleDown num den power
    min infinity ((power + 1074).toNat * binade + nearest a b)

def ofNat (n : Nat) : Binary64 := { rank := rankOf n 1 }

def isFinite (x : Binary64) : Bool := x.rank < infinity

def zero : Binary64 := { rank := 0 }

/-- The number with the opposite sign. Zero has two. -/
def neg (x : Binary64) : Binary64 := { x with negative := !x.negative }

def addRank (a b : Nat) : Nat :=
  let (p, q) := fraction a
  let (r, s) := fraction b
  rankOf (p * s + r * q) (q * s)

def mulRank (a b : Nat) : Nat :=
  let (p, q) := fraction a
  let (r, s) := fraction b
  rankOf (p * r) (q * s)

/-- The rounded quotient of two finite magnitudes, the second above zero. -/
def divRank (a b : Nat) : Nat :=
  let (p, q) := fraction a
  let (r, s) := fraction b
  rankOf (p * s) (q * r)

def add (x y : Binary64) : Binary64 := { rank := addRank x.rank y.rank }

/-- The quotient of two finite numbers that are not negative, the second above
zero. -/
def div (x y : Binary64) : Binary64 := { rank := divRank x.rank y.rank }

/-- The usual encoding: the sign above, the rank below. -/
def bits (x : Binary64) : Nat := if x.negative then Nat.pow 2 63 + x.rank else x.rank

end Binary64

end HexFilter
