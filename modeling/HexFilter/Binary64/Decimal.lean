import HexFilter.Binary64

/-! The shortest decimal of a number. A decimal with a given count of digits
lies on a grid; of the two grid points around the number, one that rounds back
to it is as good as the number itself. The coarsest grid with such a point
decides, and of two such points the nearer one, the even one on a tie. -/
namespace HexFilter

/-- The number `digits * 10 ^ power`. -/
structure Decimal where
  digits : Nat
  power : Int
deriving DecidableEq

/-- How a decimal is laid out. -/
structure Layout where
  /-- The smallest power of ten of a leading digit that is written without
  naming the power. -/
  smallest : Int
  largest : Int

namespace Decimal

/-- How many decimal digits a whole number has. Zero has one. -/
def width (n : Nat) : Nat := (Nat.toDigits 10 n).length

/-- A fraction divided by a power of ten, with neither part rounded. -/
def scaleDown (num den : Nat) (power : Int) : Nat × Nat :=
  (num * Nat.pow 10 (-power).toNat, den * Nat.pow 10 power.toNat)

def rank (d : Decimal) : Nat :=
  let (num, den) := scaleDown d.digits 1 (-d.power)
  Binary64.rankOf num den

/-- The power of ten of the leading digit of a fraction above zero. -/
def leading (num den : Nat) : Int :=
  if den ≤ num then width (num / den) - 1
  else -(width ((den + num - 1) / num - 1) : Int)

/-- The better of the two points around a magnitude on the grid with so many
digits, if one of them rounds back to it. -/
def onGrid (rank count : Nat) : Option Decimal :=
  let (num, den) := Binary64.fraction rank
  let power := leading num den - (count - 1 : Nat)
  let (a, b) := scaleDown num den power
  let below : Decimal := ⟨a / b, power⟩
  let above : Decimal := ⟨a / b + 1, power⟩
  if below.rank = rank then
    if above.rank = rank ∧ Binary64.nearest a b = above.digits then some above else some below
  else if above.rank = rank then some above
  else none

/-- Seventeen digits tell any two numbers apart. -/
def mostDigits : Nat := 17

def trim (d : Decimal) : Decimal :=
  let kept := (Nat.toDigits 10 d.digits).reverse.dropWhile (· = '0')
  let zeros := width d.digits - kept.length
  ⟨d.digits / Nat.pow 10 zeros, d.power + zeros⟩

/-- The shortest decimal that rounds to a finite magnitude above zero. -/
def shortest (rank : Nat) : Decimal :=
  match (List.range' 1 mostDigits).findSome? (onGrid rank) with
  | some d => d.trim
  | none => ⟨0, 0⟩

/-- Digits with a point among them and at least one on either side. -/
def positional (digits : List Char) (leading : Int) : List Char :=
  if leading < 0 then
    ['0', '.'] ++ List.replicate (-leading - 1).toNat '0' ++ digits
  else
    let whole := leading.toNat + 1
    let fraction := digits.drop whole
    digits.take whole ++ List.replicate (whole - digits.length) '0' ++ ['.'] ++
      (if fraction.isEmpty then ['0'] else fraction)

/-- The first digit, the others after a point, and the power of ten with its
sign. -/
def scientific (digits : List Char) (leading : Int) : List Char :=
  let fraction := digits.drop 1
  digits.take 1 ++ (if fraction.isEmpty then [] else '.' :: fraction) ++
    ['e', if leading < 0 then '-' else '+'] ++ Nat.toDigits 10 leading.natAbs

def figures (layout : Layout) (d : Decimal) : List Char :=
  let digits := Nat.toDigits 10 d.digits
  let leading := d.power + (digits.length - 1 : Nat)
  if layout.smallest ≤ leading ∧ leading ≤ layout.largest then positional digits leading
  else scientific digits leading

end Decimal

/-- A finite number in figures, the shortest that read back as it. -/
def Binary64.figures (layout : Layout) (x : Binary64) : List Char :=
  let magnitude :=
    if x.rank = 0 then ['0', '.', '0'] else (Decimal.shortest x.rank).figures layout
  if x.negative then '-' :: magnitude else magnitude

namespace Json

/-- Numbers from 0.00001 on are written in full as long as sixteen digits stand
before the point. -/
def layout : Layout := ⟨-5, 15⟩

def figures (x : Binary64) : List Char := x.figures layout

end Json

end HexFilter
