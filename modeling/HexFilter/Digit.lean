namespace HexFilter

/-- The line separator of hexadecimal text. Reading skips it wherever it
stands; writing puts one at the very end. -/
def newline : UInt8 := 10

namespace Digit

/-- The digits in ascending order. From ten on they are letters, which may also
stand in upper case. -/
def alphabet : List UInt8 := "0123456789abcdef".toList.map Char.toUInt8

/-- The two digits of a byte, one for its sixteens and one for what is left of them. -/
def spelled (byte : UInt8) : List UInt8 :=
  [byte.toNat / 16, byte.toNat % 16].filterMap fun place => alphabet[place]?

/-- The lowercase digit of a value below sixteen. -/
def ofValue (value : UInt8) : UInt8 :=
  if value < 10 then '0'.toUInt8 + value else 'a'.toUInt8 + (value - 10)

/-- The value of a digit, in either letter case. -/
def value? (byte : UInt8) : Option UInt8 :=
  if '0'.toUInt8 ≤ byte ∧ byte ≤ '9'.toUInt8 then some (byte - '0'.toUInt8)
  else if 'a'.toUInt8 ≤ byte ∧ byte ≤ 'f'.toUInt8 then some (byte - 'a'.toUInt8 + 10)
  else if 'A'.toUInt8 ≤ byte ∧ byte ≤ 'F'.toUInt8 then some (byte - 'A'.toUInt8 + 10)
  else none

def high (byte : UInt8) : UInt8 := ofValue (byte / 16)

def low (byte : UInt8) : UInt8 := ofValue (byte % 16)

/-- Both digits of a byte, as they are written. -/
def pair (byte : UInt8) : List UInt8 := [high byte, low byte]

def join (high low : UInt8) : UInt8 := high * 16 + low

end Digit

end HexFilter
