import HexFilter.Quoting.Visible

namespace HexFilter

/-- How a character is shown between quotation marks. Tab, carriage return,
line feed and the backslash always take a backslash; the rest is decided
here. -/
structure Quoting where
  /-- The quotation marks that take a backslash. -/
  marks : List Char
  /-- Whether the null character has the short form with a zero. -/
  shortNull : Bool
  /-- The characters that are shown as they are. All others are shown by their
  number in hexadecimal. -/
  plain : Char → Bool

namespace Quoting

def hexNumber (n : Nat) : List Char := Nat.toDigits 16 n

/-- A character by its number, as in `\u{7f}`. -/
def byNumber (c : Char) : List Char := ['\\', 'u', '{'] ++ hexNumber c.toNat ++ ['}']

def char (q : Quoting) (c : Char) : List Char :=
  if c = '\t' then ['\\', 't']
  else if c = '\r' then ['\\', 'r']
  else if c = '\n' then ['\\', 'n']
  else if c = '\\' then ['\\', '\\']
  else if q.shortNull ∧ c = '\x00' then ['\\', '0']
  else if c ∈ q.marks then ['\\', c]
  else if q.plain c then [c]
  else byNumber c

/-- A text, character by character, with no marks around it. -/
def text (q : Quoting) (cs : List Char) : List Char := cs.flatMap q.char

end Quoting

def latin (byte : UInt8) : Char := Char.ofNat byte.toNat

def isPrintableAscii (c : Char) : Bool := ' ' ≤ c && c ≤ '~'

/-- A byte in a message about a bad digit: only printable ASCII is shown as it
is, and either quotation mark takes a backslash. -/
def Quoting.digit : Quoting := ⟨['\x27', '"'], false, isPrintableAscii⟩

/-- A digit in a notice: a single quotation mark takes a backslash. -/
def Quoting.notice : Quoting := ⟨['\x27'], true, isVisible⟩

/-- A text found where something else was expected: a double quotation mark
takes a backslash. -/
def Quoting.found : Quoting := ⟨['"'], true, isVisible⟩

end HexFilter
