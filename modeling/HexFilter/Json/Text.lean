import HexFilter.Json.Reader

/-! Text between quotation marks. A character beyond the first 65536 may be
written as two escapes, of which neither stands for a character alone. -/
namespace HexFilter.Json.Reader

def hexDigit? (c : Char) : Option Nat :=
  if '0' ≤ c ∧ c ≤ '9' then some (c.toNat - '0'.toNat)
  else if 'a' ≤ c ∧ c ≤ 'f' then some (c.toNat - 'a'.toNat + 10)
  else if 'A' ≤ c ∧ c ≤ 'F' then some (c.toNat - 'A'.toNat + 10)
  else none

def unit? (a b c d : Char) : Option Nat := do
  return (((← hexDigit? a) * 16 + (← hexDigit? b)) * 16 + (← hexDigit? c)) * 16 + (← hexDigit? d)

/-- An escape without its four digits: the text has ended if less than four
bytes are left of it. -/
def brokenUnit (rest : List Char) : Fault :=
  if rest.foldl (fun size c => size + c.utf8Size) 0 < 4 then .unfinished else .malformed

def shortEscape? : Char → Option Char
  | '"' => some '"'
  | '\\' => some '\\'
  | '/' => some '/'
  | 'b' => some '\x08'
  | 'f' => some '\x0c'
  | 'n' => some '\n'
  | 'r' => some '\r'
  | 't' => some '\t'
  | _ => none

def isLead (unit : Nat) : Bool := 0xd800 ≤ unit && unit ≤ 0xdbff

def isTrail (unit : Nat) : Bool := 0xdc00 ≤ unit && unit ≤ 0xdfff

def joinUnits (lead trail : Nat) : Char :=
  Char.ofNat (0x10000 + (lead - 0xd800) * 0x400 + (trail - 0xdc00))

def prepend (c : Char) (answer : Except Fault (List Char × List Char)) :
    Except Fault (List Char × List Char) :=
  answer.map fun (text, rest) => (c :: text, rest)

/-- The text up to the closing quotation mark, which is used up. A first half
of a character, if there is one, has to be followed by its second half. -/
def textAfter : Option Nat → List Char → Except Fault (List Char × List Char)
  | _, [] => .error .unfinished
  | _, ['\\'] => .error .unfinished
  | none, '"' :: rest => .ok ([], rest)
  | none, '\\' :: 'u' :: a :: b :: c :: d :: rest =>
      match unit? a b c d with
      | none => .error .malformed
      | some unit =>
          if isTrail unit then .error .malformed
          else if isLead unit then textAfter (some unit) rest
          else prepend (Char.ofNat unit) (textAfter none rest)
  | some lead, '\\' :: 'u' :: a :: b :: c :: d :: rest =>
      match unit? a b c d with
      | none => .error .malformed
      | some unit =>
          if isTrail unit then prepend (joinUnits lead unit) (textAfter none rest)
          else .error .malformed
  | _, '\\' :: 'u' :: rest => .error (brokenUnit rest)
  | some _, _ => .error .malformed
  | none, '\\' :: e :: rest =>
      match shortEscape? e with
      | none => .error .malformed
      | some c => prepend c (textAfter none rest)
  | none, c :: rest => if c < ' ' then .error .malformed else prepend c (textAfter none rest)

/-- A text whose opening quotation mark is used up. -/
def text : Reader (List Char) := textAfter none

/-- Pass over a text whose opening quotation mark is used up. Its escapes have
to be complete, but need not make up characters. -/
def skipText : Reader Unit
  | [] => .error .unfinished
  | ['\\'] => .error .unfinished
  | '"' :: rest => .ok ((), rest)
  | '\\' :: 'u' :: a :: b :: c :: d :: rest =>
      match unit? a b c d with
      | none => .error .malformed
      | some _ => skipText rest
  | '\\' :: 'u' :: rest => .error (brokenUnit rest)
  | '\\' :: e :: rest =>
      match shortEscape? e with
      | none => .error .malformed
      | some _ => skipText rest
  | c :: rest => if c < ' ' then .error .malformed else skipText rest

end HexFilter.Json.Reader
