import HexFilter.Binary64.Decimal
import HexFilter.Quoting

/-! Reading JSON text from left to right into values of known types. A reader
uses up characters from the front of the text or stops at the first fault, so
of two faults in a text the one further left is reported. -/
namespace HexFilter.Json

/-- A number as it stands in a text. Only a number without fraction and
exponent is kept exactly, and only if it fits into 64 bits. -/
inductive Number where
  | natural (n : Nat)
  /-- The whole number below zero with this magnitude. -/
  | negative (n : Nat)
  | double (x : Binary64)
deriving DecidableEq

/-- What was found where something else was expected. -/
inductive Found where
  | null
  | boolean (b : Bool)
  | number (n : Number)
  | text (cs : List Char)
  | list
  | object
deriving DecidableEq

/-- Well-formed text that is no value of the type being read. -/
inductive Mismatch where
  | wrongType (found : Found) (expected : String)
  | wrongValue (found : Found) (expected : String)
  | wrongLength (length : Nat) (expected : String)
  | missingField (name : String)
  | repeatedField (name : String)
  | unknownField (name : List Char) (known : List String)
  | unknownVariant (name : List Char) (known : List String)
  | longDuration
deriving DecidableEq

inductive Fault where
  | malformed
  | unfinished
  | mismatch (cause : Mismatch)
deriving DecidableEq

def Number.text : Number → String
  | natural n => toString n
  | negative n => s!"-{n}"
  | double x => String.ofList (figures x)

def Found.describe : Found → String
  | null => "null"
  | boolean b => s!"boolean `{b}`"
  | number (.double x) => s!"floating point `{(Number.double x).text}`"
  | number n => s!"integer `{n.text}`"
  | text cs => "string \"" ++ String.ofList (Quoting.found.text cs) ++ "\""
  | list => "sequence"
  | object => "map"

/-- The names that would have been right. -/
def choice : List String → String
  | [name] => s!"`{name}`"
  | [one, two] => s!"`{one}` or `{two}`"
  | names => "one of " ++ String.intercalate ", " (names.map fun name => s!"`{name}`")

def Mismatch.message : Mismatch → String
  | wrongType found expected => s!"invalid type: {found.describe}, expected {expected}"
  | wrongValue found expected => s!"invalid value: {found.describe}, expected {expected}"
  | wrongLength length expected => s!"invalid length {length}, expected {expected}"
  | missingField name => s!"missing field `{name}`"
  | repeatedField name => s!"duplicate field `{name}`"
  | unknownField name known =>
      s!"unknown field `{String.ofList name}`, expected {choice known}"
  | unknownVariant name known =>
      s!"unknown variant `{String.ofList name}`, expected {choice known}"
  | longDuration => "overflow deserializing Duration"

/-- A step through the rest of a text. -/
abbrev Reader (α : Type) := StateT (List Char) (Except Fault) α

namespace Reader

variable {α β σ : Type}

@[simp] theorem pure_apply (value : α) (cs : List Char) :
    (pure value : Reader α) cs = .ok (value, cs) := rfl

/-- The second reader goes on where the first one stopped. -/
@[simp] theorem bind_apply (first : Reader α) (second : α → Reader β) (cs : List Char) :
    (first >>= second) cs =
      match first cs with
      | .error fault => .error fault
      | .ok (value, rest) => second value rest := by
  change (first cs).bind _ = _
  cases first cs <;> rfl

@[simp] theorem map_apply (f : α → β) (read : Reader α) (cs : List Char) :
    (f <$> read) cs =
      match read cs with
      | .error fault => .error fault
      | .ok (value, rest) => .ok (f value, rest) := by
  change (read cs).bind _ = _
  cases read cs <;> rfl

def fail (fault : Fault) : Reader α := fun _ => .error fault

def malformed : Reader α := fail .malformed

def mismatch (cause : Mismatch) : Reader α := fail (.mismatch cause)

/-- The next character, which is not used up. -/
def peek : Reader (Option Char) := fun cs => .ok (cs.head?, cs)

def drop : Reader Unit := fun cs => .ok ((), cs.tail)

/-- The characters that may stand between tokens. -/
def isBlank (c : Char) : Bool := c = ' ' || c = '\n' || c = '\t' || c = '\r'

/-- The first character of the next token, with the blanks before it used up
and the character itself not. -/
def token : Reader Char := fun cs =>
  match cs.dropWhile isBlank with
  | [] => .error .unfinished
  | c :: rest => .ok (c, c :: rest)

/-- Use up a token of one character. -/
def expect (c : Char) : Reader Unit := do
  if (← token) = c then drop else malformed

def literal : List Char → Reader Unit
  | [] => pure ()
  | c :: rest => fun cs =>
      match cs with
      | [] => .error .unfinished
      | d :: tail => if c = d then literal rest tail else .error .malformed

/-- What one round of a repetition comes to. -/
inductive Round (σ α : Type) where
  | again (state : σ)
  | done (value : α)

/-- Repeat until a round is the last. Every other round has to use up part of
the text, so the text bounds the rounds. -/
def iterate (round : σ → Reader (Round σ α)) (state : σ) : Reader α := fun cs =>
  match round state cs with
  | .error fault => .error fault
  | .ok (.done value, rest) => .ok (value, rest)
  | .ok (.again next, rest) =>
      if rest.length < cs.length then iterate round next rest else .error .malformed
termination_by cs => cs.length

/-- Read a whole text, with nothing but blanks around the value. -/
def whole (read : Reader α) (text : String) : Except Fault α :=
  match read text.toList with
  | .error fault => .error fault
  | .ok (value, rest) => if (rest.dropWhile isBlank).isEmpty then .ok value else .error .malformed

end Reader

end HexFilter.Json
