import HexFilter.Json.Numeral
import HexFilter.Json.Text

/-! Passing over a value of any kind and depth. What is open around the present
place is kept on a stack, so the depth is not limited. -/
namespace HexFilter.Json.Reader

/-- What a value stands in. -/
inductive Enclosure where
  | list
  | object
deriving DecidableEq

/-- A place within a value that is passed over. -/
inductive Place where
  | before (outer : List Enclosure)
  | after (outer : List Enclosure)
deriving DecidableEq

def skipKey : Reader Unit := do
  expect '"'
  skipText
  expect ':'

/-- Pass over what makes up the next value, or opens it. -/
def skipOpening (outer : List Enclosure) : Reader Place := do
  match ← token with
  | 'n' => literal "null".toList; return .after outer
  | 't' => literal "true".toList; return .after outer
  | 'f' => literal "false".toList; return .after outer
  | '"' => drop; skipText; return .after outer
  | '[' =>
      drop
      match ← token with
      | ']' => drop; return .after outer
      | _ => return .before (.list :: outer)
  | '{' =>
      drop
      match ← token with
      | '}' => drop; return .after outer
      | _ => skipKey; return .before (.object :: outer)
  | c =>
      if c = '-' ∨ c.isDigit then
        let _ ← numeral .malformed
        return .after outer
      else malformed

/-- Pass over what follows a value inside of another. -/
def skipFollowing (inner : Enclosure) (outer : List Enclosure) : Reader Place := do
  match inner, ← token with
  | .list, ',' => drop; return .before (.list :: outer)
  | .list, ']' => drop; return .after outer
  | .object, ',' => drop; skipKey; return .before (.object :: outer)
  | .object, '}' => drop; return .after outer
  | _, _ => malformed

/-- One round of passing over a value: what stands at this place, and the place
after it. -/
def skipRound : Place → Reader (Round Place Unit)
  | .before outer => return .again (← skipOpening outer)
  | .after [] => return .done ()
  | .after (inner :: outer) => return .again (← skipFollowing inner outer)

def skip : Reader Unit := iterate skipRound (.before [])

end HexFilter.Json.Reader
