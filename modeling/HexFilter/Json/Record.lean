import HexFilter.Json.Skip

/-! Values of known types: words of a fixed width, flags, choices among names,
and records. A record is an object, or a list of its fields in their order. -/
namespace HexFilter.Json

namespace Reader

variable {α σ : Type}

/-- Report what stands here instead of what was expected. A number or a text is
read first, so that its own faults win. -/
def mismatched (expected : String) : Reader α := do
  match ← token with
  | 'n' => literal "null".toList; mismatch (.wrongType .null expected)
  | 't' => literal "true".toList; mismatch (.wrongType (.boolean true) expected)
  | 'f' => literal "false".toList; mismatch (.wrongType (.boolean false) expected)
  | '"' => drop; mismatch (.wrongType (.text (← text)) expected)
  | '[' => mismatch (.wrongType .list expected)
  | '{' => mismatch (.wrongType .object expected)
  | c =>
      if c = '-' ∨ c.isDigit then mismatch (.wrongType (.number (← number)) expected)
      else malformed

def anyNumber (expected : String) : Reader Number := do
  let c ← token
  if c = '-' ∨ c.isDigit then number else mismatched expected

def wordBelow (limit : Nat) (expected : String) : Reader Nat := do
  match ← anyNumber expected with
  | .natural n =>
      if n < limit then return n else mismatch (.wrongValue (.number (.natural n)) expected)
  | .negative n => mismatch (.wrongValue (.number (.negative n)) expected)
  | .double x => mismatch (.wrongType (.number (.double x)) expected)

def word64 : Reader Nat := wordBelow UInt64.size "u64"

def word32 : Reader Nat := wordBelow UInt32.size "u32"

/-- A double, also from a whole number, which is rounded. -/
def double : Reader Binary64 := do
  match ← anyNumber "f64" with
  | .natural n => return Binary64.ofNat n
  | .negative n => return (Binary64.ofNat n).neg
  | .double x => return x

def boolean : Reader Bool := do
  match ← token with
  | 't' => literal "true".toList; return true
  | 'f' => literal "false".toList; return false
  | _ => mismatched "a boolean"

/-- One of the known names, after its opening quotation mark. -/
def knownName (known : List (String × α)) : Reader α := do
  let name ← text
  match known.find? fun entry => entry.1.toList = name with
  | some entry => return entry.2
  | none => mismatch (.unknownVariant name (known.map Prod.fst))

/-- One of the known names, as a text or as the only key of an object with
nothing in it. -/
def choiceOf (known : List (String × α)) : Reader α := do
  match ← token with
  | '"' => drop; knownName known
  | '{' =>
      drop
      match ← token with
      | '"' =>
          drop
          let value ← knownName known
          expect ':'
          match ← token with
          | 'n' => literal "null".toList; expect '}'; return value
          | _ => mismatched "unit"
      | _ => malformed
  | _ => malformed

/-- Go to the next member of an object, whose key has to follow. At the end of
the object, which is not used up, there is none. -/
def nextMember (first : Bool) : Reader Bool := do
  match ← token with
  | '}' => return false
  | ',' =>
      if first then malformed
      else
        drop
        match ← token with
        | '"' => return true
        | _ => malformed
  | '"' => if first then return true else malformed
  | _ => malformed

/-- Go to the next element of a list, which has to follow. At the end of the
list, which is not used up, there is none. -/
def nextElement (first : Bool) : Reader Bool := do
  match ← token with
  | ']' => return false
  | c =>
      if first then return true
      else if c = ',' then
        drop
        match ← token with
        | ']' => malformed
        | _ => return true
      else malformed

end Reader

/-- A field of a record that is being read into a draft. -/
structure FieldReader (σ : Type) where
  name : String
  isSet : σ → Bool
  read : σ → Reader σ

/-- The value of a field in a draft, or the mismatch for its absence. -/
def required {α : Type} (absent : String → Mismatch) (name : String) :
    Option α → Except Mismatch α
  | some value => .ok value
  | none => .error (absent name)

/-- How a record is read. -/
structure Shape (σ α : Type) where
  expected : String
  expectedList : String
  fields : List (FieldReader σ)
  /-- Whether a field of another name is a fault. Otherwise it is passed over. -/
  strict : Bool
  blank : σ
  /-- The record of a draft. The first field that is missing is reported with
  the given mismatch. -/
  build : (String → Mismatch) → σ → Except Mismatch α

namespace Shape

open Reader

variable {σ α : Type}

def names (shape : Shape σ α) : List String := shape.fields.map FieldReader.name

/-- Read the value of a member whose key is used up. A repeated or unknown key
is reported before its value is looked at. -/
def memberValue (shape : Shape σ α) (key : List Char) (draft : σ) : Reader σ := do
  match shape.fields.find? fun field => field.name.toList = key with
  | some field =>
      if field.isSet draft then mismatch (.repeatedField field.name)
      else
        expect ':'
        field.read draft
  | none =>
      if shape.strict then mismatch (.unknownField key shape.names)
      else
        expect ':'
        skip
        return draft

/-- Read one member of an object, if there is one more. The flag says whether it
would be the first. -/
def memberRound (shape : Shape σ α) : Bool × σ → Reader (Round (Bool × σ) σ)
  | (first, draft) => do
      if ← nextMember first then
        drop
        let key ← text
        return .again (false, ← shape.memberValue key draft)
      else return .done draft

/-- Read the elements of a list into these fields, or as many as there are. -/
def elements : Bool → List (FieldReader σ) → σ → Reader σ
  | _, [], draft => return draft
  | first, field :: fields, draft => do
      if ← nextElement first then elements false fields (← field.read draft) else return draft

def finish (shape : Shape σ α) (absent : String → Mismatch) (draft : σ) : Reader α :=
  match shape.build absent draft with
  | .ok value => return value
  | .error cause => mismatch cause

/-- The mismatch of a list that ends before a field. -/
def tooShort (shape : Shape σ α) (name : String) : Mismatch :=
  .wrongLength (shape.names.idxOf name) shape.expectedList

/-- Read a record. Missing fields are reported at its end. -/
def read (shape : Shape σ α) : Reader α := do
  match ← token with
  | '{' =>
      drop
      let draft ← iterate shape.memberRound (true, shape.blank)
      let value ← shape.finish .missingField draft
      expect '}'
      return value
  | '[' =>
      drop
      let draft ← elements true shape.fields shape.blank
      let value ← shape.finish shape.tooShort draft
      expect ']'
      return value
  | _ => mismatched shape.expected

end Shape

end HexFilter.Json
