import HexFilter.Digit

namespace HexFilter

/-- A byte of a completed pair that is no hexadecimal digit, and its place in
the text, newlines counted. -/
structure InvalidDigit (Count : Type := Nat) where
  byte : UInt8
  offset : Count
deriving DecidableEq

/-- One half of a pair as it stands in the text. It is not looked at before
its pair is complete. -/
structure Nibble (Count : Type := Nat) where
  digit : UInt8
  offset : Count
deriving DecidableEq

namespace Nibble

variable {Count : Type}

/-- The value of the digit; anything else is reported with its place. -/
def value (n : Nibble Count) : Except (InvalidDigit Count) UInt8 :=
  match Digit.value? n.digit with
  | some v => .ok v
  | none => .error ⟨n.digit, n.offset⟩

/-- The byte of a pair. Of two bad digits the first is reported. -/
def join (high low : Nibble Count) : Except (InvalidDigit Count) UInt8 :=
  match high.value with
  | .error e => .error e
  | .ok h =>
      match low.value with
      | .error e => .error e
      | .ok l => .ok (Digit.join h l)

end Nibble

/-- The reading direction between two bytes of the text: the first half of a
pair whose second half is still to come, the place of the next byte, and the
newlines seen. In a word of 64 bits the two counts start over after so many
bytes; as natural numbers they never do, and up to there both say the same. -/
structure Decoder (Count : Type := Nat) [OfNat Count 0] where
  pending : Option (Nibble Count) := none
  offset : Count := 0
  newlines : Count := 0
deriving DecidableEq

/-- What a chunk leaves behind: the decoder, the output with the bytes
completed before any bad pair, and the bad digit if there was one. -/
structure Decoded (Count : Type := Nat) [OfNat Count 0] where
  decoder : Decoder Count
  output : Array UInt8
  fault : Option (InvalidDigit Count)
deriving DecidableEq

namespace Decoder

variable {Count : Type} [Add Count] [OfNat Count 0] [OfNat Count 1]

/-- Take one byte of the text. A newline touches only the counts, a first half
is kept, and a second half completes a pair, which is gone afterwards whether
or not its digits are valid. -/
def step (d : Decoder Count) (byte : UInt8) :
    Decoder Count × Except (InvalidDigit Count) (Option UInt8) :=
  if byte = newline then
    ({ d with offset := d.offset + 1, newlines := d.newlines + 1 }, .ok none)
  else
    match d.pending with
    | none => ({ d with pending := some ⟨byte, d.offset⟩, offset := d.offset + 1 }, .ok none)
    | some high =>
        ({ d with pending := none, offset := d.offset + 1 },
          (Nibble.join high ⟨byte, d.offset⟩).map some)

/-- Take a chunk byte by byte, up to its end or through its first bad pair. The
bytes after a bad pair are neither taken nor counted. -/
def chunk (d : Decoder Count) (out : Array UInt8) : List UInt8 → Decoded Count
  | [] => ⟨d, out, none⟩
  | byte :: rest =>
      match d.step byte with
      | (next, .ok none) => next.chunk out rest
      | (next, .ok (some completed)) => next.chunk (out.push completed) rest
      | (next, .error e) => ⟨next, out, some e⟩

/-- End of the text. A half without a partner is dropped unseen and handed
back. -/
def finish (d : Decoder Count) : Decoder Count × Option UInt8 :=
  ({ d with pending := none }, d.pending.map Nibble.digit)

end Decoder

/-- The bytes of a whole text, or its first bad digit. A last digit without a
partner does not count. -/
def decode (text : List UInt8) : Except InvalidDigit (List UInt8) :=
  let decoded := Decoder.chunk {} #[] text
  match decoded.fault with
  | some e => .error e
  | none => .ok decoded.output.toList

end HexFilter
