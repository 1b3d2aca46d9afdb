import HexFilter.Decoder
import HexFilter.Encoder
import HexFilter.Settings

namespace HexFilter

/-- Either direction, ready to be driven chunk by chunk. -/
inductive Codec where
  | encoder (e : Encoder)
  | decoder (d : Decoder)
deriving DecidableEq

/-- What one chunk leaves behind: the codec, the output with what the chunk
added to it, and the bad digit that ended a decoded chunk early. -/
structure Translated where
  codec : Codec
  output : Array UInt8
  fault : Option InvalidDigit
deriving DecidableEq

namespace Codec

def forMode : Mode → Codec
  | .encode => encoder {}
  | .decode => decoder {}

def mode : Codec → Mode
  | encoder _ => .encode
  | decoder _ => .decode

/-- Translate one chunk onto the end of an output. -/
def chunk (codec : Codec) (out : Array UInt8) (input : List UInt8) : Translated :=
  match codec with
  | encoder e => ⟨encoder e, Encoder.chunk out input, none⟩
  | decoder d =>
      let decoded := d.chunk out input
      ⟨decoder decoded.decoder, decoded.output, decoded.fault⟩

@[simp] theorem mode_forMode (mode : Mode) : (forMode mode).mode = mode := by
  cases mode <;> rfl

/-- A chunk does not turn a codec around. -/
@[simp] theorem mode_chunk (codec : Codec) (out : Array UInt8) (input : List UInt8) :
    (codec.chunk out input).codec.mode = codec.mode := by
  cases codec <;> rfl

end Codec

end HexFilter
