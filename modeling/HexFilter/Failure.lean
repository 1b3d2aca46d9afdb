import HexFilter.Channel.Error
import HexFilter.Decoder
import HexFilter.Quoting
import HexFilter.Settings

namespace HexFilter

/-- The text shown for a bad digit: its number with two hexadecimal digits, the
character, and the place. -/
def InvalidDigit.message (e : InvalidDigit) : String :=
  let number := String.ofList ((Digit.pair e.byte).map latin)
  let shown := String.ofList (Quoting.digit.char (latin e.byte))
  s!"invalid hex digit 0x{number} ('{shown}') at offset {e.offset}"

inductive Failure where
  | channel (error : ChannelError)
  | codec (error : InvalidDigit)
  | settings (error : SettingsError)
deriving DecidableEq

namespace Failure

/-- The text of the error without the word that says what kind of error it
is. -/
def detail : Failure → String
  | channel error => error.message
  | codec error => error.message
  | settings error => error.message

def message : Failure → String
  | channel error => s!"I/O error: {error.message}"
  | codec error => s!"codec error: {error.message}"
  | settings error => s!"validation error: {error.message}"

/-- The text of the error that caused the failure. Refused settings are a cause
of their own. -/
def cause? : Failure → Option String
  | channel error => some error.message
  | codec error => some error.message
  | settings _ => none

/-- Whether the input was at fault, and not the channel. -/
def isCodec : Failure → Bool
  | codec _ => true
  | _ => false

end Failure

end HexFilter
