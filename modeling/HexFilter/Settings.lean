namespace HexFilter

inductive Mode where
  /-- Bytes to lowercase hexadecimal text. -/
  | encode
  /-- Hexadecimal text back to bytes. -/
  | decode
deriving DecidableEq

namespace Mode

def word : Mode → String
  | encode => "encode"
  | decode => "decode"

def codecName : Mode → String
  | encode => "hex-encode"
  | decode => "hex-decode"

end Mode

/-- How a transfer is to be made. -/
structure Settings where
  mode : Mode := .encode
  /-- The most bytes of a single read. Shorter reads are passed on as they
  come. -/
  chunkSize : Nat := 8192
  trace : Bool := false
deriving DecidableEq

inductive SettingsError where
  | zeroChunk
  | largeChunk (size : Nat)
deriving DecidableEq

namespace Settings

def maxChunkSize : Nat := 1048576

def validate (s : Settings) : Except SettingsError Unit :=
  if s.chunkSize = 0 then .error .zeroChunk
  else if s.chunkSize > maxChunkSize then .error (.largeChunk s.chunkSize)
  else .ok ()

/-- Settings are good exactly if the size of a chunk is in its range. -/
theorem validate_eq_ok_iff {s : Settings} :
    s.validate = .ok () ↔ 1 ≤ s.chunkSize ∧ s.chunkSize ≤ maxChunkSize := by
  unfold validate
  split
  · simp_all
  · split
    · simp_all
    · refine iff_of_true rfl ⟨?_, ?_⟩
      · omega
      · omega

theorem validate_of_eq_zero {s : Settings} (h : s.chunkSize = 0) :
    s.validate = .error .zeroChunk :=
  if_pos h

theorem validate_of_maxChunkSize_lt {s : Settings} (h : maxChunkSize < s.chunkSize) :
    s.validate = .error (.largeChunk s.chunkSize) := by
  have hNonzero : s.chunkSize ≠ 0 := by omega
  rw [validate, if_neg hNonzero, if_pos h]

end Settings

def SettingsError.message : SettingsError → String
  | zeroChunk => "chunk_size must be non-zero"
  | largeChunk size => s!"chunk_size too large: {size} > {Settings.maxChunkSize}"

end HexFilter
