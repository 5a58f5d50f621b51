import CompileFail.Text.Basic

/-! UTF-8, strictly for files and leniently for names and for the output of programs: there each longest
part that no character begins with or goes on with is shown as one replacement character. -/

namespace CompileFail

abbrev Bytes := List UInt8

namespace Text

def encode (s : Text) : Bytes := s.flatMap String.utf8EncodeChar

end Text

namespace Bytes

/-- Where a reader of bytes stands: in front of a character, or within one. Then the bits read so far are
`bits`, the next byte must lie between `low` and `high`, and `more` others are to follow it. -/
inductive Stage where
  | start
  | within (more low high bits : Nat)
deriving DecidableEq, Repr

namespace Stage

/-- A byte in front of a character: what it completes, with `none` for an invalid part, and the stage
behind it. -/
def enter (n : Nat) : List (Option Char) × Stage :=
  if n < 0x80 then ([some (Char.ofNat n)], start)
  else if n < 0xC2 then ([none], start)
  else if n < 0xE0 then ([], within 0 0x80 0xBF (n - 0xC0))
  else if n < 0xF0 then
    -- Shorter forms of a character and surrogates are shut out by the bounds of the second byte.
    ([], within 1 (if n = 0xE0 then 0xA0 else 0x80) (if n = 0xED then 0x9F else 0xBF) (n - 0xE0))
  else if n < 0xF5 then
    ([], within 2 (if n = 0xF0 then 0x90 else 0x80) (if n = 0xF4 then 0x8F else 0xBF) (n - 0xF0))
  else ([none], start)

/-- Reads one byte. One that does not go on with a character ends an invalid part and is read again. -/
def step : Stage → Nat → List (Option Char) × Stage
  | start, n => enter n
  | within more low high bits, n =>
    if low ≤ n ∧ n ≤ high then
      let bits := bits * 64 + (n - 0x80)
      match more with
      | 0 => ([some (Char.ofNat bits)], start)
      | more + 1 => ([], within more 0x80 0xBF bits)
    else (none :: (enter n).1, (enter n).2)

end Stage

/-- The characters of a byte sequence that is read from a stage on, with `none` for each invalid part. -/
def decodeFrom : Stage → Bytes → List (Option Char)
  | .start, [] => []
  | .within .., [] => [none]
  | stage, b :: rest => (stage.step b.toNat).1 ++ decodeFrom (stage.step b.toNat).2 rest

/-- The characters of a byte sequence in order, with `none` for each invalid part. -/
def decodeParts (bytes : Bytes) : List (Option Char) := decodeFrom .start bytes

/-- The text that the bytes encode, if every part of them is valid. -/
def decode? (bytes : Bytes) : Option Text := (decodeParts bytes).mapM id

def replacementChar : Char := '\uFFFD'

/-- The text that the bytes encode, with a replacement character for each invalid part. -/
def decodeLossy (bytes : Bytes) : Text := (decodeParts bytes).map (·.getD replacementChar)

end Bytes

end CompileFail
