import CompileFail.Text.Utf8

/-! Bytes as text. The system names files by bytes, and programs exchange them; here they are kept as
texts in which each character stands for the byte of the same number, so that all that is said about texts
holds for them. -/

namespace CompileFail

abbrev Octets := Text

namespace Octets

def ofBytes (bytes : Bytes) : Octets := bytes.map fun b => Char.ofNat b.toNat

/-- The bytes that the characters stand for. A character above them counts as the last one, which is part of
no text. -/
def toBytes (s : Octets) : Bytes := s.map fun c => UInt8.ofNat (min c.toNat 0xFF)

/-- The bytes of the UTF-8 form of a text. -/
def ofText (s : Text) : Octets := ofBytes (Text.encode s)

/-- The text that the bytes encode, with a replacement character for each invalid part. -/
def toText (s : Octets) : Text := (toBytes s).decodeLossy

/-- The lines between line feeds; an end of line at the end begins no line. -/
def lines (s : Octets) : List Octets :=
  let pieces := Text.splitOn '\n' s
  if pieces.getLast? = some [] then pieces.dropLast else pieces

/-- Lines with an end each. -/
def unlines (lines : List Octets) : Octets := lines.flatMap fun line => line ++ ['\n']

end Octets

end CompileFail
