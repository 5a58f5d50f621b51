import CompileFail.Text.Basic
import CompileFail.Text.CharRanges

/-! Blanks are the characters of the Unicode property White_Space; trimming removes them at the
ends of a text. -/

namespace CompileFail

def blankRanges : CharRanges :=
  [(0x09, 0x0D), (0x20, 0x20), (0x85, 0x85), (0xA0, 0xA0), (0x1680, 0x1680), (0x2000, 0x200A),
   (0x2028, 0x2029), (0x202F, 0x202F), (0x205F, 0x205F), (0x3000, 0x3000)]

def isBlank (c : Char) : Bool := blankRanges.contains c

namespace Text

def trimStart (s : Text) : Text := s.dropWhile isBlank

def trimEnd (s : Text) : Text := (s.reverse.dropWhile isBlank).reverse

def trim (s : Text) : Text := trimEnd (trimStart s)

/-- Whether the text holds nothing but blanks. -/
def isBlankText (s : Text) : Bool := s.all isBlank

end Text

end CompileFail
