/-! Texts are lists of characters, so that recursion and proofs follow the text. Here stand the
searches that the readers of source lines, transcripts and command lines share. -/

namespace CompileFail

abbrev Text := List Char

instance : Coe String Text := ⟨String.toList⟩

namespace Text

/-- The decimal digits of a number. -/
def ofNat (n : Nat) : Text := Nat.toDigits 10 n

/-- The digits of a number, padded with zeros on the left to at least two. -/
def twoDigits (n : Nat) : Text := if n < 10 then '0' :: ofNat n else ofNat n

/-- A number below 256 in two hexadecimal digits. -/
def twoHexDigits (n : Nat) : Text := Nat.toDigits 16 (n / 16) ++ Nat.toDigits 16 (n % 16)

/-- A number in digits alone; `none` for the empty text and for any other character. -/
def toNat? (s : Text) : Option Nat :=
  if s.isEmpty then none
  else s.foldl (fun n? c => n?.bind fun n =>
    if c.isDigit then some (10 * n + (c.toNat - '0'.toNat)) else none) (some 0)

/-- The number in digits to a base, of which at most `limit` are taken, and what follows them. -/
def leadingDigits (base limit : Nat) (s : Text) : Nat × Text :=
  let value (c : Char) : Nat :=
    if c.isDigit then c.toNat - '0'.toNat else c.toLower.toNat - 'a'.toNat + 10
  let digits := (s.take limit).takeWhile fun c => c.isAlphanum && value c < base
  (digits.foldl (fun n c => base * n + value c) 0, s.drop digits.length)

/-- Whether `needle` stands somewhere in the text. -/
def contains (needle : Text) : Text → Bool
  | [] => needle.isEmpty
  | c :: s => needle.isPrefixOf (c :: s) || contains needle s

/-- How often a nonempty `needle` is found when the search goes on behind each find. -/
def occurrences (needle : Text) (s : Text) : Nat :=
  go 0 s
where
  /-- Counts from a position at which the next `skip` characters belong to a find. -/
  go : Nat → Text → Nat
    | _, [] => 0
    | skip + 1, _ :: s => go skip s
    | 0, c :: s =>
      if needle.isPrefixOf (c :: s) then go (needle.length - 1) s + 1 else go 0 s

/-- The text with the first `old` replaced, or with every `old` if `all` is set. -/
def replace (old new : Text) (s : Text) (all : Bool) : Text :=
  go 0 true s
where
  /-- Copies the text; `skip` characters of a find are left out, `live` says whether to search on. -/
  go : Nat → Bool → Text → Text
    | _, _, [] => []
    | skip + 1, live, _ :: s => go skip live s
    | 0, live, c :: s =>
      if live && !old.isEmpty && old.isPrefixOf (c :: s) then
        new ++ go (old.length - 1) all s
      else c :: go 0 live s

/-- The pieces between separators; a text without one is its own only piece. -/
def splitOn (sep : Char) : Text → List Text
  | [] => [[]]
  | c :: s =>
    if c = sep then [] :: splitOn sep s
    else match splitOn sep s with
      | [] => [[c]]
      | piece :: rest => (c :: piece) :: rest

/-- What stands before and behind the first `sep`. -/
def splitOnce? (sep : Char) : Text → Option (Text × Text)
  | [] => none
  | c :: s =>
    if c = sep then some ([], s)
    else (splitOnce? sep s).map fun (left, right) => (c :: left, right)

/-- What follows the first `needle`, if there is one. -/
def after? (needle : Text) : Text → Option Text
  | [] => if needle.isEmpty then some [] else none
  | c :: s =>
    if needle.isPrefixOf (c :: s) then some ((c :: s).drop needle.length) else after? needle s

/-- The text with the letters A to Z made small; other letters stay. -/
def asciiLower (s : Text) : Text := s.map Char.toLower

/-- Equality in which the case of the letters A to Z does not count. -/
def eqIgnoreCase (s t : Text) : Bool := asciiLower s == asciiLower t

/-- The number of bytes in UTF-8, the unit of file sizes. -/
def byteSize (s : Text) : Nat := s.foldr (fun c size => c.utf8Size + size) 0

/-- Filled with blanks on the right up to a width. -/
def padRight (width : Nat) (s : Text) : Text := s ++ List.replicate (width - s.length) ' '

/-- Filled with blanks on the left up to a width. -/
def padLeft (width : Nat) (s : Text) : Text := List.replicate (width - s.length) ' ' ++ s

end Text

end CompileFail
