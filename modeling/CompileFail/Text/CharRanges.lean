/-! Classes of characters given by closed ranges of code points, the form in which the tables of
Unicode properties are kept. -/

namespace CompileFail

abbrev CharRanges := List (Nat × Nat)

namespace CharRanges

def contains (ranges : CharRanges) (c : Char) : Bool :=
  ranges.any fun range => range.1 ≤ c.toNat && c.toNat ≤ range.2

/-- Each range is in order and ends before the next begins. -/
def Ascending : CharRanges → Prop
  | [] => True
  | [a] => a.1 ≤ a.2
  | a :: b :: rest => a.1 ≤ a.2 ∧ a.2 < b.1 ∧ Ascending (b :: rest)

end CharRanges

end CompileFail
