import CompileFail.Text.Basic

/-! Lines of a text. A line ends behind its line feed and keeps it; what is called the terminator
of a line is the line feed together with one carriage return before it. -/

namespace CompileFail.Text

/-- The lines of a text with their terminators, so that together they are the text again. -/
def splitLines : Text → List Text
  | [] => []
  | c :: s =>
    if c = '\n' then [c] :: splitLines s
    else match splitLines s with
      | [] => [[c]]
      | line :: rest => (c :: line) :: rest

/-- A line without its terminator, and the terminator. -/
def splitTerminator (line : Text) : Text × Text :=
  match line.reverse with
  | '\n' :: '\r' :: body => (body.reverse, ['\r', '\n'])
  | '\n' :: body => (body.reverse, ['\n'])
  | _ => (line, [])

/-- The lines of a text without their terminators. -/
def lines (s : Text) : List Text := (splitLines s).map fun line => (splitTerminator line).1

theorem flatten_splitLines (s : Text) : (splitLines s).flatten = s := by
  induction s with
  | nil => rfl
  | cons c s ih =>
    simp only [splitLines]
    split
    · simp [ih]
    · split
      · rename_i h
        rw [h] at ih
        simp [← ih]
      · rename_i h
        rw [h] at ih
        simp [← ih]

theorem splitTerminator_append (line : Text) :
    (splitTerminator line).1 ++ (splitTerminator line).2 = line := by
  unfold splitTerminator
  split
  · rename_i body h
    have : line = (line.reverse).reverse := by simp
    rw [this, h]; simp
  · rename_i body _ h
    have : line = (line.reverse).reverse := by simp
    rw [this, h]; simp
  · simp

end CompileFail.Text
