import CompileFail.Text.Line
import Mathlib.Data.List.Basic

/-! Lines and the texts that they make up. Splitting a text gives lines in the sense of `AreLines`,
and lines that are put together are split into the same lines again. So a text in which one line is
replaced by another one has its other lines where they were, and a text that is cut where a line starts has the
lines of both parts. -/

namespace CompileFail.Text

/-- A single line holds something, and a line feed can only end it. -/
structure IsLine (line : Text) : Prop where
  ne_nil : line ≠ []
  feed_last : '\n' ∉ line.dropLast

/-- Lines that follow each other in a text: only the last one may do without a line feed. -/
def AreLines : List Text → Prop
  | [] => True
  | line :: rest => IsLine line ∧ (rest ≠ [] → line.getLast? = some '\n') ∧ AreLines rest

theorem isLine_feed : IsLine ['\n'] := ⟨by simp, by simp⟩

theorem isLine_singleton (c : Char) : IsLine [c] := ⟨by simp, by simp⟩

theorem IsLine.cons {line : Text} (h : IsLine line) {c : Char} (hc : c ≠ '\n') : IsLine (c :: line) := by
  refine ⟨by simp, ?_⟩
  rw [List.dropLast_cons_of_ne_nil h.ne_nil, List.mem_cons, not_or]
  exact ⟨hc.symm, h.feed_last⟩

theorem areLines_singleton {line : Text} : AreLines [line] ↔ IsLine line := by
  simp [AreLines]

theorem areLines_splitLines (s : Text) : AreLines (splitLines s) := by
  induction s with
  | nil => trivial
  | cons c s ih =>
      rw [splitLines]
      split
      · next hc => exact ⟨hc ▸ isLine_feed, fun _ => by rw [hc]; rfl, ih⟩
      · next hc =>
        cases hs : splitLines s with
        | nil => exact areLines_singleton.mpr (isLine_singleton c)
        | cons line rest =>
            rw [hs] at ih
            obtain ⟨hline, hfeed, hrest⟩ := ih
            refine ⟨hline.cons hc, fun h => ?_, hrest⟩
            rw [List.getLast?_cons, hfeed h]
            rfl

theorem splitLines_of_not_mem {body : Text} (h : '\n' ∉ body) (hne : body ≠ []) :
    splitLines body = [body] := by
  induction body with
  | nil => exact absurd rfl hne
  | cons c body ih =>
      rw [List.mem_cons, not_or] at h
      rw [splitLines, if_neg (Ne.symm h.1)]
      cases body with
      | nil => rfl
      | cons d body => rw [ih h.2 (by simp)]

theorem splitLines_append_feed {body : Text} (h : '\n' ∉ body) (s : Text) :
    splitLines (body ++ '\n' :: s) = (body ++ ['\n']) :: splitLines s := by
  induction body with
  | nil => rfl
  | cons c body ih =>
      rw [List.mem_cons, not_or] at h
      rw [List.cons_append, splitLines, if_neg (Ne.symm h.1), ih h.2]
      rfl

/-- A line that ends in a line feed is a body without one and the line feed. -/
theorem IsLine.eq_append_feed {line : Text} (h : IsLine line) (hfeed : line.getLast? = some '\n') :
    line = line.dropLast ++ ['\n'] := by
  rw [List.getLast?_eq_some_getLast h.ne_nil, Option.some.injEq] at hfeed
  rw [← hfeed, List.dropLast_concat_getLast]

theorem IsLine.not_mem_of_getLast? {line : Text} (h : IsLine line) (hfeed : line.getLast? ≠ some '\n') :
    '\n' ∉ line := by
  intro hmem
  rw [← List.dropLast_concat_getLast h.ne_nil, List.mem_append, List.mem_singleton] at hmem
  rcases hmem with hbody | hlast
  · exact h.feed_last hbody
  · exact hfeed (by rw [List.getLast?_eq_some_getLast h.ne_nil, ← hlast])

theorem splitLines_flatten {lines : List Text} (h : AreLines lines) :
    splitLines lines.flatten = lines := by
  induction lines with
  | nil => rfl
  | cons line rest ih =>
      obtain ⟨hline, hfeed, hrest⟩ := h
      rw [List.flatten_cons]
      by_cases hlast : line.getLast? = some '\n'
      · rw [hline.eq_append_feed hlast, List.append_assoc, List.singleton_append,
          splitLines_append_feed hline.feed_last, ih hrest]
      · have hnil : rest = [] := by
          by_contra hne
          exact hlast (hfeed hne)
        rw [hnil, List.flatten_nil, List.append_nil,
          splitLines_of_not_mem (hline.not_mem_of_getLast? hlast) hline.ne_nil]

theorem AreLines.isLine {lines : List Text} (h : AreLines lines) {line : Text} (hmem : line ∈ lines) :
    IsLine line := by
  induction lines with
  | nil => simp at hmem
  | cons first rest ih =>
      rcases List.mem_cons.mp hmem with rfl | hmem
      · exact h.1
      · exact ih h.2.2 hmem

/-- The lines of a text one by one: each of them is a single line, and all but the last end in a line feed. -/
theorem areLines_iff {lines : List Text} : AreLines lines ↔
    (∀ line ∈ lines, IsLine line) ∧ ∀ line ∈ lines.dropLast, line.getLast? = some '\n' := by
  induction lines with
  | nil => simp [AreLines]
  | cons line rest ih =>
      rw [AreLines, ih, List.forall_mem_cons]
      cases rest with
      | nil => simp
      | cons next rest =>
          have hends : (∀ l ∈ (line :: next :: rest).dropLast, l.getLast? = some '\n') ↔
              line.getLast? = some '\n' ∧ ∀ l ∈ (next :: rest).dropLast, l.getLast? = some '\n' := by
            rw [List.dropLast_cons_cons, List.forall_mem_cons]
          rw [hends]
          constructor
          · rintro ⟨hline, hfeed, hrest, hlast⟩
            exact ⟨⟨hline, hrest⟩, hfeed (List.cons_ne_nil _ _), hlast⟩
          · rintro ⟨⟨hline, hrest⟩, hfeed, hlast⟩
            exact ⟨hline, fun _ => hfeed, hrest, hlast⟩

/-- One line can be replaced by another that ends in a line feed if the first one does. -/
theorem AreLines.set {lines : List Text} (h : AreLines lines) {index : Nat} {old new : Text}
    (hold : lines[index]? = some old) (hnew : IsLine new)
    (hfeed : old.getLast? = some '\n' → new.getLast? = some '\n') : AreLines (lines.set index new) := by
  induction lines generalizing index with
  | nil => trivial
  | cons first rest ih =>
      obtain ⟨hfirst, hends, hrest⟩ := h
      cases index with
      | zero =>
          obtain rfl : first = old := by simpa using hold
          exact ⟨hnew, fun hne => hfeed (hends hne), hrest⟩
      | succ index =>
          have hset : AreLines (rest.set index new) := ih hrest (by simpa using hold)
          exact ⟨hfirst, fun hne => hends (by simpa using hne), hset⟩

/-! ### Cutting between lines -/

/-- A text is cut where a line starts: at the front or behind a line feed. -/
def EndsLine (front : Text) : Prop := front = [] ∨ front.getLast? = some '\n'

theorem endsLine_feed (front : Text) : EndsLine (front ++ ['\n']) := Or.inr List.getLast?_concat

theorem AreLines.append {lines more : List Text} (h : AreLines lines) (hends : EndsLine lines.flatten)
    (hmore : AreLines more) : AreLines (lines ++ more) := by
  induction lines with
  | nil => exact hmore
  | cons line rest ih =>
      obtain ⟨hline, hfeed, hrest⟩ := h
      cases rest with
      | nil => exact ⟨hline, fun _ => by simpa [EndsLine, hline.ne_nil] using hends, hmore⟩
      | cons next rest =>
          -- What the lines end in is what those behind the first one end in, since they are not empty.
          have hne : (next :: rest).flatten ≠ [] := by simp [hrest.1.ne_nil]
          rw [List.flatten_cons] at hends
          have hends : EndsLine (next :: rest).flatten := by
            rw [EndsLine, List.getLast?_append_of_ne_nil line hne] at hends
            exact Or.inr (hends.resolve_left (by simp [hline.ne_nil]))
          exact ⟨hline, fun _ => hfeed (List.cons_ne_nil _ _), ih hrest hends⟩

/-- The lines in front of a cut and behind it make up the text, and no other lines do. -/
theorem splitLines_append {front : Text} (hfront : EndsLine front) (s : Text) :
    splitLines (front ++ s) = splitLines front ++ splitLines s := by
  have hlines : AreLines (splitLines front ++ splitLines s) :=
    (areLines_splitLines front).append (by rwa [flatten_splitLines]) (areLines_splitLines s)
  rw [← splitLines_flatten hlines, List.flatten_append, flatten_splitLines, flatten_splitLines]

theorem lines_append {front : Text} (hfront : EndsLine front) (s : Text) :
    lines (front ++ s) = lines front ++ lines s := by
  rw [lines, splitLines_append hfront, List.map_append, lines, lines]

theorem lines_of_isLine {s : Text} (h : IsLine s) : lines s = [(splitTerminator s).1] := by
  have hlines := splitLines_flatten (areLines_singleton.mpr h)
  rw [List.flatten_singleton] at hlines
  rw [lines, hlines, List.map_singleton]

/-- What is shown of a single line is a part at its front. -/
theorem prefix_of_mem_lines {s shown : Text} (hs : '\n' ∉ s.dropLast) (hshown : shown ∈ lines s) : shown <+: s := by
  have hne : s ≠ [] := by
    rintro rfl
    cases hshown
  rw [lines_of_isLine ⟨hne, hs⟩, List.mem_singleton] at hshown
  rw [hshown]
  exact ⟨_, splitTerminator_append s⟩

/-! ### Terminators -/

theorem not_mem_splitTerminator {line : Text} (h : '\n' ∉ line.dropLast) :
    '\n' ∉ (splitTerminator line).1 := by
  unfold splitTerminator
  split
  · next rest hreverse =>
    obtain rfl : line = rest.reverse ++ ['\r'] ++ ['\n'] := by simpa using congrArg List.reverse hreverse
    rw [List.dropLast_concat] at h
    exact fun hmem => h (List.mem_append_left _ hmem)
  · next rest _ hreverse =>
    obtain rfl : line = rest.reverse ++ ['\n'] := by simpa using congrArg List.reverse hreverse
    rwa [List.dropLast_concat] at h
  · next hends =>
    rcases List.eq_nil_or_concat line with rfl | ⟨body, last, rfl⟩
    · simp
    · rw [List.concat_eq_append, List.dropLast_concat] at h
      intro hmem
      rw [List.concat_eq_append, List.mem_append, List.mem_singleton] at hmem
      rcases hmem with hmem | hlast
      · exact h hmem
      · exact hends body.reverse (by simp [hlast.symm])

/-- The terminator of a line is that of its last two characters. -/
theorem splitTerminator_append_left (front : Text) {back : Text} (h : 2 ≤ back.length) :
    splitTerminator (front ++ back) = (front ++ (splitTerminator back).1, (splitTerminator back).2) := by
  obtain ⟨d, c, rest, hback⟩ : ∃ d c rest, back.reverse = d :: c :: rest := by
    match hreverse : back.reverse with
    | d :: c :: rest => exact ⟨d, c, rest, rfl⟩
    | [_] | [] =>
        rw [← List.length_reverse, hreverse] at h
        simp at h
  obtain rfl : back = rest.reverse ++ [c, d] := by simpa using congrArg List.reverse hback
  unfold splitTerminator
  simp only [List.reverse_append, List.reverse_cons, List.reverse_nil, List.nil_append,
    List.reverse_reverse, List.cons_append]
  by_cases hd : d = '\n'
  · subst hd
    by_cases hc : c = '\r'
    · subst hc
      simp
    · simp [hc]
  · simp [hd]

end CompileFail.Text
