import CompileFail.Proofs.Lines
import CompileFail.Proofs.TagToken

/-! Lines and the numbers of those with a tag. A text is divided into lines in one way only. So a text that is
cut where a line starts has the lines of both parts one after another: the tagged lines in front of the cut keep
their numbers, and those behind it are counted on from there. -/

namespace CompileFail

namespace Text

/-- A division of a text into lines: they make up the text, none of them is empty, a line feed stands only at the
end of a line, and none but the last line may do without. -/
structure Division (s : Text) (lines : List Text) : Prop where
  joins : lines.flatten = s
  ne_nil : ∀ line ∈ lines, line ≠ []
  feed_last : ∀ line ∈ lines, '\n' ∉ line.dropLast
  ends : ∀ line ∈ lines.dropLast, line.getLast? = some '\n'

variable {s : Text} {lines : List Text}

theorem Division.areLines (h : Division s lines) : AreLines lines :=
  areLines_iff.mpr ⟨fun line hline => ⟨h.ne_nil line hline, h.feed_last line hline⟩, h.ends⟩

theorem division_splitLines (s : Text) : Division s (splitLines s) := by
  obtain ⟨hsingle, hends⟩ := areLines_iff.mp (areLines_splitLines s)
  exact
    { joins := flatten_splitLines s
      ne_nil := fun line hline => (hsingle line hline).ne_nil
      feed_last := fun line hline => (hsingle line hline).feed_last
      ends := hends }

theorem division_iff : Division s lines ↔ lines = splitLines s := by
  constructor
  · intro h
    rw [← h.joins, splitLines_flatten h.areLines]
  · rintro rfl
    exact division_splitLines s

end Text

namespace Tag

/-- The lines in front are counted along. -/
theorem taggedIndices_append (lines more : List Text) :
    taggedIndices (lines ++ more) = taggedIndices lines ++ (taggedIndices more).map (· + lines.length) := by
  have hshift : more.zipIdx lines.length = more.zipIdx.map (Prod.map id (· + lines.length)) := by
    rw [List.map_snd_add_zipIdx_eq_zipIdx, Nat.add_zero]
  rw [taggedIndices, List.zipIdx_append, List.filterMap_append, Nat.zero_add, hshift, List.filterMap_map,
    taggedIndices, taggedIndices, List.map_filterMap]
  congr 1
  refine List.filterMap_congr fun numbered _ => ?_
  obtain ⟨line, index⟩ := numbered
  by_cases htagged : isTagged line = true
  · simp [htagged]
  · simp [htagged]

theorem pairwise_taggedIndices (lines : List Text) : (taggedIndices lines).Pairwise (· < ·) := by
  have hnumbers : (lines.zipIdx.map Prod.snd).Pairwise (· < ·) := by
    rw [List.zipIdx_map_snd]
    exact List.pairwise_lt_range'
  refine (List.pairwise_map.mp hnumbers).filterMap _ fun numbered numbered' hlt index hindex index' hindex' => ?_
  obtain ⟨-, ⟨⟩⟩ := Option.ite_none_right_eq_some.mp hindex
  obtain ⟨-, ⟨⟩⟩ := Option.ite_none_right_eq_some.mp hindex'
  exact hlt

/-- The lines of a text are the only division of it, and the numbers of those that hold a tag are listed in
order. If a text is empty or ends in a line feed then what follows it is divided on its own: its lines follow
those of the text, and the numbers of the tagged ones come behind those in the text, with the lines of the text
counted along. -/
theorem numbering_of_division :
    (∀ s lines, Text.Division s lines ↔ lines = Text.splitLines s) ∧
    (∀ s index, index ∈ taggedIndices (Text.splitLines s) ↔
      ∃ line, (Text.splitLines s)[index]? = some line ∧ HoldsTag line) ∧
    (∀ s, (taggedIndices (Text.splitLines s)).Pairwise (· < ·)) ∧
    ∀ front rest, Text.EndsLine front →
      Text.splitLines (front ++ rest) = Text.splitLines front ++ Text.splitLines rest ∧
      taggedIndices (Text.splitLines (front ++ rest)) = taggedIndices (Text.splitLines front) ++
        (taggedIndices (Text.splitLines rest)).map (· + (Text.splitLines front).length) := by
  refine ⟨fun s lines => Text.division_iff, fun s index => mem_taggedIndices_iff,
    fun s => pairwise_taggedIndices _, fun front rest hfront => ?_⟩
  have hlines := Text.splitLines_append hfront rest
  refine ⟨hlines, ?_⟩
  rw [hlines, taggedIndices_append]

/-- A text with an empty line and another one with a carriage return inside a line and no line feed at its end. -/
theorem numbering_of_division_cut :
    let front : Text := "// f(); // [CompilationError]: x\r\n\n"
    let rest : Text := "a;\r\n[CompilationError-Debug]\rb"
    Text.EndsLine front ∧ Text.splitLines front = ["// f(); // [CompilationError]: x\r\n", "\n"] ∧
      taggedIndices (Text.splitLines (front ++ rest)) = [0, 3] := by
  intro front rest
  have hfront : Text.EndsLine front := Or.inr (by decide)
  obtain ⟨honly, -, -, hcut⟩ := numbering_of_division
  have hlines : Text.Division front ["// f(); // [CompilationError]: x\r\n", "\n"] :=
    ⟨by decide, by decide, by decide, by decide⟩
  obtain ⟨-, hnumbers⟩ := hcut front rest hfront
  refine ⟨hfront, ((honly _ _).mp hlines).symm, hnumbers.trans ?_⟩
  decide

end Tag

end CompileFail
