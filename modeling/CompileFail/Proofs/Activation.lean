import CompileFail.Proofs.TagGrammar

/-! What activation does to a file. The tagged line loses the opener of its comment, one contiguous
stretch behind the indentation, and nothing else; it keeps its terminator and stays a single line. So
the copy of the file has as many lines as the file, and all but the activated one are the same. -/

namespace CompileFail.Tag

/-- Activation takes out the opener, and with it the character behind it if that is a space. At least
two characters follow, since the tag is among them. -/
theorem exists_opener_of_scan {line : Text} {o : Occurrence} (hline : '\n' ∉ line.dropLast)
    (h : scan line = .occurrence o) :
    ∃ indentation first rest, (∀ c ∈ indentation, isBlank c = true) ∧ first ≠ '/' ∧ 2 ≤ rest.length ∧
      line = indentation ++ '/' :: '/' :: first :: rest ∧
      o.activated = indentation ++ (if first = ' ' then rest else first :: rest) := by
  obtain ⟨parts, ⟨hform, hbody⟩, -, rfl⟩ := exists_describes_of_scan hline h
  refine ⟨parts.indentation, parts.first,
    parts.code ++ tokenText parts.configuration ++ parts.after ++ (Text.splitTerminator line).2,
    hform.indentation_blank, hform.first_ne, ?_, ?_, ?_⟩
  · simp only [TaggedLine.code, List.length_append, List.length_cons]
    omega
  · conv => lhs; rw [← Text.splitTerminator_append line, hbody]
    simp [TaggedLine.text, TaggedLine.before]
  · rw [TaggedLine.activated]
    split <;> simp

theorem activated_isLine {line : Text} {o : Occurrence} (hline : '\n' ∉ line.dropLast)
    (h : scan line = .occurrence o) :
    Text.IsLine o.activated ∧ o.activated.getLast? = line.getLast? ∧
      (Text.splitTerminator o.activated).2 = (Text.splitTerminator line).2 := by
  obtain ⟨indentation, first, rest, -, -, hlength, rfl, hactivated⟩ := exists_opener_of_scan hline h
  have hne : rest ≠ [] := by
    rintro rfl
    simp at hlength
  -- Both lines end in `rest`; they differ only in what stands before it.
  obtain ⟨kept, hkept, hsub⟩ : ∃ kept, o.activated = kept ++ rest ∧
      kept ⊆ indentation ++ ['/', '/', first] := by
    rw [hactivated]
    split
    · exact ⟨indentation, rfl, List.subset_append_left _ _⟩
    · exact ⟨indentation ++ [first], by simp, by simp⟩
  have hfront : indentation ++ '/' :: '/' :: first :: rest = (indentation ++ ['/', '/', first]) ++ rest := by
    simp
  rw [hfront] at hline ⊢
  rw [List.dropLast_append_of_ne_nil hne, List.mem_append, not_or] at hline
  refine ⟨⟨?_, ?_⟩, ?_, ?_⟩
  · rw [hkept]
    simp [hne]
  · rw [hkept, List.dropLast_append_of_ne_nil hne, List.mem_append, not_or]
    exact ⟨fun hmem => hline.1 (hsub hmem), hline.2⟩
  · rw [hkept, List.getLast?_append_of_ne_nil _ hne, List.getLast?_append_of_ne_nil _ hne]
  · rw [hkept, Text.splitTerminator_append_left _ hlength, Text.splitTerminator_append_left _ hlength]

/-- The lines of the copy are those of the file with the activated one in its place. -/
theorem splitLines_activate {text line : Text} {index : Nat} {o : Occurrence}
    (hline : (Text.splitLines text)[index]? = some line) (hscan : scan line = .occurrence o) :
    Text.splitLines (activate (Text.splitLines text) index o) =
      (Text.splitLines text).set index o.activated := by
  have hlines := Text.areLines_splitLines text
  have hsingle := (hlines.isLine (List.mem_of_getElem? hline)).feed_last
  obtain ⟨hnew, hlast, -⟩ := activated_isLine hsingle hscan
  exact Text.splitLines_flatten (hlines.set hline hnew fun hfeed => hlast.trans hfeed)

/-- Activation keeps the line structure of a file: the copy has as many lines, the tagged one is
activated there and all others are unchanged. The activated line is the original one without the
opener of its comment, and has the same terminator. -/
theorem activate_keeps_lines (text : Text) (index : Nat) (line : Text) (o : Occurrence)
    (hline : (Text.splitLines text)[index]? = some line) (hscan : scan line = .occurrence o) :
    let copy := Text.splitLines (activate (Text.splitLines text) index o)
    copy.length = (Text.splitLines text).length ∧
    copy[index]? = some o.activated ∧
    (∀ other, other ≠ index → copy[other]? = (Text.splitLines text)[other]?) ∧
    (Text.splitTerminator o.activated).2 = (Text.splitTerminator line).2 ∧
    ∃ indentation first rest, (∀ c ∈ indentation, isBlank c = true) ∧ first ≠ '/' ∧
      line = indentation ++ '/' :: '/' :: first :: rest ∧
      o.activated = indentation ++ (if first = ' ' then rest else first :: rest) := by
  intro copy
  have hcopy : copy = (Text.splitLines text).set index o.activated := splitLines_activate hline hscan
  have hsingle := ((Text.areLines_splitLines text).isLine (List.mem_of_getElem? hline)).feed_last
  obtain ⟨hindex, -⟩ := List.getElem?_eq_some_iff.mp hline
  obtain ⟨indentation, first, rest, hblank, hfirst, -, hopener⟩ := exists_opener_of_scan hsingle hscan
  refine ⟨?_, ?_, ?_, (activated_isLine hsingle hscan).2.2, indentation, first, rest, hblank, hfirst, hopener⟩
  · rw [hcopy, List.length_set]
  · rw [hcopy, List.getElem?_set_self hindex]
  · intro other hother
    rw [hcopy, List.getElem?_set_ne hother.symm]

theorem activate_keeps_lines_last :
    let text : Text := "int a;\r\n // f(); // [CompilationError]: no f"
    let o : Occurrence := ⟨none, "no f", " f(); // [CompilationError]: no f"⟩
    (Text.splitLines text)[1]? = some " // f(); // [CompilationError]: no f".toList ∧
    scan " // f(); // [CompilationError]: no f" = .occurrence o ∧
    (Text.splitLines (activate (Text.splitLines text) 1 o)).length = 2 ∧
    (Text.splitLines (activate (Text.splitLines text) 1 o))[0]? = some "int a;\r\n".toList := by
  intro text o
  have hkeeps := activate_keeps_lines text 1 " // f(); // [CompilationError]: no f" o (by decide) (by decide)
  exact ⟨by decide, by decide, hkeeps.1.trans (by decide), (hkeeps.2.2.1 0 (by decide)).trans (by decide)⟩

end CompileFail.Tag
