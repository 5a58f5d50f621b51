import CompileFail.Proofs.Lines

/-! The two conventions for the end of a line. A text with plain line feeds can be written with a carriage
return in front of each of them. It then has the same number of lines, each line is the old one written that
way, and only the terminators tell the two apart: the lines without their terminators are the same. -/

namespace CompileFail.Text

/-- The text with a carriage return in front of each line feed. -/
def withReturns : Text → Text
  | [] => []
  | c :: s => if c = '\n' then '\r' :: '\n' :: withReturns s else c :: withReturns s

variable {s body line front : Text} {c : Char}

@[simp] theorem withReturns_nil : withReturns [] = [] := rfl

@[simp] theorem withReturns_feed (s : Text) : withReturns ('\n' :: s) = '\r' :: '\n' :: withReturns s := by
  rw [withReturns, if_pos rfl]

theorem withReturns_cons (hc : c ≠ '\n') (s : Text) : withReturns (c :: s) = c :: withReturns s := by
  rw [withReturns, if_neg hc]

theorem withReturns_append (s t : Text) : withReturns (s ++ t) = withReturns s ++ withReturns t := by
  induction s with
  | nil => rfl
  | cons c s ih =>
      by_cases hc : c = '\n'
      · subst hc
        simp [ih]
      · simp [withReturns_cons hc, ih]

theorem withReturns_flatten (lines : List Text) :
    withReturns lines.flatten = (lines.map withReturns).flatten := by
  induction lines with
  | nil => rfl
  | cons line lines ih => rw [List.flatten_cons, withReturns_append, ih, List.map_cons, List.flatten_cons]

theorem withReturns_of_not_mem (h : '\n' ∉ body) : withReturns body = body := by
  induction body with
  | nil => rfl
  | cons c body ih =>
      rw [List.mem_cons, not_or] at h
      rw [withReturns_cons (Ne.symm h.1), ih h.2]

/-- What holds neither of the two characters stands at the start of both texts or of none. -/
theorem prefix_withReturns_iff (hfeed : '\n' ∉ front) (hreturn : '\r' ∉ front) :
    front <+: withReturns s ↔ front <+: s := by
  induction front generalizing s with
  | nil => simp
  | cons d front ih =>
      rw [List.mem_cons, not_or] at hfeed hreturn
      cases s with
      | nil => simp
      | cons c s =>
          by_cases hc : c = '\n'
          · subst hc
            simp [List.cons_prefix_cons, Ne.symm hfeed.1, Ne.symm hreturn.1]
          · rw [withReturns_cons hc, List.cons_prefix_cons, List.cons_prefix_cons, ih hfeed.2 hreturn.2]

/-! ### Lines -/

theorem splitLines_withReturns (s : Text) : splitLines (withReturns s) = (splitLines s).map withReturns := by
  induction s with
  | nil => rfl
  | cons c s ih =>
      by_cases hc : c = '\n'
      · subst hc
        have hreturn : '\n' ∉ ['\r'] := by decide
        rw [withReturns_feed, ← List.singleton_append, splitLines_append_feed hreturn, ih, splitLines, if_pos rfl]
        rfl
      · rw [withReturns_cons hc, splitLines, if_neg hc, splitLines, if_neg hc, ih]
        cases splitLines s with
        | nil => simp [withReturns_cons hc]
        | cons line rest => simp [withReturns_cons hc]

/-- A single line is a body, with a line feed behind it or without. -/
theorem exists_body (hline : '\n' ∉ line.dropLast) :
    ∃ body, '\n' ∉ body ∧ body ⊆ line ∧ (line = body ∨ line = body ++ ['\n']) := by
  by_cases hfeed : '\n' ∈ line
  · have hne : line ≠ [] := List.ne_nil_of_mem hfeed
    refine ⟨line.dropLast, hline, List.dropLast_subset line, Or.inr ?_⟩
    rw [← List.dropLast_concat_getLast hne, List.mem_append, List.mem_singleton] at hfeed
    conv => lhs; rw [← List.dropLast_concat_getLast hne, ← hfeed.resolve_left hline]
  · exact ⟨line, hfeed, List.Subset.refl line, Or.inl rfl⟩

theorem splitTerminator_of_not_mem (h : '\n' ∉ body) : splitTerminator body = (body, []) := by
  unfold splitTerminator
  split
  · next rest hreverse => exact absurd (List.mem_reverse.mp (hreverse ▸ List.mem_cons_self)) h
  · next rest _ hreverse => exact absurd (List.mem_reverse.mp (hreverse ▸ List.mem_cons_self)) h
  · rfl

theorem splitTerminator_feed (h : '\r' ∉ body) : splitTerminator (body ++ ['\n']) = (body, ['\n']) := by
  rcases List.eq_nil_or_concat body with rfl | ⟨front, last, rfl⟩
  · rfl
  · rw [List.concat_eq_append] at h ⊢
    have hlast : last ≠ '\r' := by
      rintro rfl
      simp at h
    simp [splitTerminator, hlast]

theorem splitTerminator_return (body : Text) :
    splitTerminator (body ++ ['\r', '\n']) = (body, ['\r', '\n']) := by
  simp [splitTerminator]

/-- Of a line without carriage returns only the terminator changes. -/
theorem splitTerminator_withReturns (hline : '\n' ∉ line.dropLast) (hplain : '\r' ∉ line) :
    splitTerminator (withReturns line) = ((splitTerminator line).1, withReturns (splitTerminator line).2) := by
  obtain ⟨body, hfeed, hsub, rfl | rfl⟩ := exists_body hline
  · rw [withReturns_of_not_mem hfeed, splitTerminator_of_not_mem hfeed]
    rfl
  · have hreturn : '\r' ∉ body := fun h => hplain (hsub h)
    rw [withReturns_append, withReturns_of_not_mem hfeed, splitTerminator_feed hreturn]
    exact splitTerminator_return body

theorem mem_of_mem_splitLines (hline : line ∈ splitLines s) (hc : c ∈ line) : c ∈ s := by
  rw [← flatten_splitLines s]
  exact List.mem_flatten.mpr ⟨line, hline, hc⟩

theorem lines_withReturns (hplain : '\r' ∉ s) : lines (withReturns s) = lines s := by
  rw [lines, splitLines_withReturns, List.map_map, lines]
  apply List.map_congr_left
  intro line hline
  have hsingle := ((areLines_splitLines s).isLine hline).feed_last
  have hreturn : '\r' ∉ line := fun h => hplain (mem_of_mem_splitLines hline h)
  show (splitTerminator (withReturns line)).1 = (splitTerminator line).1
  rw [splitTerminator_withReturns hsingle hreturn]

end CompileFail.Text
