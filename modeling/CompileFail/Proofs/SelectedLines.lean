import CompileFail.Proofs.LinePrograms
import CompileFail.Proofs.RegexSearch
import CompileFail.Utility.Grep

/-! Which lines `grep` selects. A line is selected if the expression describes a part of it, or with `-x` all of it, and
with `-v` if not. With `-m` the lines that are selected are the first ones of those that would be. -/

namespace CompileFail.Utility.Grep

open Regex (Node)

variable {o : Options} {node : Node} {groups : Nat} {ignoreCase : Bool} {line s : Octets} {lines : List Octets}

/-! ### One line -/

section Line

variable (hregex : o.regex = Regex.ofNode node groups ignoreCase) (hnode : node.Plain)

include hregex hnode

theorem selects_iff (hwhole : o.has 'x' = false) (hword : o.has 'w' = false) : o.selects line = true ↔
    ((∃ i j, i ≤ line.length ∧ node.Describes ignoreCase line i j) ↔ o.has 'v' = false) := by
  have hfind : o.findFrom line (line.length + 1) 0 = o.regex.search line 0 := by
    rw [Options.findFrom]
    cases o.regex.search line 0 with
    | none => rfl
    | some f => simp [hwhole, hword]
  have hin : (o.regex.search line 0).isSome = true ↔
      ∃ i j, i ≤ line.length ∧ node.Describes ignoreCase line i j := by
    rw [hregex]
    exact Regex.isIn_iff hnode
  rw [Options.selects, hfind, ← hin]
  cases (o.regex.search line 0).isSome <;> cases o.has 'v' <;> simp

/-- An expression that describes all of a line describes no more of it from its start on, and nothing that starts
before. So what is found is all of the line. -/
theorem selects_whole_iff (hwhole : o.has 'x' = true) : o.selects line = true ↔
    (node.Describes ignoreCase line 0 line.length ↔ o.has 'v' = false) := by
  have hfind : (o.findFrom line (line.length + 1) 0).isSome = true ↔
      node.Describes ignoreCase line 0 line.length := by
    rw [Options.findFrom, hregex]
    rcases Regex.search_cases hnode groups ignoreCase (Nat.zero_le line.length) with
      ⟨f, hf, hfinds⟩ | ⟨hnone, hnothing⟩
    · rw [hf]
      simp only [hwhole, if_true]
      split
      · next hall =>
        obtain ⟨hstart, hfinish⟩ := hall
        exact ⟨fun _ => hstart ▸ hfinish ▸ hfinds.describes, fun _ => rfl⟩
      · next hpart =>
        refine ⟨nofun, fun hdescribes => absurd ?_ hpart⟩
        have hstart : f.start = 0 :=
          Nat.eq_zero_of_not_pos fun hpos => hfinds.first 0 (Nat.le_refl 0) hpos _ hdescribes
        exact ⟨hstart, Nat.le_antisymm (hfinds.describes.le_length hfinds.start_le)
          (hfinds.longest _ (hstart ▸ hdescribes))⟩
    · rw [hnone]
      exact ⟨nofun, fun hdescribes => absurd hdescribes (hnothing 0 (Nat.le_refl 0) (Nat.zero_le _) _)⟩
  rw [Options.selects, ← hfind]
  cases (o.findFrom line (line.length + 1) 0).isSome <;> cases o.has 'v' <;> simp

end Line

/-! ### The lines of a file -/

variable {number offset count : Nat} {row : Row}

/-- The rows of some lines, if it is known how many lines and characters stand in front of them and how many lines
have been selected there. -/
def Options.rowsFrom (o : Options) (number offset count : Nat) : List Octets → List Row
  | [] => []
  | line :: lines =>
    let selected := !o.most.any (count ≥ ·) && o.selects line
    ⟨line, number + 1, offset, selected⟩ ::
      o.rowsFrom (number + 1) (offset + line.length + 1) (if selected then count + 1 else count) lines

theorem rows_eq_rowsFrom (o : Options) (s : Octets) : o.rows s = o.rowsFrom 0 0 0 (piecesOf o.ending s) := by
  have hfold : ∀ (lines : List Octets) (front : List Row) (number offset count : Nat),
      ((lines.zipIdx number).foldl (fun state found =>
        let selected := !o.most.any (state.2.2 ≥ ·) && o.selects found.1
        (Row.mk found.1 (found.2 + 1) state.2.1 selected :: state.1, state.2.1 + found.1.length + 1,
          if selected then state.2.2 + 1 else state.2.2)) (front, offset, count)).1.reverse =
        front.reverse ++ o.rowsFrom number offset count lines := by
    intro lines
    induction lines with
    | nil => simp [Options.rowsFrom]
    | cons line lines ih =>
        intro front number offset count
        rw [List.zipIdx_cons, List.foldl_cons, ih, List.reverse_cons, List.append_assoc, Options.rowsFrom]
        rfl
  exact hfold (piecesOf o.ending s) [] 0 0 0

/-- A file has one row for each line. -/
theorem text_rows (o : Options) (s : Octets) : (o.rows s).map Row.text = piecesOf o.ending s := by
  have hrows : ∀ lines number offset count, (o.rowsFrom number offset count lines).map Row.text = lines := by
    intro lines
    induction lines with
    | nil => exact fun _ _ _ => rfl
    | cons line lines ih => exact fun _ _ _ => congrArg (line :: ·) (ih _ _ _)
  rw [rows_eq_rowsFrom]
  exact hrows _ 0 0 0

theorem prefix_of_mem_rowsFrom (h : row ∈ o.rowsFrom number offset count lines) :
    offset ≤ row.offset ∧ row.text ++ [o.ending] <+: (endAll o.ending lines).drop (row.offset - offset) := by
  induction lines generalizing number offset count with
  | nil => exact absurd h List.not_mem_nil
  | cons line lines ih =>
      have hlines : endAll o.ending (line :: lines) = line ++ [o.ending] ++ endAll o.ending lines :=
        List.flatMap_cons
      rw [hlines]
      rcases List.mem_cons.mp h with rfl | h
      · refine ⟨Nat.le_refl _, ?_⟩
        rw [Nat.sub_self]
        exact List.prefix_append _ _
      · obtain ⟨hle, hprefix⟩ := ih h
        refine ⟨by omega, ?_⟩
        have hoffset : row.offset - offset =
            (line ++ [o.ending]).length + (row.offset - (offset + line.length + 1)) := by
          rw [List.length_append, List.length_singleton]
          omega
        rwa [hoffset, List.drop_length_add_append]

/-- At the offset of a row the text goes on with its line. -/
theorem prefix_of_mem_rows (h : row ∈ o.rows s) : row.text <+: s.drop row.offset := by
  rw [rows_eq_rowsFrom] at h
  have hprefix := (prefix_of_mem_rowsFrom h).2
  rw [Nat.sub_zero] at hprefix
  rcases endAll_piecesOf o.ending s with hs | hs
  · rw [hs] at hprefix
    exact (List.prefix_append _ _).trans hprefix
  · rw [hs] at hprefix
    have hlength := hprefix.length_le
    rw [List.length_append, List.length_singleton, List.length_drop, List.length_append,
      List.length_singleton] at hlength
    rw [List.drop_append_of_le_length (by omega)] at hprefix
    refine List.prefix_of_prefix_length_le ((List.prefix_append _ _).trans hprefix) (List.prefix_append _ _) ?_
    rw [List.length_drop]
    omega

/-- The rows that are selected are those of the lines that are, or with a limit of the first of them. -/
theorem selected_rows (o : Options) (s : Octets) :
    ((o.rows s).filter (·.selected)).map Row.text =
      o.most.elim ((piecesOf o.ending s).filter o.selects) ((piecesOf o.ending s).filter o.selects).take := by
  have hrows : ∀ lines number offset count,
      ((o.rowsFrom number offset count lines).filter (·.selected)).map Row.text =
        o.most.elim (lines.filter o.selects) fun most => (lines.filter o.selects).take (most - count) := by
    intro lines
    induction lines with
    | nil =>
        intro number offset count
        cases o.most with
        | none => rfl
        | some most => exact List.take_nil.symm
    | cons line lines ih =>
        intro number offset count
        rw [Options.rowsFrom]
        cases hmost : o.most with
        | none => cases hline : o.selects line <;> simp [hmost, hline, ih]
        | some most =>
            by_cases hfull : most ≤ count
            · have hzero : most - count = 0 := Nat.sub_eq_zero_of_le hfull
              simp [hmost, hfull, ih, hzero]
            · have hmore : most - count = most - (count + 1) + 1 := by omega
              cases hline : o.selects line <;> simp [hmost, hfull, hline, ih, hmore]
  rw [rows_eq_rowsFrom]
  exact hrows _ 0 0 0

end CompileFail.Utility.Grep
