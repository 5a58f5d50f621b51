import CompileFail.Proofs.Blank
import CompileFail.Proofs.CarriageReturns
import CompileFail.Proofs.Judgement
import Mathlib.Logic.Relation

/-! What of a compiler's output a verdict rests on. Of the lines that hold something the first one counts, or the
second if the first repeats the name of the file. So nothing changes when the text behind the first line is
another one, when the output is written with carriage returns, when lines of blanks come in between, or when the
name of the file is put in front. -/

namespace CompileFail

namespace Text

variable {front gap rest s line : Text} {c : Char}

theorem isBlank_of_mem_terminator (hc : c ∈ (splitTerminator line).2) : isBlank c = true := by
  have hall : ∀ terminator ∈ [(['\r', '\n'] : Text), ['\n'], []], terminator.all isBlank = true := by decide
  refine List.all_eq_true.mp (hall (splitTerminator line).2 ?_) c hc
  unfold splitTerminator
  split <;> simp

theorem trim_splitTerminator (line : Text) : trim (splitTerminator line).1 = trim line := by
  conv => rhs; rw [← splitTerminator_append line]
  exact (trim_append_blank fun c => isBlank_of_mem_terminator).symm

theorem asciiLower_eq_of_eqIgnoreCase {t : Text} (h : eqIgnoreCase s t = true) : asciiLower s = asciiLower t := by
  rwa [eqIgnoreCase, beq_iff_eq] at h

/-- The case of letters has no part in which characters are blanks. -/
theorem isBlank_of_map_toLower {o o' : Option Char} (hsame : o.map Char.toLower = o'.map Char.toLower)
    (h : ∀ c ∈ o', isBlank c = false) : ∀ c ∈ o, isBlank c = false := by
  intro c hc
  rw [Option.mem_def.mp hc] at hsame
  obtain ⟨d, hd, hlower⟩ := Option.map_eq_some_iff.mp hsame.symm
  rw [← isBlank_toLower, ← hlower, isBlank_toLower]
  exact h d hd

theorem trim_of_eqIgnoreCase {t : Text} (hsame : eqIgnoreCase s t = true) (htrim : trim t = t) :
    trim s = s := by
  have hmap : s.map Char.toLower = t.map Char.toLower := asciiLower_eq_of_eqIgnoreCase hsame
  obtain ⟨hhead, hlast⟩ := trim_eq_self_iff.mp htrim
  refine trim_eq_self_iff.mpr ⟨isBlank_of_map_toLower ?_ hhead, isBlank_of_map_toLower ?_ hlast⟩
  · rw [← List.head?_map, hmap, List.head?_map]
  · rw [← List.getLast?_map, hmap, List.getLast?_map]

end Text

namespace Diagnostic

open Text

variable {output front gap rest left echo right name : Text} {c : Char}

/-- The lines of an output that hold something. -/
def printedLines (output : Text) : List Text := (lines output).filter (!isBlankText ·)

theorem printedLines_append (hfront : EndsLine front) (s : Text) :
    printedLines (front ++ s) = printedLines front ++ printedLines s := by
  rw [printedLines, lines_append hfront, List.filter_append, printedLines, printedLines]

theorem printedLines_of_blank (hgap : ∀ c ∈ gap, isBlank c = true) : printedLines gap = [] := by
  rw [printedLines, List.filter_eq_nil_iff]
  intro line hline
  obtain ⟨full, hfull, rfl⟩ := List.mem_map.mp hline
  have hall : ∀ c ∈ (splitTerminator full).1, isBlank c = true := by
    intro c hc
    apply hgap
    apply mem_of_mem_splitLines hfull
    rw [← splitTerminator_append full]
    exact List.mem_append_left _ hc
  simpa [isBlankText] using hall

theorem printedLines_ne_nil (hc : c ∈ front) (hblank : isBlank c = false) : printedLines front ≠ [] := by
  rw [← flatten_splitLines front] at hc
  obtain ⟨full, hfull, hc⟩ := List.mem_flatten.mp hc
  rw [← splitTerminator_append full, List.mem_append] at hc
  have hbody : c ∈ (splitTerminator full).1 := by
    refine hc.resolve_right fun hend => ?_
    rw [isBlank_of_mem_terminator hend] at hblank
    cases hblank
  have hprinted : (splitTerminator full).1 ∈ printedLines front := by
    rw [printedLines, List.mem_filter]
    refine ⟨List.mem_map_of_mem hfull, ?_⟩
    rw [Bool.not_eq_true', ← Bool.not_eq_true, isBlankText, List.all_eq_true]
    intro hall
    rw [hall c hbody] at hblank
    cases hblank
  exact List.ne_nil_of_mem hprinted

/-- The line of the first diagnostic in an output that does not start with the name of the file. -/
theorem firstLine?_of_not_echoed
    (hfirst : ∀ first ∈ (printedLines output).head?, eqIgnoreCase (trim first) name = false) :
    firstLine? output name = (printedLines output).head? := by
  rw [firstLine?, ← printedLines]
  cases hlines : printedLines output with
  | nil => rfl
  | cons first rest =>
      rw [hlines] at hfirst
      simp [hfirst first rfl]

/-! ### Changes to an output -/

/-- A change to an output that keeps its first line. -/
inductive Retouched : Text → Text → Prop
  /-- Behind a line that holds something, or a later one, other text follows. -/
  | replaced {front rest rest' : Text} (hfront : ∃ c ∈ front, isBlank c = false) :
      Retouched (front ++ '\n' :: rest) (front ++ '\n' :: rest')
  /-- Each line feed gets a carriage return. -/
  | returned {output : Text} (hplain : '\r' ∉ output) : Retouched output (withReturns output)
  /-- Lines of blanks come in between two lines or to the front. -/
  | spaced {front gap rest : Text} (hfront : EndsLine front) (hgap : ∀ c ∈ gap, isBlank c = true)
      (hends : EndsLine gap) : Retouched (front ++ rest) (front ++ gap ++ rest)

/-- The name of a file is put on a line of its own in front of an output, whatever the case of its letters and
whatever blanks stand around it. -/
inductive Echoed (name output : Text) : Text → Prop
  | intro {left echo right : Text} (hleft : ∀ c ∈ left, isBlank c = true)
      (hecho : eqIgnoreCase echo name = true) (hright : ∀ c ∈ right, isBlank c = true)
      (hline : '\n' ∉ left ++ (echo ++ right)) :
      Echoed name output (left ++ (echo ++ right) ++ '\n' :: output)

/-- An output after any number of changes that keep its first line, and then perhaps with the name of the file
in front. -/
def Reworded (name output output' : Text) : Prop :=
  ∃ retouched, Relation.ReflTransGen Retouched output retouched ∧
    (output' = retouched ∨ Echoed name retouched output')

theorem head?_printedLines_of_retouched {output' : Text} (h : Retouched output output') :
    (printedLines output').head? = (printedLines output).head? := by
  cases h with
  | @replaced front rest rest' hfront =>
      obtain ⟨c, hc, hblank⟩ := hfront
      have hne : printedLines (front ++ ['\n']) ≠ [] :=
        printedLines_ne_nil (List.mem_append_left _ hc) hblank
      have hhead : ∀ s, (printedLines (front ++ '\n' :: s)).head? = (printedLines (front ++ ['\n'])).head? := by
        intro s
        rw [List.append_cons, printedLines_append (endsLine_feed front), List.head?_append_of_ne_nil _ hne]
      exact (hhead rest').trans (hhead rest).symm
  | returned hplain => rw [printedLines, lines_withReturns hplain, printedLines]
  | @spaced front gap rest hfront hgap hends =>
      rw [List.append_assoc, printedLines_append hfront, printedLines_append hends, printedLines_of_blank hgap,
        List.nil_append, ← printedLines_append hfront]

theorem head?_printedLines_of_reflTransGen {output' : Text}
    (h : Relation.ReflTransGen Retouched output output') :
    (printedLines output').head? = (printedLines output).head? := by
  induction h with
  | refl => rfl
  | tail _ hstep ih => exact (head?_printedLines_of_retouched hstep).trans ih

/-- A name in front of an output stands on a line of its own. -/
theorem Echoed.exists_lines {output' : Text} (hname : trim name = name) (h : Echoed name output output') :
    ∃ first, lines output' = first :: lines output ∧ eqIgnoreCase (trim first) name = true := by
  obtain @⟨left, echo, right, hleft, hecho, hright, hline⟩ := h
  have hfeed : ∀ c ∈ ['\n'], isBlank c = true := List.all_eq_true.mp (by decide)
  refine ⟨(splitTerminator (left ++ (echo ++ right) ++ ['\n'])).1, ?_, ?_⟩
  · rw [lines, splitLines_append_feed hline, List.map_cons, lines]
  · rw [trim_splitTerminator, trim_append_blank hfeed,
      trim_padded hleft hright (trim_of_eqIgnoreCase hecho hname)]
    exact hecho

/-- Such a line is passed over, as the echo or, if the name has no characters, as one that holds nothing. -/
theorem firstLine?_of_echoed {output' : Text} (hname : trim name = name)
    (hfirst : ∀ first ∈ (printedLines output).head?, eqIgnoreCase (trim first) name = false)
    (h : Echoed name output output') : firstLine? output' name = (printedLines output).head? := by
  obtain ⟨first, hlines, hecho⟩ := h.exists_lines hname
  rw [firstLine?, hlines]
  by_cases hblank : isBlankText first = true
  · rw [List.filter_cons_of_neg (by simp [hblank])]
    exact firstLine?_of_not_echoed hfirst
  · rw [List.filter_cons_of_pos (by simpa using hblank)]
    simp only [hecho, if_true]
    rfl

theorem firstLine?_of_reworded {output' : Text} (hname : trim name = name)
    (hfirst : ∀ first ∈ (printedLines output).head?, eqIgnoreCase (trim first) name = false)
    (h : Reworded name output output') : firstLine? output' name = firstLine? output name := by
  obtain ⟨retouched, hretouched, hlast⟩ := h
  have hhead := head?_printedLines_of_reflTransGen hretouched
  have hfirst' : ∀ first ∈ (printedLines retouched).head?, eqIgnoreCase (trim first) name = false := by
    rwa [hhead]
  rw [firstLine?_of_not_echoed hfirst, ← hhead]
  rcases hlast with rfl | hechoed
  · exact firstLine?_of_not_echoed hfirst'
  · exact firstLine?_of_echoed hname hfirst' hechoed

end Diagnostic

namespace Verifier

open Diagnostic

theorem judge_congr_output {file copy : Path} {expected output' : Text} {compilation : Compilation}
    (h : firstLine? output' copy.shownName = firstLine? compilation.output copy.shownName) :
    judge file copy expected { compilation with output := output' } = judge file copy expected compilation := by
  simp only [judge, h]

/-- The verdict rests on the first line of the output that holds something. -/
theorem judge_of_reworded (file copy : Path) (expected output' : Text) (compilation : Compilation)
    (hname : Text.trim copy.shownName = copy.shownName)
    (hfirst : ∀ first ∈ (printedLines compilation.output).head?,
      Text.eqIgnoreCase (Text.trim first) copy.shownName = false)
    (h : Reworded copy.shownName compilation.output output') :
    judge file copy expected { compilation with output := output' } = judge file copy expected compilation :=
  judge_congr_output (firstLine?_of_reworded hname hfirst h)

/-- Other text behind the first line, then carriage returns, then a line of blanks, and the name in front. -/
theorem judge_of_reworded_pass :
    let copy : Path := ⟨"/p/a.t-1.cpp"⟩
    let compilation : Compilation := ⟨false, some 2, "a.cpp(1): error C2065: no f\nmore"⟩
    let output' : Text := " A.T-1.cpp\t\r\n\u3000\r\na.cpp(1): error C2065: no f\r\n\r\n"
    Text.trim copy.shownName = copy.shownName ∧
    (∀ first ∈ (printedLines compilation.output).head?,
      Text.eqIgnoreCase (Text.trim first) copy.shownName = false) ∧
    Reworded copy.shownName compilation.output output' ∧
    judge ⟨"/p/a.cpp"⟩ copy "no f" { compilation with output := output' } = .ok .pass := by
  intro copy compilation output'
  let front : Text := "a.cpp(1): error C2065: no f"
  let gap : Text := "\u3000\r\n"
  have hname : Text.trim copy.shownName = copy.shownName := by decide
  have hfirst : ∀ first ∈ (printedLines compilation.output).head?,
      Text.eqIgnoreCase (Text.trim first) copy.shownName = false := by decide
  have hreplaced : Retouched (front ++ '\n' :: "more".toList) (front ++ '\n' :: ['\n']) :=
    .replaced ⟨'a', by decide, by decide⟩
  have hreturned : Retouched (front ++ '\n' :: ['\n']) (Text.withReturns (front ++ '\n' :: ['\n'])) :=
    .returned (by decide)
  have hspaced : Retouched ([] ++ Text.withReturns (front ++ '\n' :: ['\n']))
      ([] ++ gap ++ Text.withReturns (front ++ '\n' :: ['\n'])) :=
    .spaced (Or.inl rfl) (List.all_eq_true.mp (by decide)) (Or.inr (by decide))
  have hechoed : Echoed copy.shownName ([] ++ gap ++ Text.withReturns (front ++ '\n' :: ['\n']))
      ([' '] ++ ("A.T-1.cpp".toList ++ ['\t', '\r']) ++ '\n' ::
        ([] ++ gap ++ Text.withReturns (front ++ '\n' :: ['\n']))) :=
    .intro (List.all_eq_true.mp (by decide)) (by decide) (List.all_eq_true.mp (by decide)) (by decide)
  have hreworded : Reworded copy.shownName (front ++ '\n' :: "more".toList)
      ([' '] ++ ("A.T-1.cpp".toList ++ ['\t', '\r']) ++ '\n' ::
        ([] ++ gap ++ Text.withReturns (front ++ '\n' :: ['\n']))) :=
    ⟨_, ((Relation.ReflTransGen.single hreplaced).tail hreturned).tail hspaced, Or.inr hechoed⟩
  have houtput : compilation.output = front ++ '\n' :: "more".toList := by decide
  have houtput' : output' = [' '] ++ ("A.T-1.cpp".toList ++ ['\t', '\r']) ++ '\n' ::
      ([] ++ gap ++ Text.withReturns (front ++ '\n' :: ['\n'])) := by decide
  rw [← houtput, ← houtput'] at hreworded
  have hjudge : judge ⟨"/p/a.cpp"⟩ copy "no f" compilation = .ok .pass := by decide
  exact ⟨hname, hfirst, hreworded,
    (judge_of_reworded ⟨"/p/a.cpp"⟩ copy "no f" output' compilation hname hfirst hreworded).trans hjudge⟩

end Verifier

end CompileFail
