import CompileFail.Script.Field

/-! How words fall apart into fields. Splitting loses nothing but separators that stand loose. A value in quotes is one
field whatever it holds, so that several of them come out as they went in. A value without quotes whose separators
are blanks falls apart into its words. -/

namespace CompileFail.Script

variable {separators s rest word : Text} {words : List Text} {marks : List Mark} {state : Mark.Splitting}

/-- The characters of a text, all of them quoted or none. -/
def glyphsOf (quoted : Bool) (s : Text) : Pattern := s.map fun c => ⟨c, quoted⟩

namespace Mark

/-- A character that separates fields. -/
def separates (separators : Text) : Mark → Bool
  | .char c _ loose => loose && decide (c ∈ separators)
  | _ => false

/-- What a mark adds to the fields. -/
def kept (separators : Text) (mark : Mark) : Pattern :=
  match mark with
  | .char c quoted _ => if mark.separates separators then [] else [⟨c, quoted⟩]
  | _ => []

namespace Splitting

/-- All that has been put into fields. -/
def all (state : Splitting) : Pattern := state.done.flatten ++ state.current.getD []

theorem all_close (state : Splitting) : state.close.all = state.all := by
  unfold close
  split
  · next word hcurrent => simp [all, hcurrent]
  · rfl

theorem current_close (state : Splitting) : state.close.current = none := by
  unfold close
  split
  · rfl
  · next hcurrent => exact hcurrent

theorem all_add (mark : Mark) : (state.add separators mark).all = state.all ++ kept separators mark := by
  cases mark with
  | field => simp [add, all, kept]
  | gap => simpa [add, kept, all] using all_close state
  | char c quoted loose =>
      by_cases hseparates : (loose && decide (c ∈ separators)) = true
      · simp only [add, kept, separates, hseparates, if_true, List.append_nil]
        split
        · exact all_close state
        · split
          · rfl
          · simp [all]
      · simp only [add, kept, separates, hseparates, Bool.false_eq_true, if_false]
        simp [all]

end Splitting

/-- The fields hold what does not separate them, in its order. -/
theorem flatten_fields (separators : Text) (marks : List Mark) :
    (fields separators marks).flatten = marks.flatMap (kept separators) := by
  have hall : ∀ state : Splitting, (marks.foldl (Splitting.add separators) state).all =
      state.all ++ marks.flatMap (kept separators) := by
    induction marks with
    | nil => simp
    | cons mark marks ih =>
        intro state
        rw [List.foldl_cons, ih, Splitting.all_add, List.append_assoc, List.flatMap_cons]
  have hclosed := (Splitting.all_close (marks.foldl (Splitting.add separators) {})).trans (hall {})
  rw [Splitting.all, Splitting.current_close] at hclosed
  simpa [fields, Splitting.all] using hclosed

/-! ### Values in quotes -/

/-- Characters that do not separate go to the field that is being put together. -/
theorem foldl_chars {quoted loose : Bool} (hs : ∀ c ∈ s, loose = true → c ∉ separators) (hne : s ≠ []) :
    (s.map fun c => char c quoted loose).foldl (Splitting.add separators) state =
      { state with current := some (state.current.getD [] ++ glyphsOf quoted s), afterBlank := false } := by
  induction s generalizing state with
  | nil => exact absurd rfl hne
  | cons c s ih =>
      obtain ⟨hc, hs⟩ := List.forall_mem_cons.mp hs
      have hstep : state.add separators (.char c quoted loose) =
          { state with current := some (state.current.getD [] ++ [⟨c, quoted⟩]), afterBlank := false } := by
        rw [Splitting.add, if_neg (by simpa using hc)]
      rw [List.map_cons, List.foldl_cons, hstep]
      cases s with
      | nil => simp [glyphsOf]
      | cons d s => rw [ih hs (List.cons_ne_nil d s)]; simp [glyphsOf]

theorem foldl_quoted (separators s : Text) (hcurrent : state.current = none) :
    ∃ afterBlank, (ofValue true s).foldl (Splitting.add separators) state =
      { state with current := some (glyphsOf true s), afterBlank := afterBlank } := by
  rw [ofValue, if_pos rfl, List.foldl_append]
  cases s with
  | nil => exact ⟨state.afterBlank, by simp [Splitting.add, hcurrent, glyphsOf]⟩
  | cons c s =>
      refine ⟨false, ?_⟩
      rw [Bool.not_true, foldl_chars (by simp) (List.cons_ne_nil c s)]
      simp [Splitting.add, hcurrent]

/-- Values in quotes are each a field of its own, whatever they hold. -/
theorem fields_ofValues (separators : Text) (values : List Text) :
    fields separators (ofValues true values) = values.map (glyphsOf true) := by
  have hall : ∀ (values : List Text) (state : Splitting), state.current = none →
      ((ofValues true values).foldl (Splitting.add separators) state).close.done =
        state.done ++ values.map (glyphsOf true) := by
    intro values
    induction values with
    | nil => intro state hcurrent; simp [ofValues, Splitting.close, hcurrent]
    | cons value values ih =>
        intro state hcurrent
        obtain ⟨afterBlank, hvalue⟩ := foldl_quoted separators value hcurrent
        cases values with
        | nil => simp [ofValues, hvalue, Splitting.close]
        | cons next values =>
            have hsplit : ofValues true (value :: next :: values) =
                ofValue true value ++ [gap] ++ ofValues true (next :: values) := by
              simp [ofValues, List.intercalate_cons_cons]
            rw [hsplit, List.foldl_append, List.foldl_append, hvalue, ih _ (by simp [Splitting.add, Splitting.close])]
            simp [Splitting.add, Splitting.close]
  exact hall values {} rfl

/-! ### Values without quotes -/

/-- A blank that separates fields. -/
def IsGap (separators : Text) (c : Char) : Prop := (c = ' ' ∨ c = '\t' ∨ c = '\n') ∧ c ∈ separators

/-- A text is made of words with blanks between them, and perhaps around them. -/
inductive Spaced (separators : Text) : Text → List Text → Prop
  | blank {s : Text} (hs : ∀ c ∈ s, IsGap separators c) : Spaced separators s []
  | word {s word rest : Text} {words : List Text} (hs : ∀ c ∈ s, IsGap separators c)
    (hword : ∀ c ∈ word, c ∉ separators) (hne : word ≠ []) (hnext : ∀ c ∈ rest.head?, IsGap separators c)
    (hrest : Spaced separators rest words) : Spaced separators (s ++ word ++ rest) (word :: words)

/-- Blanks end the field that is being put together. -/
theorem foldl_blanks (state : Splitting) (hs : ∀ c ∈ s, IsGap separators c) (h : state.current = none ∨ s ≠ []) :
    ((s.map fun c => char c false true).foldl (Splitting.add separators) state).current = none ∧
      ((s.map fun c => char c false true).foldl (Splitting.add separators) state).done = state.close.done := by
  induction s generalizing state with
  | nil =>
      have hcurrent := h.resolve_right fun hne => hne rfl
      exact ⟨hcurrent, by simp [Splitting.close, hcurrent]⟩
  | cons c s ih =>
      obtain ⟨⟨hblank, hmem⟩, hs⟩ := List.forall_mem_cons.mp hs
      rw [List.map_cons, List.foldl_cons, Splitting.add, if_pos (by simpa using hmem), if_pos hblank]
      have hclosed := Splitting.current_close state
      obtain ⟨hcurrent, hdone⟩ := ih { state.close with
        afterBlank := state.afterBlank || state.current.isSome } hs (Or.inl hclosed)
      refine ⟨hcurrent, hdone.trans ?_⟩
      rw [Splitting.close]
      simp only [hclosed]

/-- A value without quotes falls apart into its words. The induction carries along what has been read before the
value, which ends where the value starts. -/
theorem fields_of_spaced (h : Spaced separators s words) :
    fields separators (ofValue false s) = words.map (glyphsOf false) := by
  have hall : ∀ state : Splitting, state.current = none ∨ (∀ c ∈ s.head?, IsGap separators c) →
      ((s.map fun c => char c false true).foldl (Splitting.add separators) state).close.done =
        state.close.done ++ words.map (glyphsOf false) := by
    induction h with
    | @blank s hs =>
        intro state _
        rw [List.map_nil, List.append_nil]
        by_cases hnil : s = []
        · rw [hnil, List.map_nil, List.foldl_nil]
        · obtain ⟨hcurrent, hdone⟩ := foldl_blanks state hs (Or.inr hnil)
          rw [Splitting.close, hcurrent]
          exact hdone
    | @word s word rest words hs hword hne hnext _ ih =>
        intro state hstate
        have hfront : state.current = none ∨ s ≠ [] := by
          rcases hstate with hcurrent | hhead
          · exact Or.inl hcurrent
          · refine Or.inr fun hnil => ?_
            obtain ⟨c, word, rfl⟩ := List.exists_cons_of_ne_nil hne
            rw [hnil] at hhead
            exact hword c List.mem_cons_self (hhead c rfl).2
        obtain ⟨hcurrent, hdone⟩ := foldl_blanks state hs hfront
        rw [List.map_append, List.map_append, List.foldl_append, List.foldl_append,
          foldl_chars (fun c hc _ => hword c hc) hne, ih _ (Or.inr hnext)]
        simp [Splitting.close, hcurrent, hdone]
  exact hall {} (Or.inl rfl)

/-- If all separators are blanks, every value is made of words with blanks between them. -/
theorem exists_spaced (hseparators : ∀ c ∈ separators, c = ' ' ∨ c = '\t' ∨ c = '\n') (s : Text) :
    ∃ words, Spaced separators s words := by
  induction s with
  | nil => exact ⟨[], .blank (by simp)⟩
  | cons c s ih =>
      obtain ⟨words, hspaced⟩ := ih
      by_cases hc : c ∈ separators
      · have hgap : IsGap separators c := ⟨hseparators c hc, hc⟩
        cases hspaced with
        | blank hs => exact ⟨[], .blank (List.forall_mem_cons.mpr ⟨hgap, hs⟩)⟩
        | word hs hword hne hnext hrest =>
            exact ⟨_, .word (List.forall_mem_cons.mpr ⟨hgap, hs⟩) hword hne hnext hrest⟩
      · have hone : ∀ d ∈ [c], d ∉ separators := by simpa using hc
        cases hspaced with
        | blank hs =>
            have hnext : ∀ d ∈ s.head?, IsGap separators d := fun d hd => hs d (List.mem_of_mem_head? hd)
            exact ⟨[[c]], .word (s := []) (by simp) hone (List.cons_ne_nil c []) hnext (.blank hs)⟩
        | @word s word rest words hs hword hne hnext hrest =>
            cases s with
            | nil =>
                have hlonger : ∀ d ∈ c :: word, d ∉ separators := List.forall_mem_cons.mpr ⟨hc, hword⟩
                exact ⟨_, .word (s := []) (by simp) hlonger (List.cons_ne_nil c word) hnext hrest⟩
            | cons d s =>
                have hgap : IsGap separators d := hs d List.mem_cons_self
                exact ⟨_, .word (s := []) (by simp) hone (List.cons_ne_nil c []) (by simpa using hgap)
                  (.word hs hword hne hnext hrest)⟩

end Mark

end CompileFail.Script
