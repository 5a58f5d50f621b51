import CompileFail.Proofs.CompilerName
import CompileFail.Proofs.Judgement
import CompileFail.Proofs.Lines
import CompileFail.Proofs.PathTitles
import CompileFail.Synthesis

/-! What is read from the output of a build. A refusal of the configuration is a sentence on one line, whatever
else stands there. The recipe comes from the only line that names the compiler: whether there is one, whether
it has the shape of a plain call, and where the program ends in it. Nothing else of the output matters, and a
plain call is always read. -/

namespace CompileFail

namespace Text

variable {sep : Char} {needle s before rest : Text}

/-! ### Lines -/

/-- The first piece of a split is what stands in front of the first separator. -/
theorem first_of_splitOn {piece : Text} {more : List Text} (h : splitOn sep s = piece :: more) :
    piece <+: s ∧ ∀ front, front <+: s → sep ∉ front → front <+: piece := by
  induction s generalizing piece more with
  | nil =>
      obtain ⟨rfl, -⟩ := List.cons.inj h
      exact ⟨List.prefix_rfl, fun front hfront _ => hfront⟩
  | cons c s ih =>
      rw [splitOn] at h
      split at h
      · next hc =>
        obtain ⟨rfl, -⟩ := List.cons.inj h
        refine ⟨List.nil_prefix, fun front hfront hsep => ?_⟩
        rcases List.prefix_cons_iff.mp hfront with rfl | ⟨tail, rfl, -⟩
        · exact List.prefix_rfl
        · exact absurd (hc ▸ List.mem_cons_self) hsep
      · split at h
        · next hnil => exact absurd hnil (Text.splitOn_eq sep s ▸ List.splitOn_ne_nil _ _)
        · next first others hcons =>
          obtain ⟨rfl, -⟩ := List.cons.inj h
          obtain ⟨hfirst, hlongest⟩ := ih hcons
          refine ⟨(List.prefix_cons_inj c).mpr hfirst, fun front hfront hsep => ?_⟩
          rcases List.prefix_cons_iff.mp hfront with rfl | ⟨tail, rfl, htail⟩
          · exact List.nil_prefix
          · exact (List.prefix_cons_inj c).mpr (hlongest tail htail fun h => hsep (List.mem_cons_of_mem _ h))

theorem splitOn_cons (sep c : Char) (s : Text) :
    ∃ piece more, splitOn sep (c :: s) = piece :: more ∧ more ⊆ splitOn sep s ∧
      ∀ other ∈ splitOn sep s, other ∈ more ∨ other <:+: piece := by
  rw [splitOn]
  split
  · exact ⟨[], _, rfl, List.Subset.refl _, fun other => Or.inl⟩
  · split
    · next hnil => exact absurd hnil (Text.splitOn_eq sep s ▸ List.splitOn_ne_nil _ _)
    · next first others hcons =>
      refine ⟨c :: first, others, rfl, hcons ▸ List.subset_cons_self _ _, fun other hother => ?_⟩
      rw [hcons] at hother
      rcases List.mem_cons.mp hother with rfl | hother
      · exact Or.inr (List.suffix_cons _ _).isInfix
      · exact Or.inl hother

/-- A piece without separators stands in the text exactly if it stands in one of its lines. -/
theorem infix_iff_exists_mem_splitOn (hsep : sep ∉ needle) :
    needle <:+: s ↔ ∃ piece ∈ splitOn sep s, needle <:+: piece := by
  induction s with
  | nil => simp [splitOn]
  | cons c s ih =>
      obtain ⟨first, more, hsplit, hmore, hkeep⟩ := splitOn_cons sep c s
      obtain ⟨hfirst, hlongest⟩ := first_of_splitOn hsplit
      rw [hsplit]
      constructor
      · intro h
        rcases List.infix_cons_iff.mp h with hstart | h
        · exact ⟨first, List.mem_cons_self, (hlongest needle hstart hsep).isInfix⟩
        · obtain ⟨piece, hpiece, hstands⟩ := ih.mp h
          rcases hkeep piece hpiece with hpiece | hpiece
          · exact ⟨piece, List.mem_cons_of_mem _ hpiece, hstands⟩
          · exact ⟨first, List.mem_cons_self, hstands.trans hpiece⟩
      · rintro ⟨piece, hpiece, hstands⟩
        rcases List.mem_cons.mp hpiece with rfl | hpiece
        · exact hstands.trans hfirst.isInfix
        · exact (ih.mpr ⟨piece, hmore hpiece, hstands⟩).trans (List.suffix_cons _ _).isInfix

theorem infix_of_mem_splitOn {piece : Text} (h : piece ∈ splitOn sep s) : piece <:+: s :=
  (infix_iff_exists_mem_splitOn (not_mem_of_mem_splitOn h)).mpr ⟨piece, h, List.infix_rfl⟩

/-! ### Searches -/

theorem exists_of_after? (h : after? needle s = some rest) : ∃ before, s = before ++ (needle ++ rest) := by
  induction s with
  | nil =>
      rw [after?] at h
      split at h
      · next hneedle =>
        obtain rfl := Option.some.inj h
        exact ⟨[], by rw [List.isEmpty_iff.mp hneedle]; rfl⟩
      · cases h
  | cons c s ih =>
      rw [after?] at h
      split at h
      · next hstart =>
        obtain ⟨tail, htail⟩ := List.isPrefixOf_iff_prefix.mp hstart
        rw [← htail, List.drop_left] at h
        obtain rfl := Option.some.inj h
        exact ⟨[], htail.symm⟩
      · obtain ⟨before, rfl⟩ := ih h
        exact ⟨c :: before, rfl⟩

/-- A search ends no later than at any given find. -/
theorem exists_after? (h : s = before ++ (needle ++ rest)) :
    ∃ rest', after? needle s = some rest' ∧ rest <:+ rest' := by
  induction s generalizing before with
  | nil =>
      rw [List.nil_eq_append_iff, List.append_eq_nil_iff] at h
      obtain ⟨-, rfl, rfl⟩ := h
      exact ⟨[], rfl, List.suffix_rfl⟩
  | cons c s ih =>
      rw [after?]
      split
      · refine ⟨_, rfl, ?_⟩
        have hlength : rest = (c :: s).drop (needle.length + before.length) := by
          rw [h, ← List.append_assoc, List.drop_left' (by rw [List.length_append, Nat.add_comm])]
        rw [hlength, ← List.drop_drop]
        exact List.drop_suffix _ _
      · next hstart =>
        cases before with
        | nil => exact absurd (List.isPrefixOf_iff_prefix.mpr ⟨rest, h.symm⟩) hstart
        | cons d before => exact ih (List.cons.inj h).2

theorem exists_splitOnce? (h : s = before ++ sep :: rest) :
    ∃ left rest', splitOnce? sep s = some (left, rest') ∧ rest <:+ rest' := by
  induction s generalizing before with
  | nil => simp at h
  | cons c s ih =>
      rw [splitOnce?]
      split
      · refine ⟨[], s, rfl, ?_⟩
        cases before with
        | nil => exact (List.cons.inj h).2 ▸ List.suffix_rfl
        | cons d before =>
            rw [(List.cons.inj h).2]
            exact (List.suffix_cons _ _).trans (List.suffix_append _ _)
      · next hc =>
        cases before with
        | nil => exact absurd (List.cons.inj h).1 hc
        | cons d before =>
            obtain ⟨left, rest', hsplit, hrest⟩ := ih (List.cons.inj h).2
            exact ⟨c :: left, rest', by rw [hsplit]; rfl, hrest⟩

end Text

namespace CompilerCall

open Text

/-- The sentence with which a build refuses a configuration. -/
def refusal (configuration platform : Text) : Text :=
  refusalStart ++ (configuration ++ '|' :: (platform ++ refusalEnd))

theorem refusal_infix_iff {line : Text} :
    (((after? refusalStart line).bind (splitOnce? '|')).any fun (_, rest) => contains refusalEnd rest) = true ↔
      ∃ configuration platform, refusal configuration platform <:+: line := by
  rw [Option.any_eq_true]
  constructor
  · rintro ⟨⟨configuration, rest⟩, hfind, hend⟩
    obtain ⟨behind, hbehind, hsplit⟩ := Option.bind_eq_some_iff.mp hfind
    obtain ⟨before, rfl⟩ := exists_of_after? hbehind
    obtain ⟨rfl, -⟩ := splitOnce?_eq_some_iff.mp hsplit
    obtain ⟨platform, after, rfl⟩ := contains_iff.mp hend
    exact ⟨configuration, platform, before, after, by simp [refusal]⟩
  · rintro ⟨configuration, platform, before, after, rfl⟩
    have hline : before ++ refusal configuration platform ++ after =
        before ++ (refusalStart ++ (configuration ++ '|' :: (platform ++ (refusalEnd ++ after)))) := by
      simp [refusal]
    obtain ⟨behind, hbehind, front, rfl⟩ := exists_after? hline
    rw [← List.append_assoc] at hbehind
    obtain ⟨left, rest, hsplit, hrest⟩ := exists_splitOnce? (s := front ++ configuration ++ '|' :: _) rfl
    refine ⟨(left, rest), Option.bind_eq_some_iff.mpr ⟨_, hbehind, hsplit⟩, contains_iff.mpr ?_⟩
    exact (show refusalEnd <:+: platform ++ (refusalEnd ++ after) from
      ⟨platform, after, List.append_assoc _ _ _⟩).trans hrest.isInfix

theorem refusesConfiguration_iff {output : Text} :
    refusesConfiguration output = true ↔
      ∃ configuration platform, '\n' ∉ configuration ∧ '\n' ∉ platform ∧
        refusal configuration platform <:+: output := by
  rw [refusesConfiguration, List.any_eq_true]
  simp only [refusal_infix_iff]
  constructor
  · rintro ⟨line, hline, configuration, platform, hstands⟩
    have hfeed : '\n' ∉ refusal configuration platform := fun h =>
      not_mem_of_mem_splitOn hline (hstands.subset h)
    simp only [refusal, List.mem_append, List.mem_cons, not_or] at hfeed
    have hline' := infix_of_mem_splitOn hline
    exact ⟨configuration, platform, hfeed.2.1, hfeed.2.2.2.1, hstands.trans hline'⟩
  · rintro ⟨configuration, platform, hconfiguration, hplatform, hstands⟩
    have hstart : '\n' ∉ refusalStart := by decide
    have hend : '\n' ∉ refusalEnd := by decide
    have hfeed : '\n' ∉ refusal configuration platform := by
      simp [refusal, hstart, hend, hconfiguration, hplatform]
    obtain ⟨line, hline, hstands⟩ := (infix_iff_exists_mem_splitOn hfeed).mp hstands
    exact ⟨line, hline, configuration, platform, hstands⟩

/-- The line names the compiler as a word of its own. -/
def NamesCompiler (line : Text) : Prop :=
  ∃ before name rest, line = before ++ (name ++ rest) ∧ NamedAt none before name rest

instance : DecidablePred NamesCompiler := fun _ => decidable_of_iff _ namesCompiler_iff

/-- The lines of an output that name the compiler. -/
def compilerLines (output : Text) : List Text := (Text.lines output).filter fun line => NamesCompiler line

theorem compilerLines_eq (output : Text) :
    compilerLines output = (Text.lines output).filter (namesCompiler none) := by
  refine List.filter_congr fun line _ => ?_
  rw [Bool.eq_iff_iff, decide_eq_true_iff]
  exact namesCompiler_iff.symm

/-- A call can be taken apart if it mentions the compiler and a source file once and starts with no quote. -/
structure IsPlain (sourceExtension line : Text) : Prop where
  compiler : occurrences compilerName (lowercase line) ≤ 1
  source : occurrences ('.' :: lowercase sourceExtension) (lowercase line) = 1
  quote : line.head? ≠ some '"'

/-- What the rules say about the recipe in an output. -/
inductive Transcribed (sourceExtension : Text) (projectDir : Path) (output : Text) : Except Fault Recipe → Prop
  | notFound (hnone : compilerLines output = []) :
      Transcribed sourceExtension projectDir output (.error .compilerCallNotFound)
  | ambiguous (hmany : 2 ≤ (compilerLines output).length) :
      Transcribed sourceExtension projectDir output
        (.error (.ambiguousCompilerCall (compilerLines output).length))
  | unrecognized {line : Text} (hone : compilerLines output = [line])
      (hshape : ¬IsPlain sourceExtension (trim line)) :
      Transcribed sourceExtension projectDir output (.error (.unrecognizedCompilerCall (trim line)))
  | recognized {line program rest : Text} (hone : compilerLines output = [line])
      (hshape : IsPlain sourceExtension (trim line)) (hcut : Cut none (trim line) program rest) :
      Transcribed sourceExtension projectDir output
        (.ok ⟨⟨program, (CommandLine.split (dropSource rest)).filter (!debugSwitches.contains ·) ++
          [syntaxSwitch]⟩, projectDir⟩)

section Line

variable {line output sourceExtension : Text} {projectDir : Path} {settings : Settings.Check}

theorem namesCompiler_of_mem_compilerLines (h : line ∈ compilerLines output) :
    namesCompiler none (trim line) = true ∧ '\n' ∉ trim line := by
  rw [compilerLines_eq, List.mem_filter] at h
  obtain ⟨hline, hnames⟩ := h
  obtain ⟨full, hfull, rfl⟩ := List.mem_map.mp hline
  have hfeed := not_mem_splitTerminator ((areLines_splitLines output).isLine hfull).feed_last
  exact ⟨namesCompiler_trim hnames, fun hmem => hfeed (trim_subset _ hmem)⟩

/-- A line that names the compiler can be cut behind it. -/
theorem exists_cut (h : line ∈ compilerLines output) : ∃ program rest, Cut none (trim line) program rest := by
  obtain ⟨hnames, hfeed⟩ := namesCompiler_of_mem_compilerLines h
  cases hsplit : splitProgram? none (trim line) with
  | none =>
      rw [splitProgram?_eq_none_iff hfeed, hnames] at hsplit
      cases hsplit
  | some cut => exact ⟨cut.1, cut.2, cut_of_splitProgram? hfeed hsplit⟩

theorem isPlain_iff (h : line ∈ compilerLines output) :
    IsPlain sourceExtension (trim line) ↔
      occurrences compilerName (lowercase (trim line)) = 1 ∧
        occurrences ('.' :: lowercase sourceExtension) (lowercase (trim line)) = 1 ∧
        (trim line).head? ≠ some '"' := by
  have hpos := occurrences_pos_of_namesCompiler (namesCompiler_of_mem_compilerLines h).1
  constructor
  · rintro ⟨hcompiler, hsource, hquote⟩
    exact ⟨Nat.le_antisymm hcompiler hpos, hsource, hquote⟩
  · rintro ⟨hcompiler, hsource, hquote⟩
    exact ⟨Nat.le_of_eq hcompiler, hsource, hquote⟩

theorem findLine_of_singleton (h : compilerLines output = [line]) : findLine output = .ok (trim line) := by
  rw [findLine, ← compilerLines_eq, h]

theorem ofOutput_of_transcribed {result : Except Fault Recipe}
    (h : Transcribed settings.sourceExtension projectDir output result) :
    Recipe.ofOutput settings projectDir output = result := by
  cases h with
  | notFound hnone =>
      rw [Recipe.ofOutput, findLine, ← compilerLines_eq, hnone]
      rfl
  | ambiguous hmany =>
      rw [Recipe.ofOutput, findLine, ← compilerLines_eq]
      match hlines : compilerLines output with
      | [] => simp [hlines] at hmany
      | [line] => simp [hlines] at hmany
      | first :: second :: more => rfl
  | @unrecognized line hone hshape =>
      rw [isPlain_iff (hone ▸ List.mem_singleton_self line)] at hshape
      rw [Recipe.ofOutput, findLine_of_singleton hone]
      simp only [bind, Except.bind, ofLine, trim_trim, if_neg hshape]
  | @recognized line program rest hone hshape hcut =>
      have hmem := hone ▸ List.mem_singleton_self line
      rw [isPlain_iff hmem] at hshape
      have hsplit := (splitProgram?_eq_some_iff (namesCompiler_of_mem_compilerLines hmem).2).mpr hcut
      rw [Recipe.ofOutput, findLine_of_singleton hone]
      simp only [bind, Except.bind, ofLine, trim_trim, if_pos hshape, hsplit]
      rfl

theorem exists_transcribed (sourceExtension : Text) (projectDir : Path) (output : Text) :
    ∃ result, Transcribed sourceExtension projectDir output result := by
  match hlines : compilerLines output with
  | [] => exact ⟨_, .notFound hlines⟩
  | first :: second :: more => exact ⟨_, .ambiguous (by simp [hlines])⟩
  | [line] =>
      by_cases hshape : IsPlain sourceExtension (trim line)
      · obtain ⟨program, rest, hcut⟩ := exists_cut (hlines ▸ List.mem_singleton_self line)
        exact ⟨_, .recognized hlines hshape hcut⟩
      · exact ⟨_, .unrecognized hlines hshape⟩

/-- The recipe is read from an output by the rules. -/
theorem ofOutput_eq_iff {result : Except Fault Recipe} :
    Recipe.ofOutput settings projectDir output = result ↔
      Transcribed settings.sourceExtension projectDir output result := by
  refine ⟨?_, ofOutput_of_transcribed⟩
  rintro rfl
  obtain ⟨result, h⟩ := exists_transcribed settings.sourceExtension projectDir output
  exact ofOutput_of_transcribed h ▸ h

theorem Transcribed.unique {result result' : Except Fault Recipe}
    (h : Transcribed sourceExtension projectDir output result)
    (h' : Transcribed sourceExtension projectDir output result') : result = result' := by
  have hread : Recipe.ofOutput { sourceExtension := sourceExtension } projectDir output = result :=
    ofOutput_of_transcribed h
  exact hread.symm.trans (ofOutput_of_transcribed h')

end Line

end CompilerCall

end CompileFail
