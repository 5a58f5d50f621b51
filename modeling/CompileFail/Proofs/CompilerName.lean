import CompileFail.CompilerCall
import CompileFail.Proofs.Blank
import Mathlib.Data.List.Infix

/-! The name of the compiler in a line. It is looked for in two ways: as a word of its own with its case left
aside, and as a piece of the line in small letters. The characters of the name have small forms of their own
wherever they stand and none of them is a blank. So a line that names the compiler still does so when it is
trimmed, the piece is there to be counted, and a program can be cut off. A line in which the piece is counted once
can be cut at one place only. -/

namespace CompileFail

namespace Text

variable {needle name front rest s : Text}

/-! ### Counting -/

theorem exists_go_eq_succ (skip : Nat) (h : needle <:+: s.drop skip) (hne : needle ≠ []) :
    ∃ count, occurrences.go needle skip s = count + 1 := by
  induction s generalizing skip with
  | nil =>
      rw [List.drop_nil, List.infix_nil] at h
      exact absurd h hne
  | cons c s ih =>
      cases skip with
      | succ skip =>
          rw [occurrences.go]
          exact ih skip h
      | zero =>
          rw [occurrences.go]
          split
          · exact ⟨_, rfl⟩
          · next hstart =>
            rw [List.drop_zero, List.infix_cons_iff, ← List.isPrefixOf_iff_prefix] at h
            exact ih 0 (h.resolve_left hstart)

theorem occurrences_pos (h : needle <:+: s) (hne : needle ≠ []) : 0 < occurrences needle s := by
  obtain ⟨count, hcount⟩ := exists_go_eq_succ 0 h hne
  rw [occurrences, hcount]
  exact Nat.succ_pos _

/-- A find that ends before another one starts is not the only one that is counted. -/
theorem two_le_go (skip : Nat) (h : s.drop skip = front ++ (needle ++ rest)) (hagain : needle <:+: rest)
    (hne : needle ≠ []) : 2 ≤ occurrences.go needle skip s := by
  induction s generalizing skip front with
  | nil =>
      rw [List.drop_nil, List.nil_eq_append_iff, List.append_eq_nil_iff] at h
      exact absurd h.2.1 hne
  | cons c s ih =>
      cases skip with
      | succ skip =>
          rw [occurrences.go]
          exact ih skip h
      | zero =>
          rw [List.drop_zero] at h
          rw [occurrences.go]
          split
          · -- The first find ends no later than the given one, so the other one is still ahead.
            have hlength : needle.length - 1 + 1 = needle.length :=
              Nat.sub_add_cancel (List.length_pos_of_ne_nil hne)
            have hbehind : rest <:+ s.drop (needle.length - 1) := by
              have hdrop : s.drop (needle.length - 1) = (c :: s).drop needle.length := by
                rw [← hlength, List.drop_succ_cons, hlength]
              have hrest : rest = (c :: s).drop (needle.length + front.length) := by
                rw [h, ← List.append_assoc, List.drop_left' (by rw [List.length_append, Nat.add_comm])]
              rw [hdrop, hrest, ← List.drop_drop]
              exact List.drop_suffix _ _
            obtain ⟨count, hcount⟩ := exists_go_eq_succ (needle.length - 1) (hagain.trans hbehind.isInfix) hne
            rw [hcount]
            omega
          · next hstart =>
            cases front with
            | nil => exact absurd (List.isPrefixOf_iff_prefix.mpr ⟨rest, h.symm⟩) hstart
            | cons d front => exact ih 0 (List.cons.inj h).2

theorem two_le_occurrences (h : s = front ++ (needle ++ rest)) (hagain : needle <:+: rest) (hne : needle ≠ []) :
    2 ≤ occurrences needle s :=
  two_le_go 0 h hagain hne

/-! ### Small letters -/

theorem toNat_lt_of_toLower {c : Char} (h : c.toLower.toNat < 0x80) : c.toNat < 0x80 := by
  by_contra hc
  exact hc (toLower_eq_self hc ▸ h)

theorem lowerAt_of_ascii {c : Char} (hc : c.toNat < 0x80) (before after : Text) :
    lowerAt before c after = [c.toLower] := by
  have hdotted : c ≠ '\u0130' := by
    rintro rfl
    exact absurd hc (by decide)
  have hsigma : c ≠ '\u03A3' := by
    rintro rfl
    exact absurd hc (by decide)
  rw [lowerAt, if_neg hdotted, if_neg hsigma, lowerChar, if_pos hc]

theorem go_append_of_ascii (hname : ∀ c ∈ name, c.toNat < 0x80) (before after : Text) :
    lowercase.go before (name ++ after) = asciiLower name ++ lowercase.go (name.reverse ++ before) after := by
  induction name generalizing before with
  | nil => rfl
  | cons c name ih =>
      rw [List.forall_mem_cons] at hname
      rw [List.cons_append, lowercase.go, lowerAt_of_ascii hname.1, ih hname.2, List.reverse_cons,
        List.append_assoc]
      rfl

theorem go_suffix (before front after : Text) :
    lowercase.go (front.reverse ++ before) after <:+ lowercase.go before (front ++ after) := by
  induction front generalizing before with
  | nil => exact List.suffix_rfl
  | cons c front ih =>
      rw [List.cons_append, lowercase.go, List.reverse_cons, List.append_assoc]
      exact (ih (c :: before)).trans (List.suffix_append _ _)

/-- A piece without letters of other scripts is found in the small form of the text by its own small form. -/
theorem asciiLower_infix_go (hname : ∀ c ∈ name, c.toNat < 0x80) (seen before after : Text) :
    asciiLower name <:+: lowercase.go seen (before ++ (name ++ after)) := by
  have hsuffix := go_suffix seen before (name ++ after)
  rw [go_append_of_ascii hname] at hsuffix
  exact (List.prefix_append _ _).isInfix.trans hsuffix.isInfix

end Text

namespace CompilerCall

open Text

variable {previous : Option Char} {s before name name' mid rest rest' program : Text}

/-- The name of the compiler stands as a word of its own between `before` and `rest`. -/
structure NamedAt (previous : Option Char) (before name rest : Text) : Prop where
  eqIgnoreCase : eqIgnoreCase name compilerName = true
  endsOutsideWord : endsOutsideWord (previous.toList ++ before) = true
  startsOutsideWord : startsOutsideWord rest = true

theorem asciiLower_of_eqIgnoreCase (h : eqIgnoreCase name compilerName = true) :
    asciiLower name = compilerName := by
  rw [Text.eqIgnoreCase, beq_iff_eq] at h
  exact h

theorem length_of_eqIgnoreCase (h : eqIgnoreCase name compilerName = true) :
    name.length = compilerName.length := by
  rw [← asciiLower_of_eqIgnoreCase h, asciiLower, List.length_map]

theorem ne_nil_of_eqIgnoreCase (h : eqIgnoreCase name compilerName = true) : name ≠ [] := by
  rintro rfl
  cases h

/-- What the characters of the name have in common. -/
theorem ascii_of_eqIgnoreCase (h : eqIgnoreCase name compilerName = true) :
    ∀ c ∈ name, c.toNat < 0x80 ∧ isBlank c = false := by
  intro c hc
  have hlower : c.toLower ∈ compilerName := asciiLower_of_eqIgnoreCase h ▸ List.mem_map_of_mem hc
  have hsmall : compilerName.all (fun d => d.toNat < 0x80) = true := by decide
  have hascii := toNat_lt_of_toLower (of_decide_eq_true (List.all_eq_true.mp hsmall _ hlower))
  have hblank : c.toLower ∈ compilerName → isBlank c = false :=
    forall_of_ascii (p := fun c => c.toLower ∈ compilerName → isBlank c = false) (by decide) hascii
  exact ⟨hascii, hblank hlower⟩

/-! ### A line that names the compiler -/

theorem startsWithCompiler_iff :
    startsWithCompiler previous s = true ↔ ∃ name rest, s = name ++ rest ∧ NamedAt previous [] name rest := by
  have hprevious : Text.endsOutsideWord (previous.toList ++ []) = !previous.any isWordChar := by
    cases previous <;> rfl
  rw [startsWithCompiler, Bool.and_eq_true, Bool.and_eq_true]
  constructor
  · rintro ⟨⟨hbefore, hname⟩, hrest⟩
    exact ⟨_, _, (List.take_append_drop compilerName.length s).symm, hname, hprevious.trans hbefore, hrest⟩
  · rintro ⟨name, rest, rfl, h⟩
    rw [List.take_left' (length_of_eqIgnoreCase h.eqIgnoreCase),
      List.drop_left' (length_of_eqIgnoreCase h.eqIgnoreCase)]
    exact ⟨⟨hprevious.symm.trans h.endsOutsideWord, h.eqIgnoreCase⟩, h.startsOutsideWord⟩

theorem namedAt_cons_iff {c : Char} :
    NamedAt previous (c :: before) name rest ↔ NamedAt (some c) before name rest := by
  have hends : Text.endsOutsideWord (previous.toList ++ c :: before) =
      Text.endsOutsideWord ((some c).toList ++ before) := by
    cases previous with
    | none => rfl
    | some d => simp [Text.endsOutsideWord]
  exact ⟨fun h => ⟨h.1, hends ▸ h.2, h.3⟩, fun h => ⟨h.1, hends.trans h.2, h.3⟩⟩

theorem namesCompiler_iff :
    namesCompiler previous s = true ↔
      ∃ before name rest, s = before ++ (name ++ rest) ∧ NamedAt previous before name rest := by
  induction s generalizing previous with
  | nil =>
      refine ⟨nofun, ?_⟩
      rintro ⟨before, name, rest, hnil, h⟩
      rw [List.nil_eq_append_iff, List.append_eq_nil_iff] at hnil
      exact absurd hnil.2.1 (ne_nil_of_eqIgnoreCase h.eqIgnoreCase)
  | cons c s ih =>
      rw [namesCompiler, Bool.or_eq_true, startsWithCompiler_iff, ih]
      constructor
      · rintro (⟨name, rest, heq, h⟩ | ⟨before, name, rest, rfl, h⟩)
        · exact ⟨[], name, rest, heq, h⟩
        · exact ⟨c :: before, name, rest, rfl, namedAt_cons_iff.mpr h⟩
      · rintro ⟨before, name, rest, heq, h⟩
        cases before with
        | nil => exact Or.inl ⟨name, rest, heq, h⟩
        | cons d before =>
            obtain ⟨rfl, rfl⟩ := List.cons.inj heq
            exact Or.inr ⟨before, name, rest, rfl, namedAt_cons_iff.mp h⟩

/-- A line that names the compiler has its small form in the line in small letters. -/
theorem occurrences_pos_of_namesCompiler (h : namesCompiler none s = true) :
    0 < occurrences compilerName (lowercase s) := by
  obtain ⟨before, name, rest, rfl, hnamed⟩ := namesCompiler_iff.mp h
  have hinfix := asciiLower_infix_go (fun c hc => (ascii_of_eqIgnoreCase hnamed.eqIgnoreCase c hc).1) [] before rest
  rw [asciiLower_of_eqIgnoreCase hnamed.eqIgnoreCase] at hinfix
  exact occurrences_pos hinfix (by decide)

/-- Trimming a line does not take the name of the compiler away. -/
theorem namesCompiler_trim (h : namesCompiler none s = true) : namesCompiler none (trim s) = true := by
  obtain ⟨before, name, rest, hs, hnamed⟩ := namesCompiler_iff.mp h
  obtain ⟨before', rest', htrim, hbefore, hrest⟩ := exists_trim_eq hs (ne_nil_of_eqIgnoreCase hnamed.eqIgnoreCase)
    fun c hc => (ascii_of_eqIgnoreCase hnamed.eqIgnoreCase c hc).2
  refine namesCompiler_iff.mpr ⟨before', name, rest', htrim, hnamed.eqIgnoreCase, ?_, ?_⟩
  · have hends := hnamed.endsOutsideWord
    rcases List.eq_nil_or_concat before' with rfl | ⟨front, last, rfl⟩
    · rfl
    · obtain ⟨left, rfl⟩ := hbefore
      simpa [Text.endsOutsideWord] using hends
  · have hstarts := hnamed.startsOutsideWord
    cases rest' with
    | nil => rfl
    | cons c rest' =>
        obtain ⟨right, rfl⟩ := hrest
        exact hstarts

/-- One name of the compiler cannot start inside another one. -/
theorem apart_of_eqIgnoreCase (hname : eqIgnoreCase name compilerName = true)
    (hname' : eqIgnoreCase name' compilerName = true) (h : name ++ rest = mid ++ (name' ++ rest')) (hmid : mid ≠ []) :
    ∃ gap, rest = gap ++ (name' ++ rest') := by
  rcases List.append_eq_append_iff.mp h with ⟨gap, -, hrest⟩ | ⟨inner, hinner, hstart⟩
  · exact ⟨gap, hrest⟩
  · cases inner with
    | nil => exact ⟨[], hstart.symm⟩
    | cons c inner =>
        have hlower : asciiLower mid ++ c.toLower :: asciiLower inner = compilerName := by
          rw [← asciiLower_of_eqIgnoreCase hname, hinner]
          simp [asciiLower]
        have hfirst : c.toLower = 'c' := by
          obtain ⟨d, tail, rfl⟩ := List.exists_cons_of_ne_nil (ne_nil_of_eqIgnoreCase hname')
          obtain ⟨rfl, -⟩ := List.cons.inj hstart
          exact (List.cons.inj (asciiLower_of_eqIgnoreCase hname')).1
        obtain ⟨d, front, rfl⟩ := List.exists_cons_of_ne_nil hmid
        have htail : 'c' ∈ compilerName.tail := by
          rw [← hlower, hfirst]
          exact List.mem_append_right _ List.mem_cons_self
        exact absurd htail (by decide)

/-- Two names of the compiler one behind the other are both counted. -/
theorem two_le_of_names (before gap rest : Text) (hname : eqIgnoreCase name compilerName = true)
    (hname' : eqIgnoreCase name' compilerName = true) :
    2 ≤ occurrences compilerName (lowercase (before ++ (name ++ (gap ++ (name' ++ rest))))) := by
  have hascii := fun c hc => (ascii_of_eqIgnoreCase hname c hc).1
  have hascii' := fun c hc => (ascii_of_eqIgnoreCase hname' c hc).1
  obtain ⟨front, hfront⟩ := go_suffix [] before (name ++ (gap ++ (name' ++ rest)))
  rw [go_append_of_ascii hascii, asciiLower_of_eqIgnoreCase hname] at hfront
  refine two_le_occurrences hfront.symm ?_ (by decide)
  rw [← asciiLower_of_eqIgnoreCase hname']
  exact asciiLower_infix_go hascii' _ gap rest

/-! ### Cutting the program off -/

/-- The line is cut behind the last place at which it names the compiler. -/
structure Cut (previous : Option Char) (s program rest : Text) : Prop where
  line : s = program ++ rest
  named : ∃ before name, program = before ++ name ∧ NamedAt previous before name rest
  last : ∀ before name rest', s = before ++ (name ++ rest') → NamedAt previous before name rest' →
    (before ++ name).length ≤ program.length

theorem append_of_splitProgram? (h : splitProgram? previous s = some (program, rest)) : s = program ++ rest := by
  induction s generalizing previous program rest with
  | nil => cases h
  | cons c s ih =>
      rw [splitProgram?] at h
      split at h
      · cases h
      split at h
      · next front back hsplit =>
        obtain ⟨rfl, rfl⟩ := Prod.mk.inj (Option.some.inj h)
        exact congrArg (c :: ·) (ih hsplit)
      split at h
      · rw [List.splitAt_eq] at h
        obtain ⟨rfl, rfl⟩ := Prod.mk.inj (Option.some.inj h)
        exact (List.take_append_drop _ _).symm
      · cases h

theorem splitProgram?_eq_none_iff (hline : '\n' ∉ s) :
    splitProgram? previous s = none ↔ namesCompiler previous s = false := by
  induction s generalizing previous with
  | nil => simp [splitProgram?, namesCompiler]
  | cons c s ih =>
      rw [List.mem_cons, not_or] at hline
      have hrest : splitProgram? (some c) s = none ↔ _ := ih hline.2
      rw [splitProgram?, if_neg (Ne.symm hline.1), namesCompiler, Bool.or_eq_false_iff, ← hrest]
      cases splitProgram? (some c) s with
      | none => simp
      | some cut => simp

/-- A cut further on in the line is one of the whole line. -/
theorem Cut.cons {c : Char} (h : Cut (some c) s program rest) : Cut previous (c :: s) (c :: program) rest := by
  obtain ⟨rfl, ⟨before, name, rfl, hnamed⟩, hlast⟩ := h
  refine ⟨rfl, ⟨c :: before, name, rfl, namedAt_cons_iff.mpr hnamed⟩, ?_⟩
  intro other name' rest' heq hother
  cases other with
  | nil =>
      simp only [List.nil_append, List.length_cons, List.length_append,
        length_of_eqIgnoreCase hnamed.eqIgnoreCase, length_of_eqIgnoreCase hother.eqIgnoreCase]
      omega
  | cons d other =>
      obtain ⟨rfl, htail⟩ := List.cons.inj heq
      exact Nat.succ_le_succ (hlast other name' rest' htail (namedAt_cons_iff.mp hother))

/-- A line that starts with the compiler and does not name it again is cut behind its start. -/
theorem cut_of_namedAt_nil {c : Char} (hs : c :: s = name ++ rest) (hnamed : NamedAt previous [] name rest)
    (hnone : namesCompiler (some c) s = false) : Cut previous (c :: s) name rest := by
  refine ⟨hs, ⟨[], name, rfl, hnamed⟩, ?_⟩
  intro other name' rest' heq hother
  cases other with
  | nil =>
      rw [List.nil_append, length_of_eqIgnoreCase hnamed.eqIgnoreCase,
        length_of_eqIgnoreCase hother.eqIgnoreCase]
  | cons d other =>
      obtain ⟨rfl, htail⟩ := List.cons.inj heq
      rw [namesCompiler_iff.mpr ⟨other, name', rest', htail, namedAt_cons_iff.mp hother⟩] at hnone
      cases hnone

theorem cut_of_splitProgram? (hline : '\n' ∉ s) (h : splitProgram? previous s = some (program, rest)) :
    Cut previous s program rest := by
  induction s generalizing previous program rest with
  | nil => cases h
  | cons c s ih =>
      rw [List.mem_cons, not_or] at hline
      rw [splitProgram?, if_neg (Ne.symm hline.1)] at h
      split at h
      · next front back hsplit =>
        obtain ⟨rfl, rfl⟩ := Prod.mk.inj (Option.some.inj h)
        exact (ih hline.2 hsplit).cons
      · next hnone =>
        split at h
        · next hstart =>
          obtain ⟨name, back, hs, hnamed⟩ := startsWithCompiler_iff.mp hstart
          have hlength := length_of_eqIgnoreCase hnamed.eqIgnoreCase
          rw [List.splitAt_eq, hs, List.take_left' hlength, List.drop_left' hlength] at h
          obtain ⟨rfl, rfl⟩ := Prod.mk.inj (Option.some.inj h)
          exact cut_of_namedAt_nil hs hnamed ((splitProgram?_eq_none_iff hline.2).mp hnone)
        · cases h

theorem Cut.unique {program' rest' : Text} (h : Cut previous s program rest)
    (h' : Cut previous s program' rest') :
    program = program' ∧ rest = rest' := by
  obtain ⟨before, name, rfl, hnamed⟩ := h.named
  obtain ⟨before', name', rfl, hnamed'⟩ := h'.named
  have hle := h'.last before name rest (by rw [h.line, List.append_assoc]) hnamed
  have hge := h.last before' name' rest' (by rw [h'.line, List.append_assoc]) hnamed'
  exact List.append_inj (h.line.symm.trans h'.line) (Nat.le_antisymm hle hge)

/-- The program of a line that names the compiler can always be cut off. -/
theorem splitProgram?_eq_some_iff (hline : '\n' ∉ s) :
    splitProgram? previous s = some (program, rest) ↔ Cut previous s program rest := by
  refine ⟨cut_of_splitProgram? hline, fun h => ?_⟩
  cases hsplit : splitProgram? previous s with
  | none =>
      obtain ⟨before, name, rfl, hnamed⟩ := h.named
      have hs : s = before ++ (name ++ rest) := by rw [h.line, List.append_assoc]
      rw [splitProgram?_eq_none_iff hline, namesCompiler_iff.mpr ⟨before, name, rest, hs, hnamed⟩] at hsplit
      cases hsplit
  | some cut =>
      obtain ⟨rfl, rfl⟩ := (cut_of_splitProgram? hline hsplit).unique h
      rfl

/-- A line in which the name of the compiler is counted once is cut behind it. -/
theorem cut_of_once (hnamed : NamedAt none before name rest)
    (honce : occurrences compilerName (lowercase (before ++ name ++ rest)) = 1) :
    Cut none (before ++ name ++ rest) (before ++ name) rest := by
  refine ⟨rfl, ⟨before, name, rfl, hnamed⟩, fun other name' rest' hline hother => ?_⟩
  by_contra hlong
  rw [List.length_append, List.length_append, length_of_eqIgnoreCase hnamed.eqIgnoreCase,
    length_of_eqIgnoreCase hother.eqIgnoreCase] at hlong
  rw [List.append_assoc] at hline honce
  rcases List.append_eq_append_iff.mp hline with ⟨mid, rfl, hrest⟩ | ⟨mid, rfl, -⟩
  · have hmid : mid ≠ [] := by
      rintro rfl
      simp at hlong
    obtain ⟨gap, rfl⟩ := apart_of_eqIgnoreCase hnamed.eqIgnoreCase hother.eqIgnoreCase hrest hmid
    have htwo := two_le_of_names before gap rest' hnamed.eqIgnoreCase hother.eqIgnoreCase
    omega
  · rw [List.length_append] at hlong
    omega

end CompilerCall

end CompileFail
