import CompileFail.Proofs.BuildTranscript
import CompileFail.Proofs.QuotedArguments
import Mathlib.Algebra.Ring.Parity

/-! A call of the compiler as a build prints it: the program, the switches and at the end the source file. The
program is cut off behind the name of the compiler and the source file at the end of the text, before anything is
known about arguments. That comes to the same as splitting the rest of the line and dropping its last argument,
since the switches leave no quotation open and a blank stands in front of the source file. -/

namespace CompileFail

/-! ### Quotations -/

namespace CommandLine

variable {s : Text} {c : Char} {args : List Text}

/-- How many quotes of a text open or close a quotation, if `n` backslashes stand in front of it. Behind an odd
number of backslashes a quote is a character like others. -/
def delimiters (n : Nat) : Text → Nat
  | [] => 0
  | c :: s =>
    if c = '\\' then delimiters (n + 1) s
    else if c = '"' ∧ n % 2 = 0 then delimiters 0 s + 1
    else delimiters 0 s

/-- Each quotation in the text is closed again. -/
def ClosesQuotes (s : Text) : Prop := delimiters 0 s % 2 = 0

instance (s : Text) : Decidable (ClosesQuotes s) := inferInstanceAs (Decidable (delimiters 0 s % 2 = 0))

/-- The forms in which a call ends with its source file. -/
inductive SourceForm : Text → Prop
  | bare {source : Text} (hne : source ≠ []) (hplain : ∀ c ∈ source, isBlank c = false ∧ c ≠ '"') :
      SourceForm source
  | quoted {name : Text} (hne : name ≠ []) (hplain : '"' ∉ name) : SourceForm ('"' :: (name ++ ['"']))

theorem SourceForm.ne_nil {source : Text} (h : SourceForm source) : source ≠ [] := by
  cases h with
  | bare hne => exact hne
  | quoted => exact List.cons_ne_nil _ _

theorem SourceForm.getLast? {source : Text} (h : SourceForm source) : ∀ c ∈ source.getLast?, isBlank c = false := by
  intro c hc
  cases h with
  | bare hne hplain => exact (hplain c (List.mem_of_mem_getLast? hc)).1
  | quoted =>
      rw [← List.cons_append, List.getLast?_concat] at hc
      obtain rfl := Option.some.inj hc
      decide

namespace Reader

variable {r : Reader}

/-- Between arguments no backslashes are left over. -/
def Settled (r : Reader) : Prop := r.current = none → r.backslashes = 0

theorem settled_start : Settled {} := fun _ => rfl

theorem step_of_ne (hslash : c ≠ '\\') (hquote : c ≠ '"') (hr : r.Settled) :
    (r.step c).backslashes = 0 ∧ (r.step c).quoted = r.quoted := by
  rw [step, if_neg hslash, if_neg hquote]
  split
  · split
    · next hnone => exact ⟨hr hnone, rfl⟩
    · exact ⟨rfl, rfl⟩
  · exact ⟨rfl, rfl⟩

theorem Settled.step (hr : r.Settled) (c : Char) : (r.step c).Settled := by
  by_cases hslash : c = '\\'
  · subst hslash
    rintro ⟨⟩
  by_cases hquote : c = '"'
  · subst hquote
    rw [Reader.step, if_neg (by decide), if_pos rfl]
    dsimp only
    split <;> rintro ⟨⟩
  · exact fun _ => (step_of_ne hslash hquote hr).1

theorem Settled.foldl (hr : r.Settled) (s : Text) : (s.foldl Reader.step r).Settled := by
  induction s generalizing r with
  | nil => exact hr
  | cons c s ih => exact ih (hr.step c)

/-- A quotation is open behind an odd number of delimiters. -/
theorem quoted_foldl (hr : r.Settled) (s : Text) :
    (s.foldl step r).quoted = (r.quoted ^^ decide (delimiters r.backslashes s % 2 = 1)) := by
  induction s generalizing r with
  | nil => simp [delimiters]
  | cons c s ih =>
      rw [List.foldl_cons, ih (hr.step c), delimiters]
      by_cases hslash : c = '\\'
      · subst hslash
        rfl
      by_cases hquote : c = '"'
      · subst hquote
        obtain ⟨args, current, quoted, n⟩ := r
        rw [if_neg (by decide)]
        rcases Nat.even_or_odd' n with ⟨half, rfl | rfl⟩
        · have heven : 2 * half % 2 = 0 := by omega
          rw [step_quote_even, if_pos ⟨rfl, heven⟩]
          rcases Nat.mod_two_eq_zero_or_one (delimiters 0 s) with heven | hodd
          · simp [Nat.add_mod, heven]
          · simp [Nat.add_mod, hodd]
        · have hodd : ¬(2 * half + 1) % 2 = 0 := by omega
          rw [step_quote_odd, if_neg fun h => hodd h.2]
      · obtain ⟨hnone, hsame⟩ := step_of_ne hslash hquote hr
        rw [hnone, hsame, if_neg hslash, if_neg fun h => hquote h.1]

/-- Outside quotations a blank settles what was read before it. -/
theorem Settled.step_blank (hr : r.Settled) (hquoted : r.quoted = false) (hc : isBlank c = true) :
    r.step c = ⟨r.finish, none, false, 0⟩ := by
  obtain ⟨args, current, quoted, n⟩ := r
  obtain rfl : quoted = false := hquoted
  cases current with
  | none =>
      obtain rfl : n = 0 := hr rfl
      exact step_blank_none hc
  | some arg => exact step_blank_some hc

/-- Between blanks a text that closes its quotations is read as it is split. -/
theorem foldl_closed (hs : ClosesQuotes s) : (' ' :: (s ++ [' '])).foldl step {} = ⟨split s, none, false, 0⟩ := by
  have hquoted : (s.foldl step {}).quoted = false := by
    rw [quoted_foldl settled_start, hs]
    rfl
  rw [List.foldl_cons, step_blank_none (by decide), List.foldl_append, List.foldl_cons, List.foldl_nil]
  exact (settled_start.foldl s).step_blank hquoted (by decide)

/-! ### Reading the source file -/

/-- Inside a quotation everything up to the next quote goes on with the argument. -/
theorem exists_foldl_inside (args : List Text) (current : Text) (n : Nat) (hs : '"' ∉ s) :
    ∃ current' n', s.foldl step ⟨args, some current, true, n⟩ = ⟨args, some current', true, n'⟩ := by
  induction s generalizing current n with
  | nil => exact ⟨current, n, rfl⟩
  | cons c s ih =>
      rw [List.mem_cons, not_or] at hs
      rw [List.foldl_cons]
      by_cases hslash : c = '\\'
      · rw [hslash, step_backslash]
        exact ih _ _ hs.2
      · rw [step_kept hslash (Ne.symm hs.1) (Or.inl rfl)]
        exact ih _ _ hs.2

/-- A source file at the end of a line is its last argument. -/
theorem exists_finish_source (args : List Text) {source : Text} (h : SourceForm source) :
    ∃ arg, (source.foldl step ⟨args, none, false, 0⟩).finish = args ++ [arg] := by
  cases h with
  | bare hne hplain => exact ⟨source, (holds_foldl_bare args hne hplain).finish⟩
  | @quoted name hne hplain =>
      have hopen : step ⟨args, none, false, 0⟩ '"' = ⟨args, some [], true, 0⟩ := step_quote_even (n := 0)
      obtain ⟨current, n, hread⟩ := exists_foldl_inside args [] 0 hplain
      rw [List.foldl_cons, hopen, List.foldl_append, hread, List.foldl_cons, List.foldl_nil]
      rcases Nat.even_or_odd' n with ⟨half, rfl | rfl⟩
      · rw [step_quote_even]
        exact ⟨_, rfl⟩
      · rw [step_quote_odd]
        exact ⟨_, rfl⟩

end Reader

theorem split_closed (hs : ClosesQuotes s) : split (' ' :: (s ++ [' '])) = split s := by
  rw [split, Reader.foldl_closed hs]
  rfl

/-- Behind switches that close their quotations the source file adds one argument. -/
theorem exists_split_source {source : Text} (hs : ClosesQuotes s) (hsource : SourceForm source) :
    ∃ arg, split (' ' :: (s ++ ' ' :: source)) = split s ++ [arg] := by
  have hline : ' ' :: (s ++ ' ' :: source) = ' ' :: (s ++ [' ']) ++ source := by simp
  rw [hline, split, List.foldl_append, Reader.foldl_closed hs]
  exact Reader.exists_finish_source (split s) hsource

end CommandLine

/-! ### Cutting a call -/

namespace CompilerCall

open CommandLine Text

/-- The source file is cut off in each of its forms. -/
theorem dropSource_of_form (front : Text) {source : Text} (h : SourceForm source) :
    dropSource (front ++ ' ' :: source) = front ++ [' '] := by
  cases h with
  | bare hne hplain =>
      have hback : ∀ c ∈ source.reverse, (!isBlank c) = true := fun c hc => by
        rw [(hplain c (List.mem_reverse.mp hc)).1]
        rfl
      have hreverse : (front ++ ' ' :: source).reverse = source.reverse ++ ' ' :: front.reverse := by simp
      have hdrop : (source.reverse ++ ' ' :: front.reverse).dropWhile (!isBlank ·) = ' ' :: front.reverse :=
        dropWhile_run hback (by decide)
      rw [dropSource, hreverse]
      split
      · next back hquote =>
        obtain ⟨last, init, hinit⟩ := List.exists_cons_of_ne_nil (List.reverse_ne_nil_iff.mpr hne)
        rw [hinit] at hquote
        have hlast : last ∈ source := List.mem_reverse.mp (hinit ▸ List.mem_cons_self)
        exact absurd (List.cons.inj hquote).1 (hplain last hlast).2
      · rw [hdrop, List.reverse_cons, List.reverse_reverse]
  | @quoted name hne hplain =>
      have hback : ∀ c ∈ name.reverse, (c != '"') = true := fun c hc =>
        bne_iff_ne.mpr fun h => hplain (h ▸ List.mem_reverse.mp hc)
      have hreverse : (front ++ ' ' :: '"' :: (name ++ ['"'])).reverse =
          '"' :: (name.reverse ++ '"' :: ' ' :: front.reverse) := by simp
      have htake : (name.reverse ++ '"' :: ' ' :: front.reverse).takeWhile (· != '"') = name.reverse :=
        takeWhile_run hback rfl
      have hdrop : (name.reverse ++ '"' :: ' ' :: front.reverse).dropWhile (· != '"') = '"' :: ' ' :: front.reverse :=
        dropWhile_run hback rfl
      obtain ⟨last, init, hinit⟩ := List.exists_cons_of_ne_nil (List.reverse_ne_nil_iff.mpr hne)
      rw [dropSource, hreverse]
      simp only [htake, hdrop]
      rw [hinit]
      simp

end CompilerCall

/-- The parts of a call of the compiler on one line. -/
structure PrintedCall where
  program : Text
  switches : Text
  source : Text

namespace PrintedCall

open CommandLine CompilerCall Text

variable {printed : PrintedCall} {sourceExtension : Text}

/-- What stands behind the program. -/
def tail (printed : PrintedCall) : Text := ' ' :: (printed.switches ++ ' ' :: printed.source)

def text (printed : PrintedCall) : Text := printed.program ++ printed.tail

/-- The program ends in the name of the compiler and stands in no quotes, the switches close their quotations,
and neither the compiler nor a source file is mentioned a second time. -/
structure WellFormed (printed : PrintedCall) (sourceExtension : Text) : Prop where
  program : ∃ before name, printed.program = before ++ name ∧ eqIgnoreCase name compilerName = true ∧
    endsOutsideWord before = true
  start : ∀ c ∈ printed.program.head?, c ≠ '"' ∧ isBlank c = false
  switches : ClosesQuotes printed.switches
  source : SourceForm printed.source
  compilerOnce : occurrences compilerName (lowercase printed.text) = 1
  sourceOnce : occurrences ('.' :: lowercase sourceExtension) (lowercase printed.text) = 1

theorem WellFormed.cut (h : printed.WellFormed sourceExtension) :
    Cut none printed.text printed.program printed.tail := by
  obtain ⟨before, name, hprogram, hname, hbefore⟩ := h.program
  have honce := h.compilerOnce
  rw [text, hprogram] at honce ⊢
  exact cut_of_once ⟨hname, hbefore, rfl⟩ honce

theorem WellFormed.head?_text (h : printed.WellFormed sourceExtension) :
    ∀ c ∈ printed.text.head?, c ≠ '"' ∧ isBlank c = false := by
  obtain ⟨before, name, hprogram, hname, -⟩ := h.program
  have hne : printed.program ≠ [] := by
    rw [hprogram]
    exact List.append_ne_nil_of_right_ne_nil before (ne_nil_of_eqIgnoreCase hname)
  rw [text, List.head?_append_of_ne_nil _ hne]
  exact h.start

theorem WellFormed.trim_text (h : printed.WellFormed sourceExtension) : trim printed.text = printed.text := by
  refine trim_eq_self_iff.mpr ⟨fun c hc => (h.head?_text c hc).2, fun c hc => h.source.getLast? c ?_⟩
  have htext : printed.text = printed.program ++ ' ' :: printed.switches ++ [' '] ++ printed.source := by
    simp [text, tail]
  rwa [htext, List.getLast?_append_of_ne_nil _ h.source.ne_nil] at hc

theorem WellFormed.dropSource_tail (h : printed.WellFormed sourceExtension) :
    dropSource printed.tail = ' ' :: (printed.switches ++ [' ']) :=
  dropSource_of_form (' ' :: printed.switches) h.source

/-- The line of a well-formed call gives its program and its switches. -/
theorem WellFormed.ofLine_text (h : printed.WellFormed sourceExtension) (hline : '\n' ∉ printed.text) :
    ofLine printed.text sourceExtension =
      .ok ⟨printed.program, (split printed.switches).filter (!debugSwitches.contains ·) ++ [syntaxSwitch]⟩ := by
  have hcut := (splitProgram?_eq_some_iff hline).mpr h.cut
  have hquote : printed.text.head? ≠ some '"' := fun hhead => (h.head?_text '"' hhead).1 rfl
  simp only [ofLine, h.trim_text, if_pos (And.intro h.compilerOnce (And.intro h.sourceOnce hquote)), hcut,
    h.dropSource_tail, split_closed h.switches]

/-- If one line of a transcript names the compiler and is a call of the printed form, the call is read from it
with its program and its switches as they are, less those for debug information. Cutting the source file off the
text takes away the last argument and nothing else. -/
theorem call_of_printed {transcript left right : Text} (h : printed.WellFormed sourceExtension)
    (hleft : ∀ c ∈ left, isBlank c = true) (hright : ∀ c ∈ right, isBlank c = true)
    (hone : compilerLines transcript = [left ++ (printed.text ++ right)]) :
    ((findLine transcript).bind fun line => ofLine line sourceExtension) =
        .ok ⟨printed.program, (split printed.switches).filter (!debugSwitches.contains ·) ++ [syntaxSwitch]⟩ ∧
      split (dropSource printed.tail) = split printed.switches ∧
      (split printed.tail).dropLast = split printed.switches := by
  have htrim : trim (left ++ (printed.text ++ right)) = printed.text := trim_padded hleft hright h.trim_text
  have hline := (namesCompiler_of_mem_compilerLines (hone ▸ List.mem_singleton_self _)).2
  rw [htrim] at hline
  refine ⟨?_, ?_, ?_⟩
  · rw [findLine_of_singleton hone, htrim]
    exact h.ofLine_text hline
  · rw [h.dropSource_tail, split_closed h.switches]
  · obtain ⟨arg, harg⟩ := exists_split_source h.switches h.source
    rw [tail, harg, List.dropLast_concat]

/-- Blanks in the path of the program and in the name of the source file, and a folder in quotes that ends in a
backslash. -/
theorem call_of_printed_quoted :
    let printed : PrintedCall := ⟨"C:\\V C\\Cl.EXE", "/c /ZI /Fo\"o\\\\\" /Zi", "\"a b.Cpp\""⟩
    let transcript : Text := ("Build\r\n\t" : Text) ++ printed.text ++ (" \r\nDone\r\n" : Text)
    printed.WellFormed "cpp" ∧ compilerLines transcript = [['\t'] ++ (printed.text ++ [' '])] ∧
      ((findLine transcript).bind fun line => ofLine line "cpp") =
        .ok ⟨"C:\\V C\\Cl.EXE", ["/c", "/Foo\\", "/Zs"]⟩ := by
  intro printed transcript
  have hsource : SourceForm ('"' :: (("a b.Cpp" : Text) ++ ['"'])) := .quoted (by decide) (by decide)
  have hstart : ∀ c ∈ printed.program.head?, c ≠ '"' ∧ isBlank c = false := by
    intro c hc
    obtain rfl := Option.some.inj hc
    decide
  have hwell : printed.WellFormed "cpp" :=
    ⟨⟨"C:\\V C\\", "Cl.EXE", rfl, by decide, by decide⟩, hstart, by decide, hsource, by decide, by decide⟩
  have hone : compilerLines transcript = [['\t'] ++ (printed.text ++ [' '])] := by decide
  have hargs : (split printed.switches).filter (!debugSwitches.contains ·) ++ [syntaxSwitch] =
      ["/c", "/Foo\\", "/Zs"] := by decide
  have hleft : ∀ c ∈ ['\t'], isBlank c = true := List.all_eq_true.mp (by decide)
  have hright : ∀ c ∈ [' '], isBlank c = true := List.all_eq_true.mp (by decide)
  have hread := (call_of_printed hwell hleft hright hone).1
  rw [hargs] at hread
  exact ⟨hwell, hone, hread⟩

end PrintedCall

end CompileFail
