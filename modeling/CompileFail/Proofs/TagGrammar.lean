import CompileFail.Proofs.Lines
import CompileFail.Proofs.TagToken

/-! The grammar of tagged lines. A well-formed line is a comment that holds the code, a second
comment behind it, and in that the tag with the expected message. A line with a single token has at
most one such form, and reading a line finds it: the parts are those of the form, and without one
the line is rejected. A doubled token is found before any fault of form, and a fault of form before
an empty configuration. -/

namespace CompileFail.Tag

/-- The parts of a well-formed line, from left to right: the indentation and the opener of the
comment, the code from `first` to `last`, the opener of the second comment and blanks, the token, and
what follows its colon. -/
structure TaggedLine where
  indentation : Text
  first : Char
  middle : Text
  last : Char
  gap : Text
  configuration : Option Text
  tail : Text

namespace TaggedLine

variable (parts : TaggedLine)

/-- What stands behind the first character of the code, up to the token. -/
def code : Text := parts.middle ++ parts.last :: '/' :: '/' :: parts.gap

/-- The line up to its token. -/
def before : Text := parts.indentation ++ '/' :: '/' :: parts.first :: parts.code

/-- What stands behind the token. -/
def after : Text := ':' :: parts.tail

/-- The line without its terminator. -/
def text : Text := parts.before ++ tokenText parts.configuration ++ parts.after

/-- The line with the comment opened. -/
def activated : Text :=
  parts.indentation ++ (if parts.first = ' ' then [] else [parts.first]) ++
    parts.code ++ tokenText parts.configuration ++ parts.after

structure WellFormed : Prop where
  indentation_blank : ∀ c ∈ parts.indentation, isBlank c = true
  first_ne : parts.first ≠ '/'
  last_ne : parts.last ≠ '/'
  gap_blank : ∀ c ∈ parts.gap, isBlank c = true
  nameable : IsNameable parts.configuration
  tail_nonblank : ∃ c ∈ parts.tail, isBlank c = false

/-- A body has this form. -/
def Describes (body : Text) : Prop := parts.WellFormed ∧ body = parts.text

end TaggedLine

theorem isBlank_slash : isBlank '/' = false := by decide

/-! ### The parts around the token -/

theorem commentedOut?_eq_some_iff {before indentation rest : Text} {first : Char} :
    commentedOut? before = some (indentation, first, rest) ↔
      (∀ c ∈ indentation, isBlank c = true) ∧ first ≠ '/' ∧
        before = indentation ++ '/' :: '/' :: first :: rest := by
  constructor
  · intro h
    rw [commentedOut?] at h
    split at h
    · next first' rest' hdrop =>
      split at h
      · cases h
      · next hfirst =>
        obtain ⟨rfl, rfl, rfl⟩ :
            before.takeWhile isBlank = indentation ∧ first' = first ∧ rest' = rest := by
          simpa using h
        exact ⟨fun c hc => List.mem_takeWhile_imp hc, hfirst, (Text.eq_run_of_dropWhile hdrop).1⟩
    · cases h
  · rintro ⟨hblank, hfirst, rfl⟩
    simp only [commentedOut?, Text.dropWhile_run hblank isBlank_slash,
      Text.takeWhile_run hblank isBlank_slash, if_neg hfirst]

theorem endsInComment_iff {rest : Text} (hfeed : '\n' ∉ rest) :
    endsInComment rest = true ↔ ∃ middle last gap, last ≠ '/' ∧ (∀ c ∈ gap, isBlank c = true) ∧
      rest = middle ++ last :: '/' :: '/' :: gap := by
  constructor
  · intro h
    rw [endsInComment] at h
    split at h
    · next last middle hdrop =>
      have hrun := (Text.eq_run_of_dropWhile hdrop).1
      refine ⟨middle.reverse, last, (rest.reverse.takeWhile isBlank).reverse, ?_, ?_, ?_⟩
      · rw [Bool.and_eq_true, bne_iff_ne] at h
        exact h.1
      · intro c hc
        exact List.mem_takeWhile_imp (List.mem_reverse.mp hc)
      · simpa using congrArg List.reverse hrun
    · cases h
  · rintro ⟨middle, last, gap, hlast, hgap, rfl⟩
    have hreverse : (middle ++ last :: '/' :: '/' :: gap).reverse =
        gap.reverse ++ '/' :: '/' :: last :: middle.reverse := by simp
    have hgap' : ∀ c ∈ gap.reverse, isBlank c = true := fun c hc => hgap c (List.mem_reverse.mp hc)
    rw [endsInComment, hreverse, Text.dropWhile_run hgap' isBlank_slash]
    simp_all

theorem expected?_eq_some_iff {after expected : Text} (hfeed : '\n' ∉ after) :
    expected? after = some expected ↔
      ∃ tail, after = ':' :: tail ∧ (∃ c ∈ tail, isBlank c = false) ∧ expected = Text.trim tail := by
  constructor
  · intro h
    unfold expected? at h
    split at h
    · next tail =>
      dsimp only at h
      split at h
      · cases h
      · next hmessage =>
        have hne : Text.trim tail ≠ [] := by simp_all
        exact ⟨tail, rfl, Text.trim_ne_nil_iff.mp hne, by simpa using h.symm⟩
    · cases h
  · rintro ⟨tail, rfl, hnonblank, rfl⟩
    have hne : Text.trim tail ≠ [] := Text.trim_ne_nil_iff.mpr hnonblank
    have hline : '\n' ∉ Text.trim tail := fun h => hfeed (List.mem_cons_of_mem _ (Text.trim_subset tail h))
    simp [expected?, hne, hline]

theorem around?_eq_some_iff {body terminator : Text} (hcount : count (body ++ terminator) = 1) {a : Around} :
    around? body = some a ↔
      IsNameable a.configuration ∧ body = a.before ++ tokenText a.configuration ++ a.after := by
  constructor
  · exact around?_spec
  · rintro ⟨hname, hbody⟩
    have hpos : 0 < count body := count_pos_iff.mpr ⟨_, hbody ▸ startsToken_drop _ _ hname⟩
    obtain ⟨a', ha'⟩ := exists_around? hpos
    obtain ⟨hname', hbody'⟩ := around?_spec ha'
    have hline : a.before ++ tokenText a.configuration ++ (a.after ++ terminator) = body ++ terminator := by
      rw [hbody, List.append_assoc _ a.after]
    have hline' : a'.before ++ tokenText a'.configuration ++ (a'.after ++ terminator) =
        body ++ terminator := by
      rw [hbody', List.append_assoc _ a'.after]
    obtain ⟨hbefore, hconfiguration, hafter⟩ :=
      cut_unique (hline ▸ hcount) hname hname' (hline.trans hline'.symm)
    rw [ha', Option.some.injEq]
    cases a
    cases a'
    simp_all

/-! ### Reading a line -/

section Reading

variable {body terminator : Text} {parts parts' : TaggedLine}

theorem TaggedLine.Describes.around (h : parts.Describes body) (hcount : count (body ++ terminator) = 1) :
    around? body = some ⟨parts.before, parts.configuration, parts.after⟩ :=
  (around?_eq_some_iff hcount).mpr ⟨h.1.nameable, h.2⟩

theorem TaggedLine.WellFormed.commentedOut (h : parts.WellFormed) :
    commentedOut? parts.before = some (parts.indentation, parts.first, parts.code) :=
  commentedOut?_eq_some_iff.mpr ⟨h.indentation_blank, h.first_ne, rfl⟩

/-- The code and the blanks behind the second opener can be told apart from the right. -/
theorem TaggedLine.WellFormed.code_reverse (h : parts.WellFormed) :
    parts.code.reverse.takeWhile isBlank = parts.gap.reverse ∧
      parts.code.reverse.dropWhile isBlank = '/' :: '/' :: parts.last :: parts.middle.reverse := by
  have hreverse : parts.code.reverse =
      parts.gap.reverse ++ '/' :: '/' :: parts.last :: parts.middle.reverse := by
    simp [TaggedLine.code]
  have hgap : ∀ c ∈ parts.gap.reverse, isBlank c = true :=
    fun c hc => h.gap_blank c (List.mem_reverse.mp hc)
  rw [hreverse]
  exact ⟨Text.takeWhile_run hgap isBlank_slash, Text.dropWhile_run hgap isBlank_slash⟩

theorem TaggedLine.Describes.unique (h : parts.Describes body) (h' : parts'.Describes body)
    (hcount : count (body ++ terminator) = 1) : parts = parts' := by
  have haround := (h.around hcount).symm.trans (h'.around hcount)
  rw [Option.some.injEq, Around.mk.injEq] at haround
  obtain ⟨hbefore, hconfiguration, hafter⟩ := haround
  have hcomment := h.1.commentedOut.symm.trans (hbefore ▸ h'.1.commentedOut)
  rw [Option.some.injEq, Prod.mk.injEq, Prod.mk.injEq] at hcomment
  obtain ⟨hindentation, hfirst, hcode⟩ := hcomment
  have hgap := h.1.code_reverse.1.symm.trans (hcode ▸ h'.1.code_reverse.1)
  have hmiddle := h.1.code_reverse.2.symm.trans (hcode ▸ h'.1.code_reverse.2)
  cases parts
  cases parts'
  simp_all [TaggedLine.after]

theorem TaggedLine.Describes.expected (hfeed : '\n' ∉ body) (h : parts.Describes body) :
    expected? parts.after = some (Text.trim parts.tail) := by
  have hbody : body = parts.before ++ tokenText parts.configuration ++ parts.after := h.2
  refine (expected?_eq_some_iff fun hmem => hfeed ?_).mpr ⟨parts.tail, rfl, h.1.tail_nonblank, rfl⟩
  rw [hbody]
  exact List.mem_append_right _ hmem

theorem scanBody_of_describes (hfeed : '\n' ∉ body) (hcount : count (body ++ terminator) = 1)
    (h : parts.Describes body) :
    scanBody body terminator =
      if parts.configuration = some [] then .malformed .emptyConfiguration
      else .occurrence
        { configuration := parts.configuration
          expected := Text.trim parts.tail
          activated := parts.activated ++ terminator } := by
  have hbody : body = parts.before ++ tokenText parts.configuration ++ parts.after := h.2
  have hexpected := h.expected hfeed
  have hends : endsInComment parts.code = true := by
    refine (endsInComment_iff fun hmem => hfeed ?_).mpr
      ⟨parts.middle, parts.last, parts.gap, h.1.last_ne, h.1.gap_blank, rfl⟩
    rw [hbody, TaggedLine.before]
    simp [hmem]
  have hdrop : body.drop (parts.indentation.length + 3) =
      parts.code ++ tokenText parts.configuration ++ parts.after := by
    rw [hbody, TaggedLine.before, ← List.drop_drop]
    simp
  simp only [scanBody, h.around hcount, h.1.commentedOut, hexpected, hends, hdrop, Bool.not_true,
    Bool.false_eq_true, if_false, keptFirst, TaggedLine.activated, List.append_assoc]

theorem scanBody_of_not_describes (hfeed : '\n' ∉ body) (h : ∀ parts, ¬TaggedLine.Describes parts body) :
    scanBody body terminator = .malformed .incorrectFormat := by
  rw [scanBody]
  split
  · rfl
  · next a ha =>
    obtain ⟨hname, hbody⟩ := around?_spec ha
    split
    · next indentation first rest expected hcomment hexpected =>
      split
      · rfl
      · next hends =>
        obtain ⟨hindentation, hfirst, hbefore⟩ := commentedOut?_eq_some_iff.mp hcomment
        have hrest : '\n' ∉ rest := fun hmem => hfeed (by rw [hbody, hbefore]; simp [hmem])
        have hafter : '\n' ∉ a.after := fun hmem => hfeed (by rw [hbody]; simp [hmem])
        obtain ⟨middle, last, gap, hlast, hgap, rfl⟩ := (endsInComment_iff hrest).mp (by simpa using hends)
        obtain ⟨tail, htail, hnonblank, -⟩ := (expected?_eq_some_iff hafter).mp hexpected
        refine absurd ⟨⟨hindentation, hfirst, hlast, hgap, hname, hnonblank⟩, ?_⟩
          (h ⟨indentation, first, middle, last, gap, a.configuration, tail⟩)
        rw [hbody, hbefore, htail]
        rfl
    · rfl

end Reading

theorem scan_of_count_zero {line : Text} (hcount : count line = 0) : scan line = .untagged := by
  rw [scan, hcount]
  rfl

theorem scan_of_count_one {line : Text} (hcount : count line = 1) :
    scan line = scanBody (Text.splitTerminator line).1 (Text.splitTerminator line).2 := by
  rw [scan, hcount]
  rfl

theorem scan_of_two_le_count {line : Text} (hcount : 2 ≤ count line) :
    scan line = .malformed .duplicateTag := by
  obtain ⟨n, hn⟩ := Nat.exists_eq_add_of_le' hcount
  rw [scan, hn]
  rfl

theorem count_of_scan {line : Text} {o : Occurrence} (h : scan line = .occurrence o) : count line = 1 := by
  rcases Nat.lt_trichotomy (count line) 1 with hlt | heq | hgt
  · rw [scan_of_count_zero (Nat.lt_one_iff.mp hlt)] at h
    cases h
  · exact heq
  · rw [scan_of_two_le_count hgt] at h
    cases h

/-- A line that reads as an occurrence has the form, and its parts are what is read. -/
theorem exists_describes_of_scan {line : Text} {o : Occurrence} (hline : '\n' ∉ line.dropLast)
    (h : scan line = .occurrence o) :
    ∃ parts : TaggedLine, parts.Describes (Text.splitTerminator line).1 ∧ parts.configuration ≠ some [] ∧
      o = { configuration := parts.configuration
            expected := Text.trim parts.tail
            activated := parts.activated ++ (Text.splitTerminator line).2 } := by
  have hcount := count_of_scan h
  have hfeed := Text.not_mem_splitTerminator hline
  have hcount' : count ((Text.splitTerminator line).1 ++ (Text.splitTerminator line).2) = 1 := by
    rw [Text.splitTerminator_append, hcount]
  rw [scan_of_count_one hcount] at h
  by_cases hform : ∃ parts : TaggedLine, parts.Describes (Text.splitTerminator line).1
  · obtain ⟨parts, hparts⟩ := hform
    rw [scanBody_of_describes hfeed hcount' hparts] at h
    split at h
    · cases h
    · next hnamed => exact ⟨parts, hparts, hnamed, (Scan.occurrence.inj h).symm⟩
  · rw [scanBody_of_not_describes hfeed (not_exists.mp hform)] at h
    cases h

/-- Reading a single line decides the grammar: without a token it is untagged, with two or more it is
rejected for that, and with one it has at most one form, whose parts are what is read. -/
theorem scan_decides_grammar (line : Text) (hline : '\n' ∉ line.dropLast) :
    ((∀ i, ¬StartsToken (line.drop i)) → scan line = .untagged) ∧
    ((∃ i j, i < j ∧ StartsToken (line.drop i) ∧ StartsToken (line.drop j)) →
      scan line = .malformed .duplicateTag) ∧
    ((∃! i, StartsToken (line.drop i)) →
      ∀ body terminator, Text.splitTerminator line = (body, terminator) →
        (∀ parts parts' : TaggedLine, parts.Describes body → parts'.Describes body → parts = parts') ∧
        (∀ parts : TaggedLine, parts.Describes body →
          (parts.configuration = some [] → scan line = .malformed .emptyConfiguration) ∧
          (parts.configuration ≠ some [] →
            Text.trim parts.tail ≠ [] ∧
            scan line = .occurrence
              { configuration := parts.configuration
                expected := Text.trim parts.tail
                activated := parts.activated ++ terminator })) ∧
        ((∀ parts : TaggedLine, ¬parts.Describes body) → scan line = .malformed .incorrectFormat)) := by
  refine ⟨fun h => ?_, fun h => ?_, fun h body terminator hsplit => ?_⟩
  · exact scan_of_count_zero (count_eq_zero_iff.mpr h)
  · exact scan_of_two_le_count (two_le_count_iff.mpr h)
  · have hcount : count line = 1 := count_eq_one_iff.mpr h
    have hfeed : '\n' ∉ body := by simpa [hsplit] using Text.not_mem_splitTerminator hline
    have hscan : scan line = scanBody body terminator := by rw [scan_of_count_one hcount, hsplit]
    have hcount' : count (body ++ terminator) = 1 := by
      rw [← hcount, ← Text.splitTerminator_append line, hsplit]
    refine ⟨fun _ _ hp hq => hp.unique hq hcount', fun parts hparts => ⟨fun hempty => ?_, fun hnamed => ?_⟩,
      fun hnone => ?_⟩
    · rw [hscan, scanBody_of_describes hfeed hcount' hparts, if_pos hempty]
    · refine ⟨Text.trim_ne_nil_iff.mpr hparts.1.tail_nonblank, ?_⟩
      rw [hscan, scanBody_of_describes hfeed hcount' hparts, if_neg hnamed]
    · rw [hscan, scanBody_of_not_describes hfeed hnone]

theorem scan_decides_grammar_configured :
    '\n' ∉ ("\t// f(); // [CompilationError-Debug]: no f \r\n" : Text).dropLast ∧
    scan "\t// f(); // [CompilationError-Debug]: no f \r\n" = .occurrence
      { configuration := some "Debug".toList
        expected := "no f"
        activated := "\tf(); // [CompilationError-Debug]: no f \r\n" } := by
  have hone : ∃! i, StartsToken (("\t// f(); // [CompilationError-Debug]: no f \r\n" : Text).drop i) :=
    count_eq_one_iff.mp (by decide)
  have hform : TaggedLine.Describes ⟨"\t", ' ', "f();", ' ', " ", some "Debug".toList, " no f "⟩
      "\t// f(); // [CompilationError-Debug]: no f " :=
    ⟨{ indentation_blank := List.all_eq_true.mp (by decide)
       first_ne := by decide
       last_ne := by decide
       gap_blank := List.all_eq_true.mp (by decide)
       nameable := isNameable_some.mpr (List.all_eq_true.mp (by decide))
       tail_nonblank := ⟨'n', by decide, by decide⟩ }, by decide⟩
  have hread := ((scan_decides_grammar "\t// f(); // [CompilationError-Debug]: no f \r\n" (by decide)).2.2
    hone "\t// f(); // [CompilationError-Debug]: no f " "\r\n" (by decide)).2.1 _ hform
  exact ⟨by decide, (hread.2 (by decide)).2.trans (by decide)⟩

end CompileFail.Tag
