import CompileFail.Proofs.PrintedCall

/-! Mentions of source files in a call. The extension of source files is counted on the whole line, but what is
cut off is the end of the line, whatever stands there. An argument mentions a source file exactly if the text that
is left does so once its quotes are taken out. So a call with a switch behind its source file is taken apart like
any other one: it loses the switch and keeps the source file. -/

namespace CompileFail

/-- What holds of all characters of its ranges holds of each character in a class. -/
theorem CharRanges.forall_of_contains {ranges : CharRanges} {p : Char → Prop} {c : Char}
    (h : ∀ range ∈ ranges, ∀ i < range.2 + 1 - range.1, p (Char.ofNat (range.1 + i)))
    (hc : ranges.contains c = true) : p c := by
  obtain ⟨range, hrange, hbounds⟩ := List.any_eq_true.mp hc
  rw [Bool.and_eq_true, decide_eq_true_iff, decide_eq_true_iff] at hbounds
  have hcode := h range hrange (c.toNat - range.1) (by omega)
  rwa [Nat.add_sub_cancel' hbounds.1, Char.ofNat_toNat] at hcode

/-! ### Stops -/

/-- Blanks, quotes and backslashes, by which arguments are told apart. -/
def IsStop (c : Char) : Prop := isBlank c = true ∨ c = '"' ∨ c = '\\'

instance : DecidablePred IsStop := fun _ => inferInstanceAs (Decidable (_ ∨ _ ∨ _))

namespace Text

variable {b : Char} {needle s x y : Text}

/-- A character without a small form of its own that no letter looks beyond. -/
def IsCaseless (c : Char) : Prop :=
  c ≠ '\u0130' ∧ c ≠ '\u03A3' ∧ lowerChar c = c ∧ isCased c = false ∧ isCaseIgnorable c = false

instance : DecidablePred IsCaseless := fun _ => inferInstanceAs (Decidable (_ ∧ _ ∧ _ ∧ _ ∧ _))

theorem isCaseless_of_isStop (hb : IsStop b) : IsCaseless b := by
  rcases hb with hblank | rfl | rfl
  · exact CharRanges.forall_of_contains (by decide +kernel) hblank
  · decide +kernel
  · decide +kernel

theorem casedNext_append_stop (hb : IsCaseless b) (s rest : Text) : casedNext (s ++ b :: rest) = casedNext s := by
  obtain ⟨-, -, -, hcased, hignorable⟩ := hb
  induction s with
  | nil => simp [casedNext, hignorable, hcased]
  | cons c s ih =>
      by_cases hc : isCaseIgnorable c = true
      · simpa [casedNext, hc] using ih
      · simp [casedNext, hc]

/-- What stands behind a stop has its small form by itself. -/
theorem go_behind_stop (hb : IsCaseless b) (seen before s : Text) :
    lowercase.go (seen ++ b :: before) s = lowercase.go seen s := by
  induction s generalizing seen with
  | nil => rfl
  | cons c s ih =>
      rw [lowercase.go, lowercase.go, lowerAt, lowerAt, casedNext_append_stop hb, ← List.cons_append, ih]

theorem go_append_stop (hb : IsCaseless b) (seen x y : Text) :
    lowercase.go seen (x ++ b :: y) = lowercase.go seen x ++ b :: lowercase y := by
  induction x generalizing seen with
  | nil =>
      have hstop : lowerAt seen b y = [b] := by
        rw [lowerAt, if_neg hb.1, if_neg hb.2.1, hb.2.2.1]
      have hbehind : lowercase.go (b :: seen) y = lowercase y := go_behind_stop hb [] seen y
      show lowerAt seen b y ++ lowercase.go (b :: seen) y = b :: lowercase y
      rw [hstop, hbehind, List.singleton_append]
  | cons c x ih =>
      have hlower : lowerAt seen c (x ++ b :: y) = lowerAt seen c x := by
        rw [lowerAt, lowerAt, casedNext_append_stop hb]
      rw [List.cons_append, lowercase.go, lowercase.go, hlower, ih, List.append_assoc]

/-- A prefix without the character ends in front of it. -/
theorem prefix_append_cons_iff (hb : b ∉ needle) : needle <+: x ++ b :: y ↔ needle <+: x := by
  refine ⟨?_, fun h => h.trans (List.prefix_append _ _)⟩
  rintro ⟨rest, hrest⟩
  rcases List.append_eq_append_iff.mp hrest with ⟨more, rfl, -⟩ | ⟨tail, rfl, htail⟩
  · exact List.prefix_append _ _
  · cases tail with
    | nil => simp
    | cons c tail =>
        obtain ⟨rfl, -⟩ := List.cons.inj htail
        exact absurd (List.mem_append_right _ List.mem_cons_self) hb

/-- A piece without the character stands on one side of it. -/
theorem infix_append_cons_iff (hb : b ∉ needle) : needle <:+: x ++ b :: y ↔ needle <:+: x ∨ needle <:+: y := by
  induction x with
  | nil =>
      have hstart : needle <+: b :: y ↔ needle <+: [] := prefix_append_cons_iff (x := []) hb
      rw [List.nil_append, List.infix_cons_iff, hstart, List.prefix_nil, List.infix_nil]
  | cons c x ih =>
      rw [List.cons_append, List.infix_cons_iff, ← List.cons_append, prefix_append_cons_iff hb, ih,
        List.infix_cons_iff, or_assoc]

end Text

/-! ### Properties of pieces -/

/-- A property that a text has exactly if it has it on one side of any stop. -/
structure IsLocal (p : Text → Prop) : Prop where
  nil : ¬p []
  stop : ∀ {b}, IsStop b → ∀ x y, p (x ++ b :: y) ↔ p x ∨ p y

section Local

variable {p : Text → Prop} {before : Text}

theorem IsLocal.backslashes (hp : IsLocal p) (n : Nat) (x y : Text) :
    p (x ++ (List.replicate (n + 1) '\\' ++ y)) ↔ p x ∨ p y := by
  have hslash : IsStop '\\' := Or.inr (Or.inr rfl)
  induction n generalizing x with
  | zero => exact hp.stop hslash x y
  | succ n ih =>
      have hrest : p (List.replicate (n + 1) '\\' ++ y) ↔ p y := (ih []).trans (or_iff_right hp.nil)
      rw [List.replicate_succ, List.cons_append, hp.stop hslash, hrest]

/-- Half of the backslashes keep apart what all of them do. -/
theorem IsLocal.halved (hp : IsLocal p) (n : Nat) (x y : Text) :
    p (x ++ (List.replicate (2 * n) '\\' ++ y)) ↔ p (x ++ (List.replicate n '\\' ++ y)) := by
  cases n with
  | zero => rfl
  | succ n => rw [Nat.mul_succ, hp.backslashes, hp.backslashes]

theorem IsLocal.backslashes_last (hp : IsLocal p) (n : Nat) (x : Text) :
    p (x ++ List.replicate n '\\') ↔ p x := by
  cases n with
  | zero => rw [List.replicate_zero, List.append_nil]
  | succ n =>
      have hlast := hp.backslashes n x []
      rwa [List.append_nil, or_iff_left hp.nil] at hlast

namespace CommandLine

/-- The text with its quotes taken out. -/
def unquoted (s : Text) : Text := s.filter (· != '"')

namespace Reader

variable {r : Reader} {c : Char}

/-- The reader has seen in its arguments, or has in the one in progress, what has the property in the text before
it, and this however the text goes on. -/
def Tracks (p : Text → Prop) (before : Text) (r : Reader) : Prop :=
  ∀ rest, p (before ++ rest) ↔ (∃ arg ∈ r.args, p arg) ∨ p (r.flushed ++ rest)

theorem tracks_start : Tracks p [] {} := by
  intro rest
  simp [flushed]

/-- A character that goes on with the argument is tracked with it. -/
theorem Tracks.kept {r' : Reader} (h : Tracks p before r) (hargs : r'.args = r.args)
    (hflushed : r'.flushed = r.flushed ++ [c]) : Tracks p (before ++ [c]) r' := by
  intro rest
  rw [hargs, hflushed, List.append_assoc, List.append_assoc]
  exact h ([c] ++ rest)

theorem exists_mem_finish (hp : IsLocal p) (hr : r.Settled) :
    (∃ arg ∈ r.finish, p arg) ↔ (∃ arg ∈ r.args, p arg) ∨ p r.flushed := by
  obtain ⟨args, current, quoted, n⟩ := r
  cases current with
  | none =>
      obtain rfl : n = 0 := hr rfl
      exact (or_iff_left hp.nil).symm
  | some arg => simp [finish, or_and_right, exists_or]

theorem Tracks.quote (hp : IsLocal p) (h : Tracks p before r) : Tracks p before (r.step '"') := by
  intro rest
  obtain ⟨args, current, quoted, n⟩ := r
  rw [h rest]
  rcases Nat.even_or_odd' n with ⟨half, rfl | rfl⟩
  · rw [step_quote_even]
    simp only [flushed, Option.getD_some, List.replicate_zero, List.append_nil, List.append_assoc, hp.halved]
  · rw [step_quote_odd]
    simp only [flushed, Option.getD_some, List.replicate_zero, List.append_nil, List.append_assoc, hp.backslashes]
    rw [← List.append_assoc, List.singleton_append, hp.stop (Or.inr (Or.inl rfl)), hp.backslashes_last]

theorem Tracks.blank (hp : IsLocal p) (hr : r.Settled) (h : Tracks p before r) (hquoted : r.quoted = false)
    (hc : isBlank c = true) : Tracks p (before ++ [c]) (r.step c) := by
  intro rest
  rw [hr.step_blank hquoted hc, List.append_assoc, List.singleton_append, h (c :: rest), hp.stop (Or.inl hc),
    exists_mem_finish hp hr, or_assoc]
  rfl

theorem Tracks.step (hp : IsLocal p) (hr : r.Settled) (h : Tracks p before r) (c : Char) :
    Tracks p (before ++ unquoted [c]) (r.step c) := by
  by_cases hquote : c = '"'
  · subst hquote
    have hnone : before ++ unquoted ['"'] = before := List.append_nil before
    rw [hnone]
    exact h.quote hp
  have hkept : unquoted [c] = [c] := List.filter_cons_of_pos (bne_iff_ne.mpr hquote)
  rw [hkept]
  by_cases hblank : isBlank c = true ∧ r.quoted = false
  · exact h.blank hp hr hblank.2 hblank.1
  by_cases hslash : c = '\\'
  · subst hslash
    refine h.kept rfl ?_
    simp [Reader.step, flushed, List.replicate_succ']
  · obtain ⟨args, current, quoted, n⟩ := r
    have hinside : quoted = true ∨ isBlank c = false := by
      cases quoted with
      | true => exact Or.inl rfl
      | false => exact Or.inr (Bool.eq_false_iff.mpr fun h => hblank ⟨h, rfl⟩)
    rw [step_kept hslash hquote hinside]
    refine h.kept rfl ?_
    simp [flushed]

theorem tracks_foldl (hp : IsLocal p) (s : Text) : Tracks p (unquoted s) (s.foldl Reader.step {}) := by
  induction s using List.reverseRecOn with
  | nil => exact tracks_start
  | append_singleton s c ih =>
      rw [List.foldl_append, unquoted, List.filter_append]
      exact ih.step hp (settled_start.foldl s) c

end Reader

/-- Some argument of a line has a local property exactly if the line without its quotes has it. -/
theorem exists_mem_split_iff (hp : IsLocal p) (s : Text) : (∃ arg ∈ split s, p arg) ↔ p (unquoted s) := by
  have htracked := Reader.tracks_foldl hp s []
  rw [List.append_nil, List.append_nil] at htracked
  rw [htracked]
  exact Reader.exists_mem_finish hp (Reader.settled_start.foldl s)

end CommandLine

end Local

namespace CompilerCall

open CommandLine Text

variable {sourceExtension line s : Text} {call : CompilerCall}

/-! ### What is cut off -/

/-- The end of a call behind what is kept of it: a quotation, or what stands behind the last blank. A quote that
closes no quotation with something in it is kept with all that stands before it. -/
inductive Trailing (kept : Text) : Text → Prop
  | quotation {name : Text} (hne : name ≠ []) (hplain : '"' ∉ name) : Trailing kept ('"' :: (name ++ ['"']))
  | word {word : Text} (hplain : ∀ c ∈ word, isBlank c = false) (hquote : word.getLast? ≠ some '"')
      (hkept : ∀ c ∈ kept.getLast?, isBlank c = true) : Trailing kept word
  | nothing (hquote : kept.getLast? = some '"') : Trailing kept []

theorem exists_trailing (rest : Text) :
    ∃ token, rest = dropSource rest ++ token ∧ Trailing (dropSource rest) token := by
  rw [dropSource]
  split
  · next back hback =>
    have hrest : rest = back.reverse ++ ['"'] := by
      rw [← List.reverse_reverse rest, hback, List.reverse_cons]
    split
    · next first more front htake hdrop =>
      have hplain : '"' ∉ first :: more := by
        rw [← htake]
        intro hmem
        exact absurd (List.mem_takeWhile_imp hmem) (by decide)
      refine ⟨'"' :: ((first :: more).reverse ++ ['"']), ?_, .quotation (by simp) ?_⟩
      · rw [hrest, ← List.takeWhile_append_dropWhile (p := (· != '"')) (l := back), htake, hdrop]
        simp
      · exact fun hmem => hplain (List.mem_reverse.mp hmem)
    · refine ⟨[], (List.append_nil rest).symm, .nothing ?_⟩
      rw [hrest, List.getLast?_concat]
  · next hback =>
    refine ⟨(rest.reverse.takeWhile (!isBlank ·)).reverse, ?_, .word ?_ ?_ ?_⟩
    · rw [← List.reverse_append, List.takeWhile_append_dropWhile, List.reverse_reverse]
    · intro c hc
      have hword := List.mem_takeWhile_imp (List.mem_reverse.mp hc)
      simpa using hword
    · rw [List.getLast?_reverse]
      intro hhead
      obtain ⟨more, hmore⟩ := List.head?_eq_some_iff.mp hhead
      obtain ⟨front, hfront⟩ := List.takeWhile_prefix (l := rest.reverse) (!isBlank ·)
      rw [hmore, List.cons_append] at hfront
      exact hback _ hfront.symm
    · intro c hc
      have hhead := List.head?_dropWhile_not (!isBlank ·) rest.reverse
      rw [List.getLast?_reverse] at hc
      rw [Option.mem_def.mp hc] at hhead
      simpa using hhead

/-! ### Mentions -/

/-- The extension of source files stands somewhere in the text behind a dot; upper or lower case does not count. -/
def Mentions (sourceExtension s : Text) : Prop := ('.' :: lowercase sourceExtension) <:+: lowercase s

instance : Decidable (Mentions sourceExtension s) := inferInstanceAs (Decidable (_ <:+: _))

/-- Where the extension holds no stop, no stop stands inside a mention. -/
theorem isLocal_mentions (hext : ∀ c ∈ lowercase sourceExtension, ¬IsStop c) :
    IsLocal (Mentions sourceExtension) := by
  refine ⟨fun h => List.cons_ne_nil _ _ (List.infix_nil.mp h), fun {b} hb x y => ?_⟩
  have hdot : b ≠ '.' := by
    rintro rfl
    exact absurd hb (by decide)
  have hneedle : b ∉ '.' :: lowercase sourceExtension := by
    rw [List.mem_cons, not_or]
    exact ⟨hdot, fun hmem => hext b hmem hb⟩
  have hlower : lowercase (x ++ b :: y) = lowercase x ++ b :: lowercase y :=
    go_append_stop (isCaseless_of_isStop hb) [] x y
  rw [Mentions, hlower]
  exact infix_append_cons_iff hneedle

theorem not_mentions_of_not_mem (h : '.' ∉ lowercase s) : ¬Mentions sourceExtension s :=
  fun hmentions => h (hmentions.subset List.mem_cons_self)

/-- The switches that are left out and the one that is added mention no source file. -/
theorem exists_mentions_iff (args : List Text) :
    (∃ arg ∈ args.filter (!debugSwitches.contains ·) ++ [syntaxSwitch], Mentions sourceExtension arg) ↔
      ∃ arg ∈ args, Mentions sourceExtension arg := by
  have hdebug : ∀ switch ∈ debugSwitches, '.' ∉ lowercase switch := by decide
  have hsyntax : '.' ∉ lowercase syntaxSwitch := by decide
  constructor
  · rintro ⟨arg, harg, hmentions⟩
    rcases List.mem_append.mp harg with harg | harg
    · exact ⟨arg, (List.mem_filter.mp harg).1, hmentions⟩
    · rw [List.mem_singleton.mp harg] at hmentions
      exact absurd hmentions (not_mentions_of_not_mem hsyntax)
  · rintro ⟨arg, harg, hmentions⟩
    have hkept : arg ∉ debugSwitches := fun h => not_mentions_of_not_mem (hdebug arg h) hmentions
    exact ⟨arg, List.mem_append_left _ (List.mem_filter.mpr ⟨harg, by simpa using hkept⟩), hmentions⟩

theorem exists_of_ofLine (h : ofLine line sourceExtension = .ok call) :
    ∃ rest, trim line = call.program ++ rest ∧
      call.args = (split (dropSource rest)).filter (!debugSwitches.contains ·) ++ [syntaxSwitch] := by
  rw [ofLine] at h
  dsimp only at h
  split at h
  · split at h
    · next program rest hsplit =>
      obtain rfl := Except.ok.inj h
      exact ⟨rest, append_of_splitProgram? hsplit, rfl⟩
    · cases h
  · cases h

/-- However a call was read, some argument mentions a source file exactly if what stands in front of the end that is
cut off does so with its quotes taken out. -/
theorem mentions_iff_of_ofLine (hext : ∀ c ∈ lowercase sourceExtension, ¬IsStop c)
    (h : ofLine line sourceExtension = .ok call) :
    ∃ kept token, trim line = call.program ++ (kept ++ token) ∧ Trailing kept token ∧
      call.args = (split kept).filter (!debugSwitches.contains ·) ++ [syntaxSwitch] ∧
      ((∃ arg ∈ call.args, Mentions sourceExtension arg) ↔ Mentions sourceExtension (unquoted kept)) := by
  obtain ⟨rest, hline, hargs⟩ := exists_of_ofLine h
  obtain ⟨token, hrest, htrailing⟩ := exists_trailing rest
  refine ⟨dropSource rest, token, hrest ▸ hline, htrailing, hargs, ?_⟩
  rw [hargs, exists_mentions_iff]
  exact exists_mem_split_iff (isLocal_mentions hext) _

/-- A source file in quotes at the end, and a quoted folder in front of it. -/
theorem mentions_iff_of_ofLine_quoted :
    let line : Text := "cl.exe /c /I\"d e\" \"a b.cpp\""
    let call : CompilerCall := ⟨"cl.exe", ["/c", "/Id e", "/Zs"]⟩
    (∀ c ∈ lowercase "cpp", ¬IsStop c) ∧ ofLine line "cpp" = .ok call ∧
      ∃ kept token, trim line = call.program ++ (kept ++ token) ∧ Trailing kept token ∧
        call.args = (split kept).filter (!debugSwitches.contains ·) ++ [syntaxSwitch] ∧
        ((∃ arg ∈ call.args, Mentions "cpp" arg) ↔ Mentions "cpp" (unquoted kept)) := by
  intro line call
  have hext : ∀ c ∈ lowercase "cpp", ¬IsStop c := List.forall_mem_iff_getElem.mpr (by decide)
  have hread : ofLine line "cpp" = .ok call := by decide
  exact ⟨hext, hread, mentions_iff_of_ofLine hext hread⟩

/-- A call whose source file stands among its switches is read all the same, and the source file with them. -/
theorem exists_mentions_of_misplaced {printed : PrintedCall} (h : printed.WellFormed sourceExtension)
    (hline : '\n' ∉ printed.text) (hext : ∀ c ∈ lowercase sourceExtension, ¬IsStop c)
    (hswitches : Mentions sourceExtension (unquoted printed.switches)) :
    ∃ call, ofLine printed.text sourceExtension = .ok call ∧ ∃ arg ∈ call.args, Mentions sourceExtension arg := by
  refine ⟨_, h.ofLine_text hline, ?_⟩
  rw [exists_mentions_iff]
  exact (exists_mem_split_iff (isLocal_mentions hext) _).mpr hswitches

/-- A switch behind the source file is lost and the source file is kept. -/
theorem ofLine_keeps_source :
    ofLine "C:\\VC\\CL.exe /c a.cpp /nologo" "cpp" = .ok ⟨"C:\\VC\\CL.exe", ["/c", "a.cpp", "/Zs"]⟩ ∧
      ¬∀ line sourceExtension call, ofLine line sourceExtension = .ok call →
        ∀ arg ∈ call.args, ¬Mentions sourceExtension arg := by
  have hread : ofLine "C:\\VC\\CL.exe /c a.cpp /nologo" "cpp" =
      .ok ⟨"C:\\VC\\CL.exe", ["/c", "a.cpp", "/Zs"]⟩ := by decide
  exact ⟨hread, fun h => h _ _ _ hread "a.cpp" (by decide) (by decide)⟩

end CompilerCall

end CompileFail
