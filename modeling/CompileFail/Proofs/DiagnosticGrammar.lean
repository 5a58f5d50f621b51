import CompileFail.Diagnostic
import CompileFail.Proofs.Blank
import CompileFail.Proofs.PathTitles

/-! The grammar of diagnostics. A line that is a diagnostic names a file, a position in it, the kind, a code
and the message, in this order, and whatever colons, parentheses and blanks the parts themselves hold, they
can be told apart in one way only. Reading a line finds its parts, and a line without them is rejected. -/

namespace CompileFail.Diagnostic

/-- A file with a position behind it. -/
structure IsPlace (file position : Text) : Prop where
  /-- The first two characters may be a drive letter and its colon. -/
  file_long : 2 ≤ file.length
  file_colon : ':' ∉ file.drop 2
  position_ne : position ≠ []
  position_chars : ∀ c ∈ position, c.isDigit = true ∨ c = ','

/-- Capital letters and, behind them, decimal digits. -/
def IsCode (code : Text) : Prop :=
  ∃ letters digits, letters ≠ [] ∧ digits ≠ [] ∧ (∀ c ∈ letters, c.isUpper = true) ∧
    (∀ c ∈ digits, isDecimalDigit c = true) ∧ code = letters ++ digits

/-- The parts of a line that is a diagnostic, from left to right. -/
structure Parts where
  file : Text
  position : Text
  kind : Text
  code : Text
  message : Text

namespace Parts

variable (parts : Parts)

/-- The file and the position in parentheses. -/
def place : Text := parts.file ++ '(' :: (parts.position ++ [')'])

def text : Text :=
  parts.place ++ ':' :: ' ' :: (parts.kind ++ ' ' :: (parts.code ++ ':' :: ' ' :: parts.message))

structure WellFormed : Prop where
  place_form : IsPlace parts.file parts.position
  kind_ne : parts.kind ≠ []
  kind_chars : ∀ c ∈ parts.kind, c.isLower = true ∨ c = ' '
  code_form : IsCode parts.code
  message_ne : parts.message ≠ []

/-- A text has these parts. -/
def Describes (s : Text) : Prop := parts.WellFormed ∧ s = parts.text

end Parts

/-! ### Classes of characters -/

theorem isPositionChar_iff {c : Char} : isPositionChar c = true ↔ c.isDigit = true ∨ c = ',' := by
  simp [isPositionChar]

theorem isKindChar_iff {c : Char} : isKindChar c = true ↔ c.isLower = true ∨ c = ' ' := by
  simp [isKindChar]

theorem toNat_of_isUpper {c : Char} (h : c.isUpper = true) : 65 ≤ c.toNat ∧ c.toNat ≤ 90 :=
  of_decide_eq_true h

theorem isKindChar_of_isUpper {c : Char} (h : c.isUpper = true) : isKindChar c = false := by
  have hrange := toNat_of_isUpper h
  by_contra hkind
  rcases isKindChar_iff.mp (Bool.of_not_eq_false hkind) with hlower | rfl
  · have hlower' : 97 ≤ c.toNat ∧ c.toNat ≤ 122 :=
      (Bool.and_eq_true_iff.mp hlower).imp of_decide_eq_true of_decide_eq_true
    omega
  · exact absurd h (by decide)

theorem isUpper_of_isDecimalDigit {c : Char} (h : isDecimalDigit c = true) : c.isUpper = false := by
  by_contra hupper
  have hrange := toNat_of_isUpper (Bool.of_not_eq_false hupper)
  rw [isDecimalDigit, if_pos (by omega)] at h
  have hdigit : 48 ≤ c.toNat ∧ c.toNat ≤ 57 := by
    simpa [Char.isDigit, UInt32.le_iff_toNat_le] using h
  omega

/-! ### The place -/

theorem endsInPosition_iff {s : Text} :
    endsInPosition s = true ↔ ∃ front position, position ≠ [] ∧ (∀ c ∈ position, c.isDigit = true ∨ c = ',') ∧
      s = front ++ '(' :: (position ++ [')']) := by
  constructor
  · intro h
    unfold endsInPosition at h
    split at h
    · next back hreverse =>
      rw [Bool.and_eq_true, beq_iff_eq] at h
      obtain ⟨hne, hopen⟩ := h
      obtain ⟨front, hfront⟩ := List.head?_eq_some_iff.mp hopen
      obtain ⟨hback, -⟩ := Text.eq_run_of_dropWhile hfront
      refine ⟨front.reverse, (back.takeWhile isPositionChar).reverse, ?_, ?_, ?_⟩
      · simpa using hne
      · intro c hc
        exact isPositionChar_iff.mp (List.mem_takeWhile_imp (List.mem_reverse.mp hc))
      · have hback' := congrArg List.reverse hback
        calc s = back.reverse ++ [')'] := by simpa using congrArg List.reverse hreverse
          _ = front.reverse ++ '(' :: ((back.takeWhile isPositionChar).reverse ++ [')']) := by
            rw [hback']
            simp
    · cases h
  · rintro ⟨front, position, hne, hchars, rfl⟩
    have hreverse : (front ++ '(' :: (position ++ [')'])).reverse =
        ')' :: (position.reverse ++ '(' :: front.reverse) := by simp
    have hrun : ∀ c ∈ position.reverse, isPositionChar c = true := fun c hc =>
      isPositionChar_iff.mpr (hchars c (List.mem_reverse.mp hc))
    have hopen : isPositionChar '(' = false := by decide
    rw [endsInPosition, hreverse]
    simp [Text.takeWhile_run hrun hopen, Text.dropWhile_run hrun hopen, hne]

theorem IsPlace.colon_not_mem {file position : Text} (h : IsPlace file position) :
    ':' ∉ file.drop 2 ++ '(' :: (position ++ [')']) := by
  have hposition : ':' ∉ position := by
    intro hmem
    rcases h.position_chars ':' hmem with hdigit | hcomma
    · exact absurd hdigit (by decide)
    · exact absurd hcomma (by decide)
  simp [h.file_colon, hposition]

/-- The place ends at the first colon behind the first two characters. -/
theorem afterPlace?_eq_some_iff {line rest : Text} (hfeed : '\n' ∉ line) :
    afterPlace? line = some rest ↔
      ∃ file position, IsPlace file position ∧
        line = file ++ '(' :: (position ++ [')']) ++ ':' :: ' ' :: rest := by
  constructor
  · intro h
    unfold afterPlace? at h
    split at h
    · next a b behind =>
      split at h
      · cases h
      · split at h
        · next left rest' hsplit =>
          split at h
          · next hends =>
            obtain rfl := Option.some.inj h
            obtain ⟨rfl, hcolon⟩ := Text.splitOnce?_eq_some_iff.mp hsplit
            obtain ⟨front, position, hne, hchars, rfl⟩ := endsInPosition_iff.mp hends
            refine ⟨a :: b :: front, position, ⟨by simp, ?_, hne, hchars⟩, rfl⟩
            intro hmem
            exact hcolon (List.mem_append_left _ hmem)
          · cases h
        · cases h
    · cases h
  · rintro ⟨file, position, hplace, rfl⟩
    have hcolon := hplace.colon_not_mem
    have hends : endsInPosition (file.drop 2 ++ '(' :: (position ++ [')'])) = true :=
      endsInPosition_iff.mpr ⟨file.drop 2, position, hplace.position_ne, hplace.position_chars, rfl⟩
    match file, hplace.file_long with
    | a :: b :: front, _ =>
      have hsplit : Text.splitOnce? ':' (front ++ '(' :: (position ++ [')']) ++ ':' :: ' ' :: rest) =
          some (front ++ '(' :: (position ++ [')']), ' ' :: rest) :=
        Text.splitOnce?_eq_some_iff.mpr ⟨rfl, hcolon⟩
      have hfirst : ¬(a == '\n' || b == '\n') = true := by
        simp only [List.cons_append, List.mem_cons, not_or] at hfeed
        simp [Ne.symm hfeed.1, Ne.symm hfeed.2.1]
      simp only [List.cons_append, afterPlace?, if_neg hfirst]
      rw [hsplit]
      exact if_pos hends

/-- The file ends at the last opening parenthesis of the place. -/
theorem place_unique {file file' position position' : Text} (h : IsPlace file position)
    (h' : IsPlace file' position')
    (heq : file ++ '(' :: (position ++ [')']) = file' ++ '(' :: (position' ++ [')'])) :
    file = file' ∧ position = position' := by
  have hreverse := congrArg List.reverse heq
  simp only [List.reverse_append, List.reverse_cons, List.reverse_nil, List.nil_append, List.append_assoc,
    List.cons_append, List.cons.injEq, true_and] at hreverse
  have hopen : isPositionChar '(' = false := by decide
  have hrun : ∀ c ∈ position.reverse, isPositionChar c = true := fun c hc =>
    isPositionChar_iff.mpr (h.position_chars c (List.mem_reverse.mp hc))
  have hrun' : ∀ c ∈ position'.reverse, isPositionChar c = true := fun c hc =>
    isPositionChar_iff.mpr (h'.position_chars c (List.mem_reverse.mp hc))
  have hposition := congrArg (List.takeWhile isPositionChar) hreverse
  have hfile := congrArg (List.dropWhile isPositionChar) hreverse
  rw [Text.takeWhile_run hrun hopen, Text.takeWhile_run hrun' hopen, List.reverse_inj] at hposition
  rw [Text.dropWhile_run hrun hopen, Text.dropWhile_run hrun' hopen, List.cons.injEq, List.reverse_inj] at hfile
  exact ⟨hfile.2, hposition⟩

/-! ### The kind and the code -/

/-- The kind and the blank behind it take in all that a kind can consist of. -/
theorem kind?_eq_some_iff {s kind rest : Text} :
    kind? s = some (kind, rest) ↔
      kind ≠ [] ∧ (∀ c ∈ kind, c.isLower = true ∨ c = ' ') ∧ (∀ c ∈ rest.head?, isKindChar c = false) ∧
        s = kind ++ ' ' :: rest := by
  constructor
  · intro h
    unfold kind? at h
    split at h
    · next words hreverse =>
      split at h
      · cases h
      · next hne =>
        obtain ⟨rfl, rfl⟩ := Prod.mk.inj (Option.some.inj h)
        have hrun : s.takeWhile isKindChar = words.reverse ++ [' '] := by
          rw [← List.reverse_inj, hreverse]
          simp
        refine ⟨by simpa using hne, fun c hc => ?_, fun c hc => ?_, ?_⟩
        · have hmem : c ∈ s.takeWhile isKindChar := by
            rw [hrun]
            exact List.mem_append_left _ hc
          exact isKindChar_iff.mp (List.mem_takeWhile_imp hmem)
        · have hhead := List.head?_dropWhile_not isKindChar s
          rw [Option.mem_def.mp hc] at hhead
          simpa using hhead
        · calc s = s.takeWhile isKindChar ++ s.dropWhile isKindChar := List.takeWhile_append_dropWhile.symm
            _ = words.reverse ++ ' ' :: s.dropWhile isKindChar := by rw [hrun]; simp
    · cases h
  · rintro ⟨hne, hchars, hrest, rfl⟩
    have hrun : ∀ c ∈ kind ++ [' '], isKindChar c = true := by
      intro c hc
      rcases List.mem_append.mp hc with hc | hc
      · exact isKindChar_iff.mpr (hchars c hc)
      · rw [List.mem_singleton.mp hc]
        decide
    have htake : rest.takeWhile isKindChar = [] ∧ rest.dropWhile isKindChar = rest := by
      cases rest with
      | nil => exact ⟨rfl, rfl⟩
      | cons c rest => simp [hrest c rfl]
    rw [List.append_cons, kind?, List.takeWhile_append_of_pos hrun, List.dropWhile_append_of_pos hrun, htake.1,
      htake.2]
    simp [hne]

theorem IsCode.exists_cons {code : Text} (h : IsCode code) :
    ∃ first rest, code = first :: rest ∧ first.isUpper = true := by
  obtain ⟨letters, digits, hne, -, hletters, -, rfl⟩ := h
  obtain ⟨first, letters, rfl⟩ := List.exists_cons_of_ne_nil hne
  exact ⟨first, letters ++ digits, rfl, hletters first List.mem_cons_self⟩

theorem code?_eq_some_iff {s code message : Text} :
    code? s = some (code, message) ↔ IsCode code ∧ s = code ++ ':' :: ' ' :: message := by
  constructor
  · intro h
    simp only [code?] at h
    split at h
    · next rest hrest =>
      split at h
      · cases h
      · next hne =>
        obtain ⟨rfl, rfl⟩ := Prod.mk.inj (Option.some.inj h)
        simp only [Bool.or_eq_true, List.isEmpty_iff, not_or] at hne
        obtain ⟨hdigits, -⟩ := Text.eq_run_of_dropWhile hrest
        refine ⟨⟨_, _, hne.1, hne.2, fun c => List.mem_takeWhile_imp, fun c => List.mem_takeWhile_imp, rfl⟩, ?_⟩
        rw [List.append_assoc, ← hdigits, List.takeWhile_append_dropWhile]
    · cases h
  · rintro ⟨⟨letters, digits, hletters, hdigits, hupper, hdecimal, rfl⟩, rfl⟩
    have hcolon : isDecimalDigit ':' = false := by decide
    obtain ⟨digit, more, hmore⟩ := List.exists_cons_of_ne_nil hdigits
    have hstop : digit.isUpper = false :=
      isUpper_of_isDecimalDigit (hdecimal digit (hmore ▸ List.mem_cons_self))
    have hline : letters ++ digits ++ ':' :: ' ' :: message =
        letters ++ digit :: (more ++ ':' :: ' ' :: message) := by simp [hmore]
    have htake : (letters ++ digits ++ ':' :: ' ' :: message).takeWhile Char.isUpper = letters := by
      rw [hline, Text.takeWhile_run hupper hstop]
    have hdrop : (letters ++ digits ++ ':' :: ' ' :: message).dropWhile Char.isUpper =
        digits ++ ':' :: ' ' :: message := by
      rw [hline, Text.dropWhile_run hupper hstop, hmore, List.cons_append]
    simp only [code?, htake, hdrop, Text.takeWhile_run hdecimal hcolon, Text.dropWhile_run hdecimal hcolon]
    simp [hletters, hdigits]

/-! ### The line -/

section Line

variable {line : Text} {parts parts' : Parts}

theorem Parts.getLast?_text (hne : parts.message ≠ []) : parts.text.getLast? = parts.message.getLast? := by
  have htext : parts.text = parts.place ++ ':' :: ' ' :: (parts.kind ++ ' ' :: (parts.code ++ [':', ' '])) ++
      parts.message := by simp [text]
  rw [htext, List.getLast?_append_of_ne_nil _ hne]

/-- Each reader finds its part and leaves the text of the parts behind it. -/
theorem Parts.WellFormed.reads (h : parts.WellFormed) (hfeed : '\n' ∉ parts.text) :
    afterPlace? parts.text = some (parts.kind ++ ' ' :: (parts.code ++ ':' :: ' ' :: parts.message)) ∧
      kind? (parts.kind ++ ' ' :: (parts.code ++ ':' :: ' ' :: parts.message)) =
        some (parts.kind, parts.code ++ ':' :: ' ' :: parts.message) ∧
      code? (parts.code ++ ':' :: ' ' :: parts.message) = some (parts.code, parts.message) := by
  refine ⟨?_, ?_, ?_⟩
  · exact (afterPlace?_eq_some_iff hfeed).mpr ⟨parts.file, parts.position, h.place_form, rfl⟩
  · refine kind?_eq_some_iff.mpr ⟨h.kind_ne, h.kind_chars, ?_, rfl⟩
    obtain ⟨first, more, hcode, hupper⟩ := h.code_form.exists_cons
    rw [hcode]
    rintro c ⟨⟩
    exact isKindChar_of_isUpper hupper
  · exact code?_eq_some_iff.mpr ⟨h.code_form, rfl⟩

theorem Parts.WellFormed.eq_of_text_eq (h : parts.WellFormed) (h' : parts'.WellFormed)
    (heq : parts.text = parts'.text) (hfeed : '\n' ∉ parts.text) : parts = parts' := by
  obtain ⟨hplace, hkind, hcode⟩ := h.reads hfeed
  obtain ⟨hplace', hkind', hcode'⟩ := h'.reads (heq ▸ hfeed)
  have hrest := Option.some.inj (hplace.symm.trans (heq ▸ hplace'))
  rw [← hrest] at hkind'
  obtain ⟨hkinds, hrest'⟩ := Prod.mk.inj (Option.some.inj (hkind.symm.trans hkind'))
  rw [← hrest'] at hcode'
  obtain ⟨hcodes, hmessages⟩ := Prod.mk.inj (Option.some.inj (hcode.symm.trans hcode'))
  rw [Parts.text, Parts.text, hrest] at heq
  obtain ⟨hfiles, hpositions⟩ := place_unique h.place_form h'.place_form (List.append_cancel_right heq)
  cases parts
  cases parts'
  simp_all

theorem Parts.Describes.ofLine?_eq (h : parts.Describes (Text.trimEnd line)) (hfeed : '\n' ∉ line) :
    ofLine? line = some ⟨Kind.ofText parts.kind, parts.code, parts.message⟩ := by
  obtain ⟨hparts, hline⟩ := h
  have hfeed' : '\n' ∉ parts.text := fun h => hfeed (Text.trimEnd_subset line (hline ▸ h))
  have hmessage : '\n' ∉ parts.message := fun h => hfeed' (by simp [Parts.text, h])
  obtain ⟨hplace, hkind, hcode⟩ := hparts.reads hfeed'
  simp [ofLine?, hline, hplace, hkind, hcode, hmessage]

/-- The message is what it takes to end the line with no blank, so it is not empty. -/
theorem exists_describes_of_ofLine? (hfeed : '\n' ∉ line) {diagnostic : Diagnostic}
    (h : ofLine? line = some diagnostic) : ∃ parts : Parts, parts.Describes (Text.trimEnd line) := by
  have hfeed' : '\n' ∉ Text.trimEnd line := fun h => hfeed (Text.trimEnd_subset line h)
  simp only [ofLine?, Option.bind_eq_bind, Option.bind_eq_some_iff, Prod.exists] at h
  obtain ⟨rest, hplace, kind, rest', hkind, code, message, hcode, -⟩ := h
  obtain ⟨file, position, hplace_form, hline⟩ := (afterPlace?_eq_some_iff hfeed').mp hplace
  obtain ⟨hkind_ne, hkind_chars, -, rfl⟩ := kind?_eq_some_iff.mp hkind
  obtain ⟨hcode_form, rfl⟩ := code?_eq_some_iff.mp hcode
  refine ⟨⟨file, position, kind, code, message⟩, ⟨hplace_form, hkind_ne, hkind_chars, hcode_form, ?_⟩, hline⟩
  rintro rfl
  have hblank : Text.trimEnd line =
      file ++ '(' :: (position ++ [')']) ++ ':' :: ' ' :: (kind ++ ' ' :: (code ++ [':'])) ++ [' '] := by
    rw [hline]
    simp
  have hlast := Text.getLast?_trimEnd line ' ' (by rw [hblank, List.getLast?_concat]; rfl)
  exact absurd hlast (by decide)

/-- Reading a single line decides the grammar: it is a diagnostic exactly if it has the parts of one, blanks at
its end aside. The parts are unique, and the kind, the code and the message are what is read, which gives them
back for a line that is made from parts. -/
theorem ofLine?_decides_grammar (line : Text) (hline : '\n' ∉ line) :
    ((ofLine? line).isSome = true ↔ ∃ parts : Parts, parts.Describes (Text.trimEnd line)) ∧
    (∀ parts parts' : Parts, parts.Describes (Text.trimEnd line) → parts'.Describes (Text.trimEnd line) →
      parts = parts') ∧
    (∀ parts : Parts, parts.Describes (Text.trimEnd line) →
      ofLine? line = some ⟨Kind.ofText parts.kind, parts.code, parts.message⟩) ∧
    (∀ parts : Parts, parts.Describes line → (∀ c ∈ parts.message.getLast?, isBlank c = false) →
      ofLine? line = some ⟨Kind.ofText parts.kind, parts.code, parts.message⟩) := by
  refine ⟨⟨fun h => ?_, ?_⟩, ?_, fun parts hparts => hparts.ofLine?_eq hline, ?_⟩
  · obtain ⟨diagnostic, hread⟩ := Option.isSome_iff_exists.mp h
    exact exists_describes_of_ofLine? hline hread
  · rintro ⟨parts, hparts⟩
    rw [hparts.ofLine?_eq hline]
    rfl
  · rintro parts parts' ⟨hparts, htext⟩ ⟨hparts', htext'⟩
    refine hparts.eq_of_text_eq hparts' (htext.symm.trans htext') fun h => ?_
    exact hline (Text.trimEnd_subset line (htext ▸ h))
  · rintro parts ⟨hparts, htext⟩ hlast
    rw [← Parts.getLast?_text hparts.message_ne, ← htext] at hlast
    have htrim : parts.Describes (Text.trimEnd line) := by
      rw [Text.trimEnd_of_getLast? hlast]
      exact ⟨hparts, htext⟩
    exact htrim.ofLine?_eq hline

theorem ofLine?_decides_grammar_nested :
    let line : Text := "C:\\a (1).cpp(12,5): fatal error C1083: b.h(3): note C1: no such file\r"
    '\n' ∉ line ∧ ofLine? line = some ⟨.fatalError, "C1083", "b.h(3): note C1: no such file"⟩ := by
  intro line
  have hline : '\n' ∉ line := by decide
  let parts : Parts := ⟨"C:\\a (1).cpp", "12,5", "fatal error", "C1083", "b.h(3): note C1: no such file"⟩
  have hparts : parts.Describes (Text.trimEnd line) :=
    ⟨{ place_form :=
        { file_long := by decide
          file_colon := by decide
          position_ne := by decide
          position_chars := by simp [parts] }
       kind_ne := by decide
       kind_chars := by simp [parts]
       code_form := ⟨"C", "1083", by decide, by decide, by simp, List.all_eq_true.mp (by decide), rfl⟩
       message_ne := by decide }, by decide⟩
  exact ⟨hline, (ofLine?_decides_grammar line hline).2.2.1 parts hparts⟩

end Line

end CompileFail.Diagnostic
