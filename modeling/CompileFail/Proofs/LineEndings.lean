import CompileFail.Proofs.Activation
import CompileFail.Proofs.CarriageReturns
import CompileFail.Proofs.LineVerdict

/-! Source files under the two conventions for the end of a line. A tag is read alike under both: the token and
the parts around it lie in front of the terminator, and only the activated form takes the terminator over. So the
copy of a file with carriage returns is the copy of the file without, written with carriage returns, and a
compiler to which these are the same gives the line the same verdict. -/

namespace CompileFail

namespace Tag

variable {s line : Text} {configuration : Option Text}

/-! ### Tokens -/

theorem not_mem_tokenText {c : Char} (hc : isWordChar c = false) (hmark : c ∉ opening ++ ['-', ']'])
    (hname : IsNameable configuration) : c ∉ tokenText configuration := by
  simp only [List.mem_append, List.mem_cons, List.not_mem_nil, or_false, not_or] at hmark
  obtain ⟨hopening, hdash, hclosing⟩ := hmark
  cases configuration with
  | none => simp [tokenText, hopening, hclosing]
  | some name =>
      have hother : c ∉ name := by
        intro hmem
        have hword := isNameable_some.mp hname c hmem
        rw [hc] at hword
        cases hword
      simp [tokenText, hopening, hdash, hclosing, hother]

theorem startsToken_withReturns : StartsToken (Text.withReturns s) ↔ StartsToken s := by
  have hstarts : ∀ s, StartsToken s ↔ ∃ configuration, IsNameable configuration ∧ tokenText configuration <+: s := by
    intro s
    constructor
    · rintro ⟨configuration, rest, hname, rfl⟩
      exact ⟨configuration, hname, rest, rfl⟩
    · rintro ⟨configuration, hname, rest, rfl⟩
      exact ⟨configuration, rest, hname, rfl⟩
  rw [hstarts, hstarts]
  apply exists_congr
  intro configuration
  apply and_congr_right
  intro hname
  exact Text.prefix_withReturns_iff (not_mem_tokenText (by decide) (by decide) hname)
    (not_mem_tokenText (by decide) (by decide) hname)

theorem count_withReturns (s : Text) : count (Text.withReturns s) = count s := by
  classical
  induction s with
  | nil => rfl
  | cons c s ih =>
      by_cases hc : c = '\n'
      · subst hc
        rw [Text.withReturns_feed, count_cons_of_ne (by decide), count_cons_of_ne (by decide),
          count_cons_of_ne (by decide), ih]
      · have hstarts : StartsToken (c :: Text.withReturns s) ↔ StartsToken (c :: s) := by
          rw [← Text.withReturns_cons hc]
          exact startsToken_withReturns
        rw [Text.withReturns_cons hc, count_cons, count_cons, ih]
        simp only [hstarts]

theorem taggedIndices_withReturns (lines : List Text) :
    taggedIndices (lines.map Text.withReturns) = taggedIndices lines := by
  have htagged : ∀ line, isTagged (Text.withReturns line) = isTagged line := by
    intro line
    rw [isTagged, count_withReturns, isTagged]
  rw [taggedIndices, taggedIndices, List.zipIdx_map, List.filterMap_map]
  apply List.filterMap_congr
  intro numbered _
  simp [htagged]

/-! ### Readings -/

/-- A reading with its activated form written with carriage returns; nothing else in it changes. -/
def Scan.withReturns : Scan → Scan
  | .untagged => .untagged
  | .malformed reason => .malformed reason
  | .occurrence o => .occurrence { o with activated := Text.withReturns o.activated }

/-- The parts that the activated form takes from the body hold no line feed. -/
theorem scanBody_withReturns {body : Text} (hfeed : '\n' ∉ body) (terminator : Text) :
    scanBody body (Text.withReturns terminator) = (scanBody body terminator).withReturns := by
  unfold scanBody
  cases haround : around? body with
  | none => rfl
  | some a =>
      obtain ⟨-, hbody⟩ := around?_spec haround
      dsimp only
      cases hcomment : commentedOut? a.before with
      | none => rfl
      | some comment =>
          obtain ⟨indentation, first, rest⟩ := comment
          obtain ⟨-, -, hbefore⟩ := commentedOut?_eq_some_iff.mp hcomment
          cases hexpected : expected? a.after with
          | none => rfl
          | some expected =>
              dsimp only
              have hindentation : '\n' ∉ indentation := fun h => hfeed (by rw [hbody, hbefore]; simp [h])
              have hkept : '\n' ∉ keptFirst first := by
                have hfirst : first ∈ body := by
                  rw [hbody, hbefore]
                  simp
                rw [keptFirst]
                split
                · simp
                · rw [List.mem_singleton]
                  exact fun h => hfeed (h ▸ hfirst)
              have hrest : '\n' ∉ body.drop (indentation.length + 3) := fun h => hfeed (List.mem_of_mem_drop h)
              split
              · rfl
              · split
                · rfl
                · simp only [Scan.withReturns, Text.withReturns_append, Text.withReturns_of_not_mem hindentation,
                    Text.withReturns_of_not_mem hkept, Text.withReturns_of_not_mem hrest]

theorem scan_withReturns (hline : '\n' ∉ line.dropLast) (hplain : '\r' ∉ line) :
    scan (Text.withReturns line) = (scan line).withReturns := by
  have hfeed := Text.not_mem_splitTerminator hline
  have hsame := count_withReturns line
  match hcount : count line with
  | 0 =>
      rw [scan_of_count_zero hcount, scan_of_count_zero (hsame.trans hcount)]
      rfl
  | 1 =>
      rw [scan_of_count_one hcount, scan_of_count_one (hsame.trans hcount),
        Text.splitTerminator_withReturns hline hplain, scanBody_withReturns hfeed]
  | count + 2 =>
      have hmany : 2 ≤ Tag.count line := by omega
      have hmany' : 2 ≤ Tag.count (Text.withReturns line) := by omega
      rw [scan_of_two_le_count hmany, scan_of_two_le_count hmany']
      rfl

theorem activate_withReturns (lines : List Text) (index : Nat) (o : Occurrence) :
    activate (lines.map Text.withReturns) index { o with activated := Text.withReturns o.activated } =
      Text.withReturns (activate lines index o) := by
  rw [activate, activate, Text.withReturns_flatten, List.map_set]

end Tag

/-! ### Verdicts -/

/-- Whether a tree takes a text at a path does not depend on the text. -/
theorem FileTree.write_eq_error_congr {tree : FileTree} {p : Path} {e : OsError} {content : Text} (content' : Text)
    (h : tree.write p content = .error e) : tree.write p content' = .error e := by
  simp only [write, store, bind, Except.bind] at h ⊢
  cases hplace : tree.locateFor .creation p with
  | error e' =>
      rw [hplace] at h
      exact h
  | ok place =>
      rw [hplace] at h
      dsimp only at h ⊢
      split at h
      · exact h
      · cases h
      · cases h
      · cases h

/-- A compiler that gives one answer whether the copy that was written holds one text or the other. -/
def Compiler.AnswersAlike (compiler : Compiler) (tree : FileTree) (copy : Path) (content content' : Text) : Prop :=
  ∀ written written', tree.write copy content = .ok written → tree.write copy content' = .ok written' →
    (compiler copy written).1 = (compiler copy written').1

namespace Verifier

variable {v : Verifier} {file : Path} {lines lines' : List Text} {index : Nat} {line line' : Text} {s : Session}
  {o o' : Tag.Occurrence}

theorem result_of_write_eq_error (h : v.Applies lines index o) {e : OsError}
    (hwrite : s.tree.write (copyPath file index v.toolName) (Tag.activate lines index o) = .error e) :
    (v.verifyLine file lines index s).1 = .error (.fileWrite (copyPath file index v.toolName) e) := by
  rw [verifyLine_of_write_eq_error h hwrite]

/-- Two tags with the same expectation get the same verdict from a compiler to which the copies are alike. -/
theorem result_congr_of_applies (h : v.Applies lines index o) (h' : v.Applies lines' index o')
    (hexpected : o'.expected = o.expected)
    (halike : v.compiler.AnswersAlike s.tree (copyPath file index v.toolName) (Tag.activate lines index o)
      (Tag.activate lines' index o')) :
    (v.verifyLine file lines' index s).1 = (v.verifyLine file lines index s).1 := by
  cases hwrite : s.tree.write (copyPath file index v.toolName) (Tag.activate lines index o) with
  | error e =>
      have hwrite' := FileTree.write_eq_error_congr (Tag.activate lines' index o') hwrite
      rw [result_of_write_eq_error h hwrite, result_of_write_eq_error h' hwrite']
  | ok written =>
      cases hwrite' : s.tree.write (copyPath file index v.toolName) (Tag.activate lines' index o') with
      | error e =>
          rw [FileTree.write_eq_error_congr (Tag.activate lines index o) hwrite'] at hwrite
          cases hwrite
      | ok written' =>
          rw [(verifyLine_of_applies h hwrite).1, (verifyLine_of_applies h' hwrite').1, hexpected,
            halike written written' hwrite hwrite']

theorem result_withReturns (hline : lines[index]? = some line)
    (hline' : (lines.map Text.withReturns)[index]? = some line')
    (hscan : Tag.scan line' = (Tag.scan line).withReturns)
    (halike : ∀ o, Tag.scan line = .occurrence o →
      v.compiler.AnswersAlike s.tree (copyPath file index v.toolName) (Tag.activate lines index o)
        (Text.withReturns (Tag.activate lines index o))) :
    (v.verifyLine file (lines.map Text.withReturns) index s).1 = (v.verifyLine file lines index s).1 := by
  by_cases happlies : ∃ o, v.Applies lines index o
  · obtain ⟨o, ho⟩ := happlies
    obtain ⟨hread, hconcerns⟩ := (applies_iff hline).mp ho
    have ho' : v.Applies (lines.map Text.withReturns) index { o with activated := Text.withReturns o.activated } := by
      rw [applies_iff hline', hscan, hread]
      exact ⟨rfl, hconcerns⟩
    refine result_congr_of_applies ho ho' rfl ?_
    rw [Tag.activate_withReturns]
    exact halike o hread
  · have hnone' : ∀ o', ¬v.Applies (lines.map Text.withReturns) index o' := by
      intro o' ho'
      obtain ⟨hread, hconcerns⟩ := (applies_iff hline').mp ho'
      rw [hscan] at hread
      cases hscan' : Tag.scan line with
      | untagged => rw [hscan'] at hread; cases hread
      | malformed reason => rw [hscan'] at hread; cases hread
      | occurrence o =>
          rw [hscan'] at hread
          obtain rfl := Tag.Scan.occurrence.inj hread
          exact happlies ⟨o, (applies_iff hline).mpr ⟨hscan', hconcerns⟩⟩
    rw [verifyLine_of_spared hline' hnone', verifyLine_of_spared hline (not_exists.mp happlies), hscan]
    cases Tag.scan line <;> rfl

end Verifier

/-- Carriage returns in front of the line feeds change nothing about the lines of a source file, their tags and
the verdicts on them: the lines are as many, the same ones are tagged, each is read alike, and its copy is the
other copy written with carriage returns. -/
theorem settled_alike_withReturns (text : Text) (hplain : '\r' ∉ text) :
    let lines := Text.splitLines text
    let lines' := Text.splitLines (Text.withReturns text)
    lines'.length = lines.length ∧
    Tag.taggedIndices lines' = Tag.taggedIndices lines ∧
    ∀ index line, lines[index]? = some line →
      ∃ line', lines'[index]? = some line' ∧
        Tag.scan line' = (Tag.scan line).withReturns ∧
        (∀ o o', Tag.scan line = .occurrence o → Tag.scan line' = .occurrence o' →
          Tag.activate lines' index o' = Text.withReturns (Tag.activate lines index o)) ∧
        ∀ (v : Verifier) (file : Path) (s : Session),
          (∀ o, Tag.scan line = .occurrence o →
            v.compiler.AnswersAlike s.tree (copyPath file index v.toolName) (Tag.activate lines index o)
              (Text.withReturns (Tag.activate lines index o))) →
          (v.verifyLine file lines' index s).1 = (v.verifyLine file lines index s).1 := by
  intro lines lines'
  have hlines' : lines' = lines.map Text.withReturns := Text.splitLines_withReturns text
  rw [hlines']
  refine ⟨List.length_map _, Tag.taggedIndices_withReturns lines, ?_⟩
  intro index line hline
  have hmem : line ∈ lines := List.mem_of_getElem? hline
  have hsingle := ((Text.areLines_splitLines text).isLine hmem).feed_last
  have hscan := Tag.scan_withReturns hsingle fun h => hplain (Text.mem_of_mem_splitLines hmem h)
  have hline' : (lines.map Text.withReturns)[index]? = some (Text.withReturns line) := by
    rw [List.getElem?_map, hline, Option.map_some]
  refine ⟨Text.withReturns line, hline', hscan, ?_, ?_⟩
  · intro o o' hread hread'
    rw [hscan, hread] at hread'
    obtain rfl := Tag.Scan.occurrence.inj hread'
    exact Tag.activate_withReturns lines index o
  · intro v file s halike
    exact Verifier.result_withReturns hline hline' hscan halike

theorem settled_alike_withReturns_pass :
    let text : Text := "f();\n // f(); // [CompilationError-D]: no f\n"
    let lines := Text.splitLines text
    let answer : Path → Text → Except Fault Compilation := fun _ content =>
      if " f(); // [CompilationError-D]: no f".toList ∈ Text.lines content then
        .ok ⟨false, some 2, "/a.cc(2): error C3861: no f here\r\n"⟩
      else .ok ⟨true, some 0, []⟩
    let v := Verifier.answering answer "D" "t"
    let s : Session := ⟨FileTree.empty.insert [("a.cc" : Text)] (.file (.text text) false 0), []⟩
    '\r' ∉ text ∧
    (∀ o, Tag.scan (lines.getD 1 []) = .occurrence o →
      v.compiler.AnswersAlike s.tree (copyPath ⟨"/a.cc"⟩ 1 "t") (Tag.activate lines 1 o)
        (Text.withReturns (Tag.activate lines 1 o))) ∧
    (v.verifyLine ⟨"/a.cc"⟩ (Text.splitLines (Text.withReturns text)) 1 s).1 = .ok .pass := by
  intro text lines answer v s
  have hplain : '\r' ∉ text := by decide
  have hscan : Tag.scan (lines.getD 1 []) =
      .occurrence ⟨some "D".toList, "no f", " f(); // [CompilationError-D]: no f\n"⟩ := by decide
  have halike : ∀ o, Tag.scan (lines.getD 1 []) = .occurrence o →
      v.compiler.AnswersAlike s.tree (copyPath ⟨"/a.cc"⟩ 1 "t") (Tag.activate lines 1 o)
        (Text.withReturns (Tag.activate lines 1 o)) := by
    intro o ho written written' hwritten hwritten'
    obtain rfl := Tag.Scan.occurrence.inj (hscan.symm.trans ho)
    obtain rfl := Except.ok.inj hwritten
    obtain rfl := Except.ok.inj hwritten'
    rfl
  have hverdict : (v.verifyLine ⟨"/a.cc"⟩ lines 1 s).1 = .ok .pass := by decide +kernel
  obtain ⟨line', hline', -, -, hsame⟩ := (settled_alike_withReturns text hplain).2.2 1 (lines.getD 1 []) (by decide)
  exact ⟨hplain, halike, (hsame v ⟨"/a.cc"⟩ s halike).trans hverdict⟩

end CompileFail
