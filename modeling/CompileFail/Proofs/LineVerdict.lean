import CompileFail.Proofs.Judgement
import CompileFail.Proofs.LineTrace

/-! The verdict on one line. A line without a tag and one whose tag is meant for another configuration are
skipped, and a malformed tag fails; none of this takes a compiler. In all other cases the compiler is asked once,
and if it can be asked, its answer decides: the line passes only if the compilation failed with an error of the
expected text as its first diagnostic. -/

namespace CompileFail

/-- A report on a failed check: an error, and then what there is to say about it. -/
def Report.IsFailure (report : List Report.Line) : Prop :=
  ∃ first rest, report = first :: rest ∧ first.severity = .error ∧ ∀ entry ∈ rest, entry.severity = .message

/-- A tag holds in a configuration: it names none or this one. -/
def Tag.Occurrence.Concerns (o : Tag.Occurrence) (configuration : Text) : Prop :=
  o.configuration = none ∨ o.configuration = some configuration

theorem Tag.Occurrence.appliesTo_iff {o : Tag.Occurrence} {configuration : Text} :
    o.appliesTo configuration = true ↔ o.Concerns configuration := by
  rw [appliesTo, Concerns]
  cases o.configuration <;> simp

/-- The files that the compiler was asked about so far. -/
def Session.compiled (s : Session) : List Path := (Event.compilations s.events).map Prod.fst

theorem Session.compiled_addAll (s : Session) (events : List Event) :
    (s.addAll events).compiled = s.compiled ++ (Event.compilations events).map Prod.fst := by
  rw [compiled, events_addAll, Event.compilations_append, List.map_append, compiled]

namespace Verifier

/-! ### Judgements -/

section Judge

variable {file copy : Path} {expected : Text} {compilation : Compilation} {diagnostic : Diagnostic}

/-- The line on which the first diagnostic is expected; without one it is empty. -/
def firstLine (copy : Path) (compilation : Compilation) : Text :=
  (Diagnostic.firstLine? compilation.output copy.shownName).getD []

theorem judge_of_success (file copy : Path) (expected : Text) (h : compilation.success = true) :
    ∃ report, judge file copy expected compilation = .ok (.fail report) :=
  ⟨_, if_pos h⟩

theorem judge_of_unread (expected : Text) (hfailed : compilation.success = false)
    (hunread : Diagnostic.ofLine? (firstLine copy compilation) = none) :
    judge file copy expected compilation =
      .error (.unrecognizedDiagnostic file (firstLine copy compilation)) := by
  have hsuccess : ¬compilation.success = true := by simp [hfailed]
  rw [firstLine] at hunread
  simp only [judge, if_neg hsuccess, hunread]
  rfl

theorem judge_of_read (file : Path) (expected : Text) (hfailed : compilation.success = false)
    (hread : Diagnostic.ofLine? (firstLine copy compilation) = some diagnostic) :
    (diagnostic.kind = .error ∧ expected <:+: diagnostic.message ∧
      judge file copy expected compilation = .ok .pass) ∨
    (¬(diagnostic.kind = .error ∧ expected <:+: diagnostic.message) ∧
      ∃ report, judge file copy expected compilation = .ok (.fail report)) := by
  rw [firstLine, Diagnostic.ofLine?_firstLine?] at hread
  rcases judge_cases file copy expected compilation with ⟨hexpected, hjudge⟩ | ⟨hunreadable, -⟩ |
    ⟨hunexpected, -, hjudge⟩
  · obtain ⟨hkind, hmessage⟩ := (failsAsExpected_iff hfailed hread).mp hexpected
    exact Or.inl ⟨hkind, hmessage, hjudge⟩
  · exact absurd hunreadable (not_failsUnreadably hread)
  · exact Or.inr ⟨fun h => hunexpected ((failsAsExpected_iff hfailed hread).mpr h), hjudge⟩

theorem isFailure_of_judge {report : List Report.Line}
    (h : judge file copy expected compilation = .ok (.fail report)) : Report.IsFailure report := by
  unfold judge at h
  split_ifs at h
  · cases h
    exact ⟨_, [], rfl, rfl, by simp⟩
  · dsimp only at h
    split at h
    · cases h
    · split_ifs at h
      · cases h
        exact ⟨_, _, rfl, rfl, by simp⟩
      · cases h
        exact ⟨_, _, rfl, rfl, by simp⟩
      · cases h

end Judge

/-- What the compiler's answer about the copy of a file makes of the check. -/
structure DecidedBy (file copy : Path) (expected : Text) (answer : Except Fault Compilation)
    (result : Except Fault Verdict) : Prop where
  fault : ∀ fault, answer = .error fault → result = .error fault
  success : ∀ compilation, answer = .ok compilation → compilation.success = true →
    ∃ report, result = .ok (.fail report)
  unread : ∀ compilation, answer = .ok compilation → compilation.success = false →
    (result = .error (.unrecognizedDiagnostic file (firstLine copy compilation)) ↔
      Diagnostic.ofLine? (firstLine copy compilation) = none)
  otherKind : ∀ compilation diagnostic, answer = .ok compilation → compilation.success = false →
    Diagnostic.ofLine? (firstLine copy compilation) = some diagnostic → diagnostic.kind ≠ .error →
    ∃ report, result = .ok (.fail report)
  otherMessage : ∀ compilation diagnostic, answer = .ok compilation → compilation.success = false →
    Diagnostic.ofLine? (firstLine copy compilation) = some diagnostic → diagnostic.kind = .error →
    ¬expected <:+: diagnostic.message → ∃ report, result = .ok (.fail report)
  pass_iff : result = .ok .pass ↔ ∃ compilation diagnostic, answer = .ok compilation ∧
    compilation.success = false ∧ Diagnostic.ofLine? (firstLine copy compilation) = some diagnostic ∧
    diagnostic.kind = .error ∧ expected <:+: diagnostic.message

section Decision

variable {file copy : Path} {expected : Text} {answer : Except Fault Compilation} {compilation : Compilation}

theorem judge_eq_unrecognized_iff (hfailed : compilation.success = false) :
    judge file copy expected compilation =
        .error (.unrecognizedDiagnostic file (firstLine copy compilation)) ↔
      Diagnostic.ofLine? (firstLine copy compilation) = none := by
  refine ⟨fun hjudge => ?_, judge_of_unread expected hfailed⟩
  cases hread : Diagnostic.ofLine? (firstLine copy compilation) with
  | none => rfl
  | some diagnostic =>
      rcases judge_of_read file expected hfailed hread with ⟨-, -, hpass⟩ | ⟨-, report, hfail⟩
      · cases hjudge.symm.trans hpass
      · cases hjudge.symm.trans hfail

theorem exists_fail_of_mismatch {diagnostic : Diagnostic} (file : Path) (hfailed : compilation.success = false)
    (hread : Diagnostic.ofLine? (firstLine copy compilation) = some diagnostic)
    (hmismatch : ¬(diagnostic.kind = .error ∧ expected <:+: diagnostic.message)) :
    ∃ report, judge file copy expected compilation = .ok (.fail report) := by
  rcases judge_of_read file expected hfailed hread with ⟨hkind, hmessage, -⟩ | ⟨-, hfail⟩
  · exact absurd ⟨hkind, hmessage⟩ hmismatch
  · exact hfail

theorem decidedBy_ok (file copy : Path) (expected : Text) (compilation : Compilation) :
    DecidedBy file copy expected (.ok compilation) (judge file copy expected compilation) where
  fault := nofun
  success := by
    rintro _ ⟨⟩ hsuccess
    exact judge_of_success file copy expected hsuccess
  unread := by
    rintro _ ⟨⟩ hfailed
    exact judge_eq_unrecognized_iff hfailed
  otherKind := by
    rintro _ diagnostic ⟨⟩ hfailed hread hkind
    exact exists_fail_of_mismatch file hfailed hread fun h => hkind h.1
  otherMessage := by
    rintro _ diagnostic ⟨⟩ hfailed hread - hmessage
    exact exists_fail_of_mismatch file hfailed hread fun h => hmessage h.2
  pass_iff := by
    rw [judge_eq_pass_iff, FailsAsExpected]
    simp only [firstLine, Diagnostic.ofLine?_firstLine?]
    constructor
    · rintro ⟨hfailed, diagnostic, hread, hkind, hmessage⟩
      exact ⟨compilation, diagnostic, rfl, hfailed, hread, hkind, hmessage⟩
    · rintro ⟨_, diagnostic, ⟨⟩, hfailed, hread, hkind, hmessage⟩
      exact ⟨hfailed, diagnostic, hread, hkind, hmessage⟩

theorem decidedBy_error (file copy : Path) (expected : Text) (fault : Fault) :
    DecidedBy file copy expected (.error fault) (.error fault) where
  fault := by
    rintro _ ⟨⟩
    rfl
  success := nofun
  unread := nofun
  otherKind := nofun
  otherMessage := nofun
  pass_iff := by
    constructor
    · rintro ⟨⟩
    · rintro ⟨_, _, ⟨⟩, -⟩

theorem decidedBy_bind_judge (file copy : Path) (expected : Text) (answer : Except Fault Compilation) :
    DecidedBy file copy expected answer (answer.bind (judge file copy expected)) := by
  cases answer with
  | error fault => exact decidedBy_error file copy expected fault
  | ok compilation => exact decidedBy_ok file copy expected compilation

end Decision

/-! ### The check of a line -/

theorem compiled_removeCopy (copy : Path) (s : Session) : (removeCopy copy s).compiled = s.compiled := by
  cases hremove : s.tree.remove copy with
  | ok tree =>
      rw [removeCopy_of_ok hremove, Session.compiled_addAll]
      exact List.append_nil _
  | error e =>
      obtain ⟨note, hremoved⟩ := exists_removeCopy_logged copy
      rw [hremoved s e hremove, Session.compiled_addAll, Event.compilations_map_logged]
      exact List.append_nil _

/-- The check of a line goes by the rules. -/
structure GoesByRules (v : Verifier) (file : Path) (lines : List Text) (index : Nat) (line : Text)
    (s : Session) : Prop where
  /-- The compiler is asked once if the tag is well-formed and holds in the configuration. -/
  asked : ∀ o, Tag.scan line = .occurrence o → o.Concerns v.configuration →
    (v.verifyLine file lines index s).2.compiled = s.compiled ++ [copyPath file index v.toolName]
  /-- Otherwise it is not asked, and any other compiler would do as well. -/
  spared : (∀ o, Tag.scan line = .occurrence o → ¬o.Concerns v.configuration) →
    (v.verifyLine file lines index s).2.compiled = s.compiled ∧
    ∀ compiler, { v with compiler := compiler }.verifyLine file lines index s = v.verifyLine file lines index s
  skip_iff : (v.verifyLine file lines index s).1 = .ok .skip ↔
    Tag.scan line = .untagged ∨ ∃ o, Tag.scan line = .occurrence o ∧ ¬o.Concerns v.configuration
  /-- The report on a malformed tag depends on neither the configuration nor the compiler. -/
  malformed : ∀ reason, Tag.scan line = .malformed reason →
    (v.verifyLine file lines index s).1 = .ok (.fail [⟨.error, reason.message⟩])
  decided : ∀ o written, Tag.scan line = .occurrence o → o.Concerns v.configuration →
    s.tree.write (copyPath file index v.toolName) (Tag.activate lines index o) = .ok written →
    DecidedBy file (copyPath file index v.toolName) o.expected
      (v.compiler (copyPath file index v.toolName) written).1 (v.verifyLine file lines index s).1
  failure : ∀ report, (v.verifyLine file lines index s).1 = .ok (.fail report) → Report.IsFailure report

section Check

variable {v : Verifier} {file : Path} {lines : List Text} {index : Nat} {line : Text} {s : Session}
  {o : Tag.Occurrence}

theorem applies_iff (hline : lines[index]? = some line) :
    v.Applies lines index o ↔ Tag.scan line = .occurrence o ∧ o.Concerns v.configuration := by
  rw [Applies, List.getD_eq_getElem?_getD, hline, Option.getD_some, Tag.Occurrence.appliesTo_iff]

theorem verifyLine_of_applies (h : v.Applies lines index o) {written : FileTree}
    (hwrite : s.tree.write (copyPath file index v.toolName) (Tag.activate lines index o) = .ok written) :
    (v.verifyLine file lines index s).1 =
        (v.compiler (copyPath file index v.toolName) written).1.bind
          (judge file (copyPath file index v.toolName) o.expected) ∧
      (v.verifyLine file lines index s).2.compiled = s.compiled ++ [copyPath file index v.toolName] := by
  obtain ⟨entries, hverify⟩ := verifyLine_of_write_eq_ok h hwrite
  rw [hverify]
  refine ⟨rfl, ?_⟩
  have hentries := Event.compilations_map_logged entries
  have hevents : ∀ (copy : Path) content, Event.compilations
      (.wrote copy :: .compiled copy content :: entries.map .logged) = [(copy, content)] := by
    intro copy content
    change (copy, content) :: Event.compilations (entries.map .logged) = _
    rw [hentries]
  rw [compiled_removeCopy, Session.compiled_addAll, hevents]
  rfl

/-- The result of a check that takes no compiler. -/
theorem verifyLine_of_spared (hline : lines[index]? = some line) (h : ∀ o, ¬v.Applies lines index o) (file : Path)
    (s : Session) :
    (v.verifyLine file lines index s).1 =
      match Tag.scan line with
      | .malformed reason => .ok (.fail [⟨.error, reason.message⟩])
      | _ => .ok .skip := by
  have hget : lines.getD index [] = line := by rw [List.getD_eq_getElem?_getD, hline, Option.getD_some]
  simp only [verifyLine, hget]
  cases hscan : Tag.scan line with
  | untagged => rfl
  | malformed reason => rfl
  | occurrence o =>
      have hother : ¬o.appliesTo v.configuration = true := by
        intro happlies
        rw [Tag.Occurrence.appliesTo_iff] at happlies
        exact h o ((applies_iff hline).mpr ⟨hscan, happlies⟩)
      simp only [if_neg hother]
      rfl

theorem goesByRules_of_applies (hline : lines[index]? = some line) (h : v.Applies lines index o)
    {written : FileTree}
    (hwrite : s.tree.write (copyPath file index v.toolName) (Tag.activate lines index o) = .ok written) :
    v.GoesByRules file lines index line s := by
  obtain ⟨hresult, hcompiled⟩ := verifyLine_of_applies h hwrite
  obtain ⟨hscan, hconcerns⟩ := (applies_iff hline).mp h
  have hdecided := decidedBy_bind_judge file (copyPath file index v.toolName) o.expected
    (v.compiler (copyPath file index v.toolName) written).1
  rw [← hresult] at hdecided
  have hnot_skip : (v.verifyLine file lines index s).1 ≠ .ok .skip := by
    rw [hresult]
    cases (v.compiler (copyPath file index v.toolName) written).1 with
    | error fault => rintro ⟨⟩
    | ok compilation => exact judge_ne_skip
  constructor
  · intro o' _ _
    exact hcompiled
  · intro hnone
    exact absurd hconcerns (hnone o hscan)
  · refine iff_of_false hnot_skip ?_
    rintro (huntagged | ⟨o', hscan', hother⟩)
    · cases hscan.symm.trans huntagged
    · obtain rfl := Tag.Scan.occurrence.inj (hscan.symm.trans hscan')
      exact hother hconcerns
  · intro reason hmalformed
    cases hscan.symm.trans hmalformed
  · intro o' written' hscan' _ hwrite'
    obtain rfl := Tag.Scan.occurrence.inj (hscan.symm.trans hscan')
    obtain rfl := Except.ok.inj (hwrite.symm.trans hwrite')
    exact hdecided
  · intro report hreport
    rw [hresult] at hreport
    cases hanswer : (v.compiler (copyPath file index v.toolName) written).1 with
    | error fault =>
        rw [hanswer] at hreport
        cases hreport
    | ok compilation =>
        rw [hanswer] at hreport
        exact isFailure_of_judge hreport

theorem goesByRules_of_spared (hline : lines[index]? = some line) (h : ∀ o, ¬v.Applies lines index o) :
    v.GoesByRules file lines index line s := by
  have hresult := verifyLine_of_spared hline h file s
  obtain ⟨result, entries, hverify⟩ := verifyLine_of_not_applies h file
  have hother : ∀ o, Tag.scan line = .occurrence o → ¬o.Concerns v.configuration := fun o hscan hconcerns =>
    h o ((applies_iff hline).mpr ⟨hscan, hconcerns⟩)
  constructor
  · intro o hscan hconcerns
    exact absurd hconcerns (hother o hscan)
  · intro _
    refine ⟨?_, fun compiler => (hverify compiler s).trans (hverify v.compiler s).symm⟩
    have hlogged : v.verifyLine file lines index s = (result, s.addAll (entries.map .logged)) :=
      hverify v.compiler s
    rw [hlogged, Session.compiled_addAll, Event.compilations_map_logged]
    exact List.append_nil _
  · rw [hresult]
    cases hscan : Tag.scan line with
    | untagged => simp
    | malformed reason => simp
    | occurrence o => simp [hother o hscan]
  · intro reason hmalformed
    rw [hresult, hmalformed]
  · intro o written hscan hconcerns
    exact absurd hconcerns (hother o hscan)
  · intro report hreport
    rw [hresult] at hreport
    split at hreport
    · cases hreport
      exact ⟨_, [], rfl, rfl, by simp⟩
    · cases hreport

/-- Where the copy can be written, the check of every line goes by the rules, whatever the compiler does. -/
theorem verifyLine_goesByRules (v : Verifier) (file : Path) (s : Session) (hline : lines[index]? = some line)
    (hwrite : ∀ o, v.Applies lines index o → ∃ written,
      s.tree.write (copyPath file index v.toolName) (Tag.activate lines index o) = .ok written) :
    v.GoesByRules file lines index line s := by
  by_cases happlies : ∃ o, v.Applies lines index o
  · obtain ⟨o, ho⟩ := happlies
    obtain ⟨written, hwritten⟩ := hwrite o ho
    exact goesByRules_of_applies hline ho hwritten
  · exact goesByRules_of_spared hline (not_exists.mp happlies)

/-- A line for one configuration, which fails to compile as its tag expects. -/
theorem verifyLine_goesByRules_pass :
    let lines : List Text := ["// f(); // [CompilationError-D]: no f"]
    let tree := FileTree.empty.insert [("a.cc" : Text)] (.file (.text (lines.getD 0 [])) false 0)
    let answer : Path → Text → Except Fault Compilation := fun _ _ =>
      .ok ⟨false, some 2, "A.T-1.CC\n\n/a.t-1.cc(1): error C3861: no f here\n"⟩
    let v := Verifier.answering answer "D" "t"
    (∀ o, v.Applies lines 0 o → ∃ written,
      tree.write (copyPath ⟨"/a.cc"⟩ 0 "t") (Tag.activate lines 0 o) = .ok written) ∧
      (v.verifyLine ⟨"/a.cc"⟩ lines 0 ⟨tree, []⟩).1 = .ok .pass ∧
      (v.verifyLine ⟨"/a.cc"⟩ lines 0 ⟨tree, []⟩).2.compiled = [⟨"/a.t-1.cc"⟩] := by
  intro lines tree answer v
  let o : Tag.Occurrence := ⟨some "D", "no f", "f(); // [CompilationError-D]: no f"⟩
  have hscan : Tag.scan "// f(); // [CompilationError-D]: no f" = .occurrence o := by rfl
  have hcopy : copyPath ⟨"/a.cc"⟩ 0 "t" = ⟨"/a.t-1.cc"⟩ := by decide +kernel
  have hwritten : ∃ written, tree.write (copyPath ⟨"/a.cc"⟩ 0 "t") (Tag.activate lines 0 o) = .ok written ∧
      (v.compiler (copyPath ⟨"/a.cc"⟩ 0 "t") written).1 =
        .ok ⟨false, some 2, "A.T-1.CC\n\n/a.t-1.cc(1): error C3861: no f here\n"⟩ := by
    rw [hcopy]
    exact ⟨_, rfl, rfl⟩
  obtain ⟨written, hwritten, hanswer⟩ := hwritten
  have hwrite : ∀ o, v.Applies lines 0 o → ∃ written,
      tree.write (copyPath ⟨"/a.cc"⟩ 0 "t") (Tag.activate lines 0 o) = .ok written := by
    rintro o' ⟨hscan', -⟩
    obtain rfl := Tag.Scan.occurrence.inj (hscan.symm.trans hscan')
    exact ⟨written, hwritten⟩
  have hrules : v.GoesByRules ⟨"/a.cc"⟩ lines 0 "// f(); // [CompilationError-D]: no f" ⟨tree, []⟩ :=
    verifyLine_goesByRules v ⟨"/a.cc"⟩ ⟨tree, []⟩ rfl hwrite
  refine ⟨hwrite, ?_, (hrules.asked o hscan (Or.inr rfl)).trans (congrArg (fun copy => [copy]) hcopy)⟩
  have hread : Diagnostic.ofLine? (firstLine (copyPath ⟨"/a.cc"⟩ 0 "t")
      ⟨false, some 2, "A.T-1.CC\n\n/a.t-1.cc(1): error C3861: no f here\n"⟩) =
        some ⟨.error, "C3861", "no f here"⟩ := by
    rw [hcopy]
    rfl
  refine (hrules.decided o written hscan (Or.inr rfl) hwritten).pass_iff.mpr ?_
  exact ⟨_, _, hanswer, rfl, hread, rfl, [], " here", rfl⟩

end Check

end Verifier

end CompileFail
