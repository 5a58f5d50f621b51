import CompileFail.Proofs.Judgement
import CompileFail.Proofs.Reactivation
import CompileFail.Proofs.ReportOrder
import CompileFail.Proofs.ReportTally
import CompileFail.Proofs.WalkedEntries

/-! Copies that are still there when a later run reads them. A unit does not lose its line: whatever the other
units and the compiler do, once it is due its file is announced and what comes of the line is reported. The copy
of a file is tagged like the file, so all of its tagged lines are checked. The line that was activated is a failure
if it is no comment any more; otherwise it is checked like any other line, and may be skipped or pass. -/

namespace CompileFail

/-- What can come of a line whose tag applies: a fault, or the judgement on what the compiler says about the copy
in some tree. -/
def Verifier.Judges (v : Verifier) (file : Path) (index : Nat) (expected : Text) (result : Except Fault Verdict) :
    Prop :=
  (∃ fault, result = .error fault) ∨ ∃ tree compilation,
    (v.compiler (copyPath file index v.toolName) tree).1 = .ok compilation ∧
      result = judge file (copyPath file index v.toolName) expected compilation

/-- What can come of the check of a line, whatever the compiler does. -/
def Verifier.Answers (v : Verifier) (file : Path) (lines : List Text) (index : Nat)
    (result : Except Fault Verdict) : Prop :=
  match Tag.scan (lines.getD index []) with
  | .untagged => result = .ok .skip
  | .malformed reason => result = .ok (.fail [⟨.error, reason.message⟩])
  | .occurrence o =>
    (o.appliesTo v.configuration = false → result = .ok .skip) ∧
      (o.appliesTo v.configuration = true → v.Judges file index o.expected result)

namespace Checks

variable {v : Verifier} {s : Session} {p q : Progress} {file : Path} {lines : List Text} {index : Nat}
  {o : Tag.Occurrence} {result : Except Fault Verdict}

theorem answers_of_not_applicable (h : v.applicable? lines index = none) (file : Path) (s : Session) :
    v.Answers file lines index (v.verifyLine file lines index s).1 := by
  unfold Verifier.applicable? at h
  unfold Verifier.Answers Verifier.verifyLine
  cases hscan : Tag.scan (lines.getD index []) with
  | untagged => rfl
  | malformed reason => rfl
  | occurrence o =>
      rw [hscan] at h
      have hother : ¬o.appliesTo v.configuration = true := by
        intro happlies
        simp only [happlies, if_true] at h
        cases h
      simp only [if_neg hother]
      exact ⟨fun _ => rfl, fun happlies => absurd happlies hother⟩

theorem answers_of_applicable (h : v.applicable? lines index = some o)
    (hresult : v.Judges file index o.expected result) : v.Answers file lines index result := by
  unfold Verifier.applicable? at h
  unfold Verifier.Answers
  split at h
  · next o' hscan =>
    split_ifs at h with happlies
    obtain rfl := Option.some.inj h
    rw [hscan]
    exact ⟨fun hother => absurd happlies (by simp [hother]), fun _ => hresult⟩
  · cases h

theorem judges_compileCopy (v : Verifier) (file : Path) (index : Nat) (expected : Text) (s : Session) :
    v.Judges file index expected (compileCopy v file index expected s).1 := by
  obtain ⟨note, -, hcompile⟩ := Verifier.exists_compile_bind_eq (copyPath file index v.toolName)
  rw [compileCopy, hcompile]
  cases hanswer : (v.compiler (copyPath file index v.toolName) s.tree).1 with
  | error fault => exact Or.inl ⟨fault, rfl⟩
  | ok compilation => exact Or.inr ⟨s.tree, compilation, hanswer, rfl⟩

/-! ### A unit and its line -/

/-- A unit under way whose file is announced and that is about a given line. -/
inductive Task.Attends (v : Verifier) (file : Path) (lines : List Text) (index : Nat) : Task → Prop
  | announced : Attends v file lines index (.announced file lines index)
  | copied {o : Tag.Occurrence} {content : Text} (h : v.applicable? lines index = some o) :
      Attends v file lines index (.copied file index o content)
  | compiled {content : Option Text} {result : Except Fault Verdict} (h : v.Answers file lines index result) :
      Attends v file lines index (.compiled file index content result)
  | settled {result : Except Fault Verdict} (h : v.Answers file lines index result) :
      Attends v file lines index (.settled file index result)

/-- What is reported of a line at its end. -/
def Reported (v : Verifier) (file : Path) (lines : List Text) (index : Nat) (steps : List Report.Step) : Prop :=
  ∃ result, v.Answers file lines index result ∧ Verdict.step file index result ∈ steps

/-- A step of such a unit leaves one, or it reports what came of the line. -/
theorem Task.Attends.step {task : Task} (h : task.Attends v file lines index) (s : Session) :
    (∃ next ∈ (task.step v s).1, next.Attends v file lines index) ∨
      Reported v file lines index task.reports := by
  cases h with
  | announced =>
      left
      cases happlicable : v.applicable? lines index with
      | none =>
          simp only [Task.step, happlicable]
          exact ⟨_, rfl, .settled (answers_of_not_applicable happlicable file s)⟩
      | some o =>
          simp only [Task.step, happlicable]
          split
          · exact ⟨_, rfl, .copied happlicable⟩
          · exact ⟨_, rfl, .compiled (answers_of_applicable happlicable (Or.inl ⟨_, rfl⟩))⟩
  | @copied o content happlicable =>
      have hanswers := answers_of_applicable happlicable (judges_compileCopy v file index o.expected s)
      exact Or.inl ⟨.compiled file index (some content) _, rfl, .compiled hanswers⟩
  | compiled hanswers => exact Or.inl ⟨_, rfl, .settled hanswers⟩
  | settled hanswers => exact Or.inr ⟨_, hanswers, List.mem_singleton_self _⟩

/-- A line of which a unit is due, or under way, or of which all is reported. -/
inductive Attended (v : Verifier) (file : Path) (lines : List Text) (index : Nat) (p : Progress) : Prop
  | due (h : .due (.verify file lines index) ∈ p.tasks)
  | underWay (hannounced : .announce file ∈ p.session.steps) {task : Task} (htask : task ∈ p.tasks)
      (h : task.Attends v file lines index)
  | reported (hannounced : .announce file ∈ p.session.steps)
      (h : Reported v file lines index p.session.steps)

theorem Move.attended (hmove : Move v p q) (h : Attended v file lines index p) :
    Attended v file lines index q := by
  obtain ⟨hsteps, htasks⟩ := hmove.grows
  cases h with
  | due hdue =>
      rcases htasks _ hdue with hkept | ⟨hreports, hnext⟩
      · exact .due hkept
      · exact .underWay (hreports (List.mem_singleton_self _)) (hnext _ rfl) .announced
  | underWay hannounced htask hattends =>
      rcases htasks _ htask with hkept | ⟨hreports, hnext⟩
      · exact .underWay (hsteps hannounced) hkept hattends
      · rcases hattends.step p.session with ⟨next, hstep, hattends'⟩ | ⟨result, hanswers, hresult⟩
        · exact .underWay (hsteps hannounced) (hnext next hstep) hattends'
        · exact .reported (hsteps hannounced) ⟨result, hanswers, hreports hresult⟩
  | reported hannounced hreported =>
      obtain ⟨result, hanswers, hresult⟩ := hreported
      exact .reported (hsteps hannounced) ⟨result, hanswers, hsteps hresult⟩

theorem Reaches.attended (hreach : Reaches v p q) (h : Attended v file lines index p) :
    Attended v file lines index q := by
  induction hreach with
  | refl => exact h
  | tail _ hmove ih => exact hmove.attended ih

/-- When a run is done, all is reported of a line that was due. -/
theorem reported_of_due (hreach : Reaches v p q) (hdone : q.Done)
    (hdue : .due (.verify file lines index) ∈ p.tasks) :
    .announce file ∈ q.session.steps ∧ Reported v file lines index q.session.steps := by
  have htasks := hdone.2
  cases hreach.attended (.due hdue) with
  | due h =>
      rw [htasks] at h
      cases h
  | underWay _ h =>
      rw [htasks] at h
      cases h
  | reported hannounced h => exact ⟨hannounced, h⟩

/-! ### The copy of an earlier run -/

/-- From a file that is read as a text with a tagged line comes a unit for that line. -/
theorem reported_of_tagged {text line : Text} {unread : List Path} {tasks : List Task}
    (hread : s.tree.readText file = .ok text) (hline : (Text.splitLines text)[index]? = some line)
    (htag : Tag.HoldsTag line)
    (hreach : Reaches v ⟨unread, tasks ++ (submit file s).1.map .due, (submit file s).2⟩ q) (hdone : q.Done) :
    .announce file ∈ q.session.steps ∧ Reported v file (Text.splitLines text) index q.session.steps := by
  have hindex : index ∈ Tag.taggedIndices (Text.splitLines text) :=
    Tag.mem_taggedIndices_iff.mpr ⟨line, hline, htag⟩
  have hwork : .verify file (Text.splitLines text) index ∈ (submit file s).1 := by
    rw [submit_eq, worksOf_of_ok hread]
    exact mem_ofText_iff.mpr (Or.inr ⟨index, hindex, rfl⟩)
  exact reported_of_due hreach hdone (List.mem_append_right _ (List.mem_map_of_mem hwork))

/-- What comes of a line that is activated already: it fails if it is no comment any more. Otherwise it is skipped
or judged as the line was that it comes from. -/
theorem answers_activated (hactivated : lines[index]? = some o.activated) (h : v.Answers file lines index result) :
    (Tag.scan o.activated = .malformed .incorrectFormat →
      result = .ok (.fail [⟨.error, Tag.Malformed.incorrectFormat.message⟩])) ∧
    (Tag.SameTag o o.activated → (o.appliesTo v.configuration = false → result = .ok .skip) ∧
      (o.appliesTo v.configuration = true → v.Judges file index o.expected result)) := by
  rw [Verifier.Answers, List.getD_eq_getElem?_getD, hactivated, Option.getD_some] at h
  constructor
  · intro hmalformed
    rwa [hmalformed] at h
  · rintro ⟨again, hagain, hconfiguration, hexpected⟩
    rw [hagain] at h
    dsimp only at h
    rw [Tag.Occurrence.appliesTo, ← hconfiguration, ← hexpected]
    exact h

/-- A line that is well formed is activated to one that names the same error or that is no comment any more, and
that is shorter; activated again and again it comes to the latter. So the copy of a file is tagged where the file
is. If such a copy is read in any run, whatever that run has done before, the run announces it and reports what
comes of the activated line: a failure if the line is no comment any more, and otherwise what comes of any line with
this tag. It is skipped if the tag is for another configuration, and else compiled and judged again. -/
theorem activation_keeps_tag (line : Text) (o : Tag.Occurrence) (hline : '\n' ∉ line.dropLast)
    (hscan : Tag.scan line = .occurrence o) :
    (Tag.scan o.activated = .malformed .incorrectFormat ∨ Tag.SameTag o o.activated) ∧
    o.activated.length + 2 ≤ line.length ∧
    (∃ n, 2 * n ≤ line.length ∧ Tag.scan (Tag.opened^[n] line) = .malformed .incorrectFormat ∧
      ∀ k < n, Tag.SameTag o (Tag.opened^[k] line)) ∧
    ∀ text index, (Text.splitLines text)[index]? = some line →
      let content := Tag.activate (Text.splitLines text) index o
      (Text.splitLines content).map Tag.isTagged = (Text.splitLines text).map Tag.isTagged ∧
      ∀ (v : Verifier) (copy : Path) (unread : List Path) (tasks : List Task) (s : Session) (q : Progress),
        s.tree.readText copy = .ok content →
        Reaches v ⟨unread, tasks ++ (submit copy s).1.map .due, (submit copy s).2⟩ q → q.Done →
        .announce copy ∈ q.session.steps ∧
        (Tag.scan o.activated = .malformed .incorrectFormat →
          .failure copy index [⟨.error, Tag.Malformed.incorrectFormat.message⟩] ∈ q.session.steps ∧
            ∀ root, (q.session.report root).outcome ≠ .passed) ∧
        (Tag.SameTag o o.activated → ∃ result, Verdict.step copy index result ∈ q.session.steps ∧
          (o.appliesTo v.configuration = false → result = .ok .skip) ∧
          (o.appliesTo v.configuration = true → v.Judges copy index o.expected result)) := by
  have hshorter := Tag.length_activated hline hscan
  refine ⟨Tag.scan_activated hline hscan, hshorter, Tag.exists_iterate_opened hline hscan, ?_⟩
  intro text index hindex content
  refine ⟨Tag.map_isTagged_activate hindex hscan, fun v copy unread tasks s q hread hreach hdone => ?_⟩
  have hcopied : (Text.splitLines content)[index]? = some o.activated := by
    obtain ⟨hbound, -⟩ := List.getElem?_eq_some_iff.mp hindex
    rw [Tag.splitLines_activate hindex hscan, List.getElem?_set_self hbound]
  have htag : Tag.HoldsTag o.activated := Tag.holdsTag_activated hline hscan
  obtain ⟨hannounced, result, hanswers, hreported⟩ := reported_of_tagged hread hcopied htag hreach hdone
  obtain ⟨hfails, hjudged⟩ := answers_activated hcopied hanswers
  refine ⟨hannounced, fun hmalformed => ?_, fun hsame => ⟨result, hreported, hjudged hsame⟩⟩
  obtain rfl := hfails hmalformed
  refine ⟨hreported, fun root hpassed => ?_⟩
  obtain ⟨hfailure, -⟩ := (Report.outcome_start_eq_passed_iff _ _).mp hpassed
  cases hfailure _ hreported

/-- A comment within a comment: the copy names the error once more, and the run that reads it has it compiled. -/
theorem activation_keeps_tag_nested :
    let line : Text := "// // f(); // [CompilationError-Debug]: no f\n"
    let o : Tag.Occurrence := ⟨some "Debug", "no f", "// f(); // [CompilationError-Debug]: no f\n"⟩
    let copy : Path := "/d/c.checkce-2.cpp"
    let v : Verifier := ⟨Compiler.ofAnswers fun _ _ => .ok ⟨true, some 0, []⟩, "Debug", "checkce"⟩
    let tree := FileTree.ofEntries [(["d"], .dir),
      (["d", "c.checkce-2.cpp"], .file (.text (("int a;\n" : Text) ++ o.activated)) false 0)]
    let s : Session := ((submit copy ⟨tree, []⟩).1.forM (Work.run v) (submit copy ⟨tree, []⟩).2).2
    Tag.scan line = .occurrence o ∧ Tag.SameTag o o.activated ∧
      (∃ n, 2 * n ≤ line.length ∧ Tag.scan (Tag.opened^[n] line) = .malformed .incorrectFormat ∧
        ∀ k < n, Tag.SameTag o (Tag.opened^[k] line)) ∧
      .announce copy ∈ s.steps ∧
      ∃ result, Verdict.step copy 1 result ∈ s.steps ∧ v.Judges copy 1 o.expected result := by
  intro line o copy v tree s
  obtain ⟨hactivated, -, hend, hcopies⟩ := activation_keeps_tag line o (by decide) (by decide)
  have hsame : Tag.SameTag o o.activated := hactivated.resolve_left (by decide)
  obtain ⟨-, hrun⟩ := hcopies (("int a;\n" : Text) ++ line) 1 (by decide)
  have hreach : Reaches v ⟨[], (submit copy ⟨tree, []⟩).1.map .due, (submit copy ⟨tree, []⟩).2⟩ ⟨[], [], s⟩ :=
    reaches_forM _
  obtain ⟨hannounced, -, hjudged⟩ :=
    hrun v copy [] [] ⟨tree, []⟩ ⟨[], [], s⟩ (by decide +kernel) hreach ⟨rfl, rfl⟩
  obtain ⟨result, hreported, -, hjudges⟩ := hjudged hsame
  -- What the run comes to is computed no further.
  clear_value s
  exact ⟨by decide, hsame, hend, hannounced, result, hreported, hjudges (by decide)⟩

/-- The copy of such a line passes if it fails to compile as the line says, and is skipped in another configuration.
Neither is reported to the user. -/
theorem left_copy_unreported :
    let line : Text := "// // f(); // [CompilationError-Debug]: no f\n"
    let o : Tag.Occurrence := ⟨some "Debug", "no f", "// f(); // [CompilationError-Debug]: no f\n"⟩
    let copy : Path := "/c.t-1.cpp"
    let tree := FileTree.ofEntries [(["c.t-1.cpp"], .file (.text (Tag.activate [line] 0 o)) false 0)]
    let answer : Path → Text → Except Fault Compilation := fun _ _ =>
      .ok ⟨false, some 2, "/c.t-1.t-1.cpp(1): error C3861: no f here\n"⟩
    let report (configuration : Text) : Report :=
      (perform (Verifier.answering answer configuration "t") [copy] 1 ⟨tree, []⟩).2.report ⟨"/"⟩
    Tag.scan line = .occurrence o ∧
      (report "Debug").outcome = .passed ∧ (report "Debug").err = [] ∧ (report "Debug").counts.passed = 1 ∧
      (report "Release").outcome = .passed ∧ (report "Release").err = [] ∧ (report "Release").counts.skipped = 1 := by
  decide +kernel

end Checks

end CompileFail
