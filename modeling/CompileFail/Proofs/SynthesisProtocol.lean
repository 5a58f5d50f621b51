import CompileFail.Proofs.BuildTranscript
import CompileFail.Proofs.Deeds
import CompileFail.Proofs.TouchedFile

/-! The protocol by which a recipe is obtained. Which builds are asked for, what is touched between them and
how each way of failing is told follow from the results of the builds and from the files of the target; the
order of the steps decides which of several reasons is given. -/

namespace CompileFail

variable {system : BuildSystem} {layout : Layout} {configuration : Text} {settings : Settings.Check}
  {tree : FileTree}

/-! ### The steps -/

theorem does_run (system : BuildSystem) (dir : Path) (configuration : Text) (mode : Build.Mode)
    (tree : FileTree) :
    (system.run dir configuration mode).Does tree (system dir configuration mode tree).1
      (system dir configuration mode tree).2 [.built mode] :=
  (Act.does_log ..).bind ((Act.does_emit rfl tree).bind (Act.does_of_change rfl))

/-- What a full build means for what comes behind it. -/
def Build.fullResult (configuration : Text) : Except Fault Program.Output → Except Fault Unit
  | .error fault => .error fault
  | .ok output =>
    if output.success then .ok ()
    else if CompilerCall.refusesConfiguration output.stdout then .error (.invalidConfiguration configuration)
    else .error .buildFailed

/-- What a build that only compiles means for what comes behind it. -/
def Build.staleResult : Except Fault Program.Output → Except Fault Text
  | .error fault => .error fault
  | .ok output => if output.success then .ok output.stdout else .error .compileOnlyBuildFailed

theorem does_buildFull (system : BuildSystem) (layout : Layout) (configuration : Text) (tree : FileTree) :
    (buildFull system layout configuration).Does tree
      (Build.fullResult configuration (system layout.solutionDir configuration .full tree).1)
      (system layout.solutionDir configuration .full tree).2 [.built .full] := by
  have hrun := does_run system layout.solutionDir configuration .full tree
  rw [buildFull]
  cases hresult : (system layout.solutionDir configuration .full tree).1 with
  | error fault =>
      rw [hresult] at hrun
      exact hrun.bind_error
  | ok output =>
      rw [hresult] at hrun
      refine hrun.bind ?_
      rw [Build.fullResult]
      split
      · exact Act.does_pure ..
      · split
        · exact Act.does_throw ..
        · exact (Act.does_log ..).bind (Act.does_throw ..)

theorem does_buildStale (system : BuildSystem) (layout : Layout) (configuration : Text) (tree : FileTree) :
    (buildStale system layout configuration).Does tree
      (Build.staleResult (system layout.solutionDir configuration .compileOnly tree).1)
      (system layout.solutionDir configuration .compileOnly tree).2 [.built .compileOnly] := by
  have hrun := does_run system layout.solutionDir configuration .compileOnly tree
  rw [buildStale]
  cases hresult : (system layout.solutionDir configuration .compileOnly tree).1 with
  | error fault =>
      rw [hresult] at hrun
      exact hrun.bind_error
  | ok output =>
      rw [hresult] at hrun
      refine hrun.bind ?_
      rw [Build.staleResult]
      split
      · exact Act.does_pure ..
      · exact (Act.does_log ..).bind (Act.does_throw ..)

theorem does_touch (file : Path) (tree : FileTree) :
    (∃ touched, tree.touch file = .ok touched ∧ (touch file).Does tree (.ok ()) touched [.touched file]) ∨
      ∃ e, tree.touch file = .error e ∧ (touch file).Does tree (.error (.fileWrite file e)) tree [] := by
  cases h : tree.touch file with
  | ok touched =>
      refine Or.inl ⟨touched, rfl, .after_log _ _ _ ?_⟩
      exact .bind (a := ()) (Act.does_of_change (by simp only [h])) (Act.does_emit rfl touched)
  | error e =>
      refine Or.inr ⟨e, rfl, .after_log _ _ _ (.bind_error (Act.does_of_change ?_))⟩
      simp only [h]

theorem does_makeStale_of_none (hnone : smallestSourceFile settings layout.targetDir tree = none) :
    (makeStale settings layout).Does tree (.error (.noSourceFile layout.targetDir)) tree [] := by
  refine .after_inspect ?_
  rw [hnone]
  exact Act.does_throw ..

theorem does_makeStale_of_some {file : Path} {result : Except Fault Unit} {after : FileTree} {deeds : List Event}
    (hsome : smallestSourceFile settings layout.targetDir tree = some file)
    (htouch : (touch file).Does tree result after deeds) :
    (makeStale settings layout).Does tree result after deeds := by
  refine .after_inspect ?_
  rw [hsome]
  exact htouch

/-! ### The whole -/

section Synthesize

variable {fault : Fault} {built : FileTree}

theorem does_synthesize_of_error
    (hfull : Build.fullResult configuration (system layout.solutionDir configuration .full tree).1 =
      .error fault) :
    (Recipe.synthesize system layout configuration settings).Does tree (.error fault)
      (system layout.solutionDir configuration .full tree).2 [.built .full] :=
  (hfull ▸ does_buildFull system layout configuration tree).bind_error

/-- Without a file that can be touched there is no second build. -/
theorem does_synthesize_of_makeStale_error
    (hfull : Build.fullResult configuration (system layout.solutionDir configuration .full tree).1 = .ok ())
    (hbuilt : (system layout.solutionDir configuration .full tree).2 = built)
    (hstale : (makeStale settings layout).Does built (.error fault) built []) :
    (Recipe.synthesize system layout configuration settings).Does tree (.error fault) built [.built .full] := by
  have hbuild := does_buildFull system layout configuration tree
  rw [hfull, hbuilt] at hbuild
  exact hbuild.bind hstale.bind_error

/-- Once a file is touched, the second build is asked for, and its output alone decides. -/
theorem does_synthesize_of_makeStale {touched : FileTree} {deeds : List Event}
    (hfull : Build.fullResult configuration (system layout.solutionDir configuration .full tree).1 = .ok ())
    (hbuilt : (system layout.solutionDir configuration .full tree).2 = built)
    (hstale : (makeStale settings layout).Does built (.ok ()) touched deeds) :
    (Recipe.synthesize system layout configuration settings).Does tree
      (Build.staleResult (system layout.solutionDir configuration .compileOnly touched).1 >>=
        Recipe.ofOutput settings layout.projectDir)
      (system layout.solutionDir configuration .compileOnly touched).2
      (.built .full :: (deeds ++ [.built .compileOnly])) := by
  have hbuild := does_buildFull system layout configuration tree
  have hsecond := does_buildStale system layout configuration touched
  rw [hfull, hbuilt] at hbuild
  refine hbuild.bind (hstale.bind ?_)
  cases hresult : Build.staleResult (system layout.solutionDir configuration .compileOnly touched).1 with
  | error fault =>
      rw [hresult] at hsecond
      exact hsecond.bind_error
  | ok output =>
      rw [hresult] at hsecond
      refine hsecond.bind ?_
      dsimp only [bind, Except.bind]
      cases Recipe.ofOutput settings layout.projectDir output with
      | error fault => exact Act.does_of_inspect?_error rfl
      | ok recipe => exact .after_inspect? rfl ((Act.does_pure ..).after_log ..)

end Synthesize

/-! ### The protocol -/

/-- A build system whose builds end in given ways and change no file. -/
def BuildSystem.answering (answer : Build.Mode → Except Fault Program.Output) : BuildSystem :=
  fun _ _ mode tree => (answer mode, tree)

def Event.mode? : Event → Option Build.Mode
  | .built mode => some mode
  | _ => none

/-- The builds that were asked for, in order. -/
def Session.builds (s : Session) : List Build.Mode := s.events.filterMap Event.mode?

theorem Act.Does.builds_eq {α : Type} {act : Act α} {result : Except Fault α} {after : FileTree}
    {deeds : List Event} (h : act.Does tree result after deeds) {s : Session} (hs : s.tree = tree) :
    (act s).2.builds = s.builds ++ deeds.filterMap Event.mode? := by
  have hdeeds : ∀ s : Session, s.builds = s.deeds.filterMap Event.mode? := fun s => by
    rw [Session.deeds, List.filterMap_filter]
    refine List.filterMap_congr fun event _ => ?_
    cases event <;> rfl
  rw [hdeeds, hdeeds, h.deeds_eq hs, List.filterMap_append]

/-- The output holds a sentence that refuses some configuration, on one line. -/
def RefusesConfiguration (output : Text) : Prop :=
  ∃ configuration platform, '\n' ∉ configuration ∧ '\n' ∉ platform ∧
    CompilerCall.refusal configuration platform <:+: output

/-- The smallest source file below a directory can be touched. -/
def Touches (settings : Settings.Check) (dir : Path) (tree : FileTree) : Prop :=
  ∃ file touched, smallestSourceFile settings dir tree = some file ∧ tree.touch file = .ok touched

/-- What the rules say about the builds that are asked for and about the recipe. The second build needs a source file
that can be reached by its path, and the smallest of these must let itself be touched. -/
inductive Followed (answer : Build.Mode → Except Fault Program.Output) (configuration : Text)
    (settings : Settings.Check) (layout : Layout) (tree : FileTree) :
    List Build.Mode → Except Fault Recipe → Prop
  | fullFault {fault : Fault} (hfull : answer .full = .error fault) :
      Followed answer configuration settings layout tree [.full] (.error fault)
  | refused {full : Program.Output} (hfull : answer .full = .ok full) (hfailed : full.success = false)
      (hrefused : RefusesConfiguration full.stdout) :
      Followed answer configuration settings layout tree [.full] (.error (.invalidConfiguration configuration))
  | fullFailed {full : Program.Output} (hfull : answer .full = .ok full) (hfailed : full.success = false)
      (haccepted : ¬RefusesConfiguration full.stdout) :
      Followed answer configuration settings layout tree [.full] (.error .buildFailed)
  | noSource {full : Program.Output} (hfull : answer .full = .ok full) (hsucceeded : full.success = true)
      (hnone : ∀ file, IsSourceBelow settings layout.targetDir tree file → (tree.find file true).isOk = false) :
      Followed answer configuration settings layout tree [.full] (.error (.noSourceFile layout.targetDir))
  | untouched {full : Program.Output} {file : Path} {cause : OsError} (hfull : answer .full = .ok full)
      (hsucceeded : full.success = true) (hsome : smallestSourceFile settings layout.targetDir tree = some file)
      (htouch : tree.touch file = .error cause) :
      Followed answer configuration settings layout tree [.full] (.error (.fileWrite file cause))
  | staleFault {full : Program.Output} {fault : Fault} (hfull : answer .full = .ok full)
      (hsucceeded : full.success = true) (htouched : Touches settings layout.targetDir tree)
      (hstale : answer .compileOnly = .error fault) :
      Followed answer configuration settings layout tree [.full, .compileOnly] (.error fault)
  | staleFailed {full stale : Program.Output} (hfull : answer .full = .ok full) (hsucceeded : full.success = true)
      (htouched : Touches settings layout.targetDir tree)
      (hstale : answer .compileOnly = .ok stale) (hfailed : stale.success = false) :
      Followed answer configuration settings layout tree [.full, .compileOnly] (.error .compileOnlyBuildFailed)
  | read {full stale : Program.Output} {result : Except Fault Recipe} (hfull : answer .full = .ok full)
      (hsucceeded : full.success = true) (htouched : Touches settings layout.targetDir tree)
      (hstale : answer .compileOnly = .ok stale) (hsucceeded' : stale.success = true)
      (hread : CompilerCall.Transcribed settings.sourceExtension layout.projectDir stale.stdout result) :
      Followed answer configuration settings layout tree [.full, .compileOnly] result

section Protocol

variable {answer : Build.Mode → Except Fault Program.Output}

/-- The result of the full build stops the protocol, or the protocol goes on. -/
theorem fullResult_cases (answer : Build.Mode → Except Fault Program.Output) (configuration : Text)
    (settings : Settings.Check) (layout : Layout) (tree : FileTree) :
    (∃ fault, Build.fullResult configuration (answer .full) = .error fault ∧
      Followed answer configuration settings layout tree [.full] (.error fault)) ∨
    ∃ full, answer .full = .ok full ∧ full.success = true ∧
      Build.fullResult configuration (answer .full) = .ok () := by
  cases hfull : answer .full with
  | error fault => exact Or.inl ⟨fault, rfl, .fullFault hfull⟩
  | ok full =>
      cases hsuccess : full.success with
      | true => exact Or.inr ⟨full, rfl, hsuccess, by simp [Build.fullResult, hsuccess]⟩
      | false =>
          by_cases hrefused : CompilerCall.refusesConfiguration full.stdout = true
          · refine Or.inl ⟨_, by simp [Build.fullResult, hsuccess, hrefused], .refused hfull hsuccess ?_⟩
            exact CompilerCall.refusesConfiguration_iff.mp hrefused
          · refine Or.inl ⟨_, by simp [Build.fullResult, hsuccess, hrefused], .fullFailed hfull hsuccess ?_⟩
            exact mt CompilerCall.refusesConfiguration_iff.mpr hrefused

/-- Behind the second build its result and its output decide. -/
theorem followed_stale {full : Program.Output} (hfull : answer .full = .ok full)
    (hsucceeded : full.success = true) (htouched : Touches settings layout.targetDir tree) :
    Followed answer configuration settings layout tree [.full, .compileOnly]
      (Build.staleResult (answer .compileOnly) >>= Recipe.ofOutput settings layout.projectDir) := by
  cases hstale : answer .compileOnly with
  | error fault => exact .staleFault hfull hsucceeded htouched hstale
  | ok stale =>
      cases hsuccess : stale.success with
      | false =>
          rw [Build.staleResult, if_neg (by simp [hsuccess])]
          exact .staleFailed hfull hsucceeded htouched hstale hsuccess
      | true =>
          rw [Build.staleResult, if_pos hsuccess]
          exact .read hfull hsucceeded htouched hstale hsuccess (CompilerCall.ofOutput_eq_iff.mp rfl)

/-- The rules leave nothing open. -/
theorem Followed.unique (hnamed : tree.Named) {modes modes' : List Build.Mode} {result result' : Except Fault Recipe}
    (h : Followed answer configuration settings layout tree modes result)
    (h' : Followed answer configuration settings layout tree modes' result') :
    modes = modes' ∧ result = result' := by
  -- A file is found exactly if one can be reached, and it either lets itself be touched or does not.
  have hfound : (∀ file, IsSourceBelow settings layout.targetDir tree file → (tree.find file true).isOk = false) →
      smallestSourceFile settings layout.targetDir tree = none := by
    intro hnone
    rcases smallestSourceFile_cases settings layout.targetDir hnamed with ⟨file, -, hbelow, hok⟩ | ⟨hempty, -⟩
    · cases (hnone file hbelow).symm.trans hok
    · exact hempty
  have hsettled : ∀ file cause, smallestSourceFile settings layout.targetDir tree = some file →
      tree.touch file = .error cause → ¬Touches settings layout.targetDir tree := by
    rintro file cause hsome htouch ⟨file', touched, hsome', htouched⟩
    obtain rfl := Option.some.inj (hsome.symm.trans hsome')
    cases htouch.symm.trans htouched
  have hneeded : Touches settings layout.targetDir tree → smallestSourceFile settings layout.targetDir tree ≠ none := by
    rintro ⟨file, touched, hsome, -⟩ hnone
    cases hsome.symm.trans hnone
  cases h <;> cases h' <;> simp_all
  -- What is left are two readings of one output.
  next hread _ _ _ hread' => exact hread.unique hread'

/-- Either the protocol stops behind the full build and nothing has changed, or the smallest file was touched
and the second build was asked for. -/
theorem synthesize_cases (answer : Build.Mode → Except Fault Program.Output) (layout : Layout)
    (configuration : Text) (settings : Settings.Check) (hnamed : tree.Named) :
    (∃ result, Followed answer configuration settings layout tree [.full] result ∧
      (Recipe.synthesize (.answering answer) layout configuration settings).Does tree result tree [.built .full]) ∨
    ∃ result file place content executable modified,
      Followed answer configuration settings layout tree [.full, .compileOnly] result ∧
      smallestSourceFile settings layout.targetDir tree = some file ∧
      tree.find file true = .ok (place, .file content executable modified) ∧
      (Recipe.synthesize (.answering answer) layout configuration settings).Does tree result
        (tree.insert place (.file content executable tree.clock))
        [.built .full, .touched file, .built .compileOnly] := by
  rcases fullResult_cases answer configuration settings layout tree with ⟨fault, hfull, hfollowed⟩ |
    ⟨full, hanswer, hsucceeded, hfull⟩
  · exact Or.inl ⟨_, hfollowed, does_synthesize_of_error hfull⟩
  have hrun : Build.fullResult configuration
      (BuildSystem.answering answer layout.solutionDir configuration .full tree).1 = .ok () := hfull
  rcases smallestSourceFile_cases settings layout.targetDir hnamed with ⟨file, hsome, -, -⟩ | ⟨hnone, hempty⟩
  · rcases does_touch file tree with ⟨touched, hok, hdoes⟩ | ⟨cause, herror, hdoes⟩
    · obtain ⟨place, content, executable, modified, hfind⟩ := exists_find_of_smallestSourceFile hnamed hsome
      have htree : touched = tree.insert place (.file content executable tree.clock) := by
        rw [FileTree.touch_of_find hfind] at hok
        split at hok
        · cases hok
        · exact (Except.ok.inj hok).symm
      subst htree
      exact Or.inr ⟨_, file, place, content, executable, modified,
        followed_stale hanswer hsucceeded ⟨file, _, hsome, hok⟩, hsome, hfind,
        does_synthesize_of_makeStale hrun rfl (does_makeStale_of_some hsome hdoes)⟩
    · exact Or.inl ⟨_, .untouched hanswer hsucceeded hsome herror,
        does_synthesize_of_makeStale_error hrun rfl (does_makeStale_of_some hsome hdoes)⟩
  · exact Or.inl ⟨_, .noSource hanswer hsucceeded hempty,
      does_synthesize_of_makeStale_error hrun rfl (does_makeStale_of_none hnone)⟩

/-- The builds and the result are those of the rules. The time of the smallest source file is set to the present
if the second build is asked for, and nothing else in the tree is ever changed. -/
theorem synthesize_protocol (answer : Build.Mode → Except Fault Program.Output) (layout : Layout)
    (configuration : Text) (settings : Settings.Check) (s : Session) (hnamed : s.tree.Named) :
    let run := Recipe.synthesize (.answering answer) layout configuration settings s
    let after := run.2
    (∀ modes result, after.builds = s.builds ++ modes ∧ run.1 = result ↔
      Followed answer configuration settings layout s.tree modes result) ∧
    (∀ place, (after.tree.entry? place).map Entry.timeless = (s.tree.entry? place).map Entry.timeless) ∧
    (∀ place, after.tree.modified? place ≠ s.tree.modified? place →
      after.builds = s.builds ++ [.full, .compileOnly] ∧
      ∃ file, smallestSourceFile settings layout.targetDir s.tree = some file ∧
        s.tree.locateFor .target file = .ok place) ∧
    (after.builds = s.builds ++ [.full, .compileOnly] →
      ∃ file place, smallestSourceFile settings layout.targetDir s.tree = some file ∧
        s.tree.locateFor .target file = .ok place ∧ after.tree.modified? place = some s.tree.clock) ∧
    ((∀ place, s.tree.modified? place ≠ some s.tree.clock) →
      ((∃ place, after.tree.modified? place ≠ s.tree.modified? place) ↔
        after.builds = s.builds ++ [.full, .compileOnly])) := by
  intro run after
  have hrules : ∀ {modes result}, after.builds = s.builds ++ modes → run.1 = result →
      Followed answer configuration settings layout s.tree modes result → ∀ modes' result',
      after.builds = s.builds ++ modes' ∧ run.1 = result' ↔
        Followed answer configuration settings layout s.tree modes' result' := by
    intro modes result hbuilds hresult hfollowed modes' result'
    rw [hbuilds, hresult, List.append_cancel_left_eq]
    exact ⟨fun ⟨hmodes, hresult⟩ => hmodes ▸ hresult ▸ hfollowed, hfollowed.unique hnamed⟩
  rcases synthesize_cases answer layout configuration settings hnamed with ⟨result, hfollowed, hdoes⟩ |
    ⟨result, file, place, content, executable, modified, hfollowed, hsome, hfind, hdoes⟩
  · have hbuilds : after.builds = s.builds ++ [.full] := hdoes.builds_eq rfl
    have htree : after.tree = s.tree := hdoes.tree_eq rfl
    have hsecond : after.builds ≠ s.builds ++ [.full, .compileOnly] := by simp [hbuilds]
    rw [htree]
    refine ⟨hrules hbuilds (hdoes.result_eq rfl) hfollowed, fun _ => rfl, fun place h => absurd rfl h,
      fun h => absurd h hsecond, fun _ => ⟨?_, fun h => absurd h hsecond⟩⟩
    rintro ⟨place, h⟩
    exact absurd rfl h
  · have hbuilds : after.builds = s.builds ++ [.full, .compileOnly] := hdoes.builds_eq rfl
    have htree : after.tree = _ := hdoes.tree_eq rfl
    obtain ⟨hlocate, -⟩ := FileTree.find_eq_ok_iff.mp hfind
    have hmodified := FileTree.modified?_touched hfind
    rw [htree]
    refine ⟨hrules hbuilds (hdoes.result_eq rfl) hfollowed, FileTree.timeless_touched hfind, ?_, ?_, ?_⟩
    · intro other hother
      rw [hmodified] at hother
      split at hother
      · next heq => exact ⟨hbuilds, file, hsome, heq ▸ hlocate⟩
      · exact absurd rfl hother
    · exact fun _ => ⟨file, place, hsome, hlocate, by rw [hmodified, if_pos rfl]⟩
    · intro hpast
      refine ⟨fun _ => hbuilds, fun _ => ⟨place, ?_⟩⟩
      rw [hmodified, if_pos rfl]
      exact (hpast place).symm

end Protocol

theorem synthesize_protocol_touched :
    let tree : FileTree := { FileTree.ofEntries [(["d"], .dir), (["d", "a.cpp"], .file (.text "int a;") false 3),
      (["d", "b.cpp"], .file (.text "int b = 1;") false 4)] with clock := 9 }
    let answer : Build.Mode → Except Fault Program.Output
      | .full => .ok ⟨true, some 0, [], []⟩
      | .compileOnly => .ok ⟨true, some 0, "ClCompile:\r\n  C:\\VC\\CL.exe /c /ZI a.cpp\r\n  a.cpp\r\n", []⟩
    let layout : Layout := ⟨⟨"/d"⟩, ⟨"/d"⟩, ⟨"/d"⟩⟩
    let recipe : Recipe := ⟨⟨"C:\\VC\\CL.exe", ["/c", "/Zs"]⟩, ⟨"/d"⟩⟩
    let after := (Recipe.synthesize (.answering answer) layout "Debug" {} ⟨tree, []⟩).2
    tree.Named ∧ Followed answer "Debug" {} layout tree [.full, .compileOnly] (.ok recipe) ∧
      ∃ file place, smallestSourceFile {} ⟨"/d"⟩ tree = some file ∧ tree.locateFor .target file = .ok place ∧
        after.tree.modified? place = some 9 := by
  intro tree answer layout recipe after
  have hnamed : tree.Named := FileTree.named_ofEntries (by decide)
  obtain ⟨hrules, -, -, htouched, -⟩ := synthesize_protocol answer layout "Debug" {} ⟨tree, []⟩ hnamed
  have hbuilds : after.builds = [.full, .compileOnly] := by decide +kernel
  exact ⟨hnamed, (hrules _ _).mp ⟨hbuilds, by decide +kernel⟩, htouched hbuilds⟩

/-- A source file whose path is too long to be followed, or which belongs to another, lies below the directory, and
yet no second build is asked for behind a full build that succeeds. -/
theorem no_second_build :
    let full : Program.Output := ⟨true, some 0, [], []⟩
    let file : Entry := .file (.text "int a;") false 3
    let deep := FileTree.ofEntries [(["a.cpp"], file)]
    let root : Path := ⟨List.replicate 4095 '/'⟩
    let shared : FileTree :=
      { FileTree.ofEntries [(["d"], .dir), (["d", "a.cpp"], file)] with foreign := fun _ => true }
    let run (tree : FileTree) (dir : Path) :=
      Recipe.synthesize (.answering fun _ => .ok full) ⟨dir, dir, dir⟩ "Debug" {} ⟨tree, []⟩
    (IsSourceBelow {} root deep (root.join "a.cpp") ∧ (run deep root).1 = .error (.noSourceFile root) ∧
      (run deep root).2.builds = [.full]) ∧
    IsSourceBelow {} ⟨"/d"⟩ shared ⟨"/d/a.cpp"⟩ ∧
      (run shared ⟨"/d"⟩).1 = .error (.fileWrite ⟨"/d/a.cpp"⟩ .notPermitted) ∧
      (run shared ⟨"/d"⟩).2.builds = [.full] := by
  intro full file deep root shared run
  have hnamed : deep.Named := FileTree.named_ofEntries (by decide)
  have hroot : deep.find root true = .ok ([], .dir) := FileTree.find_slashes (by decide)
  have hsource : Text.HasExtension "a.cpp" (Octets.ofText "cpp") := ⟨"a", "cpp", rfl, by decide, by decide, by decide⟩
  have hleads : Target.LeadsToSource {} deep [] ["a.cpp"] :=
    ⟨[], "a.cpp", _, _, _, rfl, .last (by rfl), hsource⟩
  have hbelow : deep.below (deep.height + 1) [] = [([("a.cpp" : Octets)], file)] := by decide +kernel
  have hjoin : ∀ (p : Path) (name : Octets), p.join name = p.joinAll [name] := fun _ _ => rfl
  have hclosed : (deep.find (root.joinAll ["a.cpp"]) true).isOk = false := by
    rw [← hjoin]
    exact FileTree.isOk_find_join_slashes (by decide) (by decide)
  have hnone : smallestSourceFile {} root deep = none := by
    rcases smallestSourceFile_cases {} root hnamed with ⟨found, -, hfound, hok⟩ | ⟨hnone, -⟩
    · rcases hfound with ⟨place, names, hdir, ⟨front, name, content, executable, modified, -, hto, -⟩, rfl⟩ |
        ⟨place, entry, hfind, hfile, -, -⟩
      · obtain ⟨rfl, -⟩ := Prod.mk.inj (Except.ok.inj (hroot.symm.trans hdir))
        have hmem := FileTree.mem_below_iff.mpr hto
        rw [hbelow] at hmem
        obtain ⟨rfl, -⟩ := Prod.mk.inj (List.mem_singleton.mp hmem)
        cases hclosed.symm.trans hok
      · have hisFile := FileTree.isFile_of_find_itself hfind hfile
        cases hisFile.symm.trans (Target.isFile_eq_false_of_dir hroot)
    · exact hnone
  have hdoes : (Recipe.synthesize (.answering fun _ => .ok full) ⟨root, root, root⟩ "Debug" {}).Does deep
      (.error (.noSourceFile root)) deep [.built .full] :=
    does_synthesize_of_makeStale_error rfl rfl (does_makeStale_of_none hnone)
  have hdir : shared.find ⟨"/d"⟩ true = .ok (["d"], .dir) := by decide +kernel
  have hshared : Target.LeadsToSource {} shared ["d"] ["a.cpp"] :=
    ⟨[], "a.cpp", _, _, _, rfl, .last (by decide +kernel : _ = some file), hsource⟩
  exact ⟨⟨Or.inl ⟨[], _, hroot, hleads, hjoin root "a.cpp"⟩, hdoes.result_eq rfl, hdoes.builds_eq rfl⟩,
    Or.inl ⟨["d"], _, hdir, hshared, hjoin ⟨"/d"⟩ "a.cpp"⟩, by decide +kernel, by decide +kernel⟩

end CompileFail
