import CompileFail.Proofs.SetUp
import CompileFail.Proofs.WalkOrder

/-! The list of the source files. For a directory it holds every regular file below it whose name has the extension
of source files, each once and in the order of the bytes of the components, if all directories below can be opened;
for a file it holds the file. What a run checks has the extension as well, unless one of its builds has put a file in
the place of the target. -/

namespace CompileFail

/-- The components of a path, byte by byte. -/
def Path.inBytes (p : Path) : List Octets := p.components.map Component.text

theorem Path.inBytes_joinAll {p : Path} {names : List Octets} (hp : p.text ≠ [])
    (hnames : ∀ name ∈ names, name.IsName) : (p.joinAll names).inBytes = p.inBytes ++ names := by
  rw [inBytes, components_joinAll hp hnames, List.map_append, List.map_map]
  exact congrArg _ (List.map_id names)

namespace Target

open FileTree

variable {settings : Settings.Check} {target : Path} {tree : FileTree} {place : Place} {names : List Octets}

/-- The files come in the order of the bytes of their components. -/
theorem pairwise_foundSources (settings : Settings.Check) (place : Place) (hnamed : tree.Named)
    (htext : target.text ≠ []) :
    ((foundSources settings target tree place).map fun found => target.joinAll found.1).Pairwise
      fun file later => file.inBytes < later.inBytes := by
  have hbelow := List.pairwise_map.mp (pairwise_below tree (tree.height + 1) place)
  refine List.pairwise_map.mpr ((hbelow.filter _).imp_of_mem fun {found later} hfound hlater hlt => ?_)
  have hnames := (leadsTo_of_mem_below (List.mem_of_mem_filter hfound)).isName hnamed
  have hnames' := (leadsTo_of_mem_below (List.mem_of_mem_filter hlater)).isName hnamed
  rw [Path.inBytes_joinAll htext hnames, Path.inBytes_joinAll htext hnames']
  exact List.append_left_lt hlt

/-- A directory comes with its files where its name says, not where the name and a separator would. -/
example : Path.inBytes "/a/z.cpp" < Path.inBytes "/a.cpp" := by decide

/-- What is listed of a target has the extension, if it is not the target itself. -/
theorem isSourceFile_of_mem_sourceFiles {files : List Path} (h : sourceFiles settings target tree = .ok files) :
    ∀ file ∈ files, settings.isSourceFile file = true ∨ tree.isFile target = true ∧ file = target := by
  intro file hfile
  rw [sourceFiles] at h
  split at h
  · next hisFile =>
    obtain rfl := Except.ok.inj h
    exact Or.inr ⟨hisFile, List.mem_singleton.mp hfile⟩
  · split at h
    · cases h
    · obtain rfl := Except.ok.inj h
      obtain ⟨found, hfound, rfl⟩ := List.mem_map.mp hfile
      exact Or.inl (Bool.and_eq_true_iff.mp (List.mem_filter.mp hfound).2).2

end Target

theorem Options.path_of_ofArguments {path : Path} {configuration workers : Text} {options : Options}
    (h : Options.ofArguments path configuration workers = .ok options) : options.path = path := by
  rw [Options.ofArguments] at h
  cases hworkers : Options.readWorkers workers with
  | error fault =>
      rw [hworkers] at h
      cases h
  | ok count =>
      rw [hworkers] at h
      obtain rfl := Except.ok.inj h
      rfl

namespace Cli

variable {surroundings : Surroundings} {arguments : Arguments} {settings : Settings} {tree built : FileTree}
  {plan : Plan} {deeds : List Event}

/-- The files of a plan are source files, or the file that a build has put in the place of the target. -/
theorem isSourceFile_of_mem_plan (hloaded : settingsFor arguments tree = .ok settings)
    (hprepare : (prepare surroundings settings arguments).Does tree (.ok plan) built deeds) :
    ∀ file ∈ plan.files, settings.check.isSourceFile file = true ∨
      resolve arguments.path tree = .ok file ∧ tree.isFile file = false ∧ built.isFile file = true := by
  obtain ⟨result, after, deeds', hends, -, -, -, hsteps⟩ := ends_prepare surroundings hloaded
  obtain ⟨rfl, rfl⟩ := hprepare.unique hends
  obtain ⟨found, captured, recipe, files, hprepared⟩ := hsteps plan rfl
  obtain ⟨deeds'', hplan⟩ := does_prepare hprepared
  obtain rfl := Except.ok.inj (hprepare.unique hplan).1
  have htarget : resolve arguments.path tree = .ok found.target :=
    Options.path_of_ofArguments hprepared.counted ▸ hprepared.resolved
  intro file hfile
  rcases Target.isSourceFile_of_mem_sourceFiles hprepared.lists file hfile with hsource | ⟨hbuilt, rfl⟩
  · exact Or.inl hsource
  · by_cases hkept : tree.isFile found.target = true
    · exact Or.inl (Target.isSourceFile_of_validate hprepared.accepted hkept)
    · exact Or.inr ⟨htarget, Bool.eq_false_iff.mpr hkept, hbuilt⟩

end Cli

namespace Target

open FileTree

/-- If all directories below a directory can be opened, exactly the source files below it are listed, each once and
in the order of the bytes of their components; otherwise the listing fails and names one that cannot. Of a file that
is accepted the file is listed. So all that is listed of an accepted target are source files, and so are the files
that a run checks, but for the target where a build has put a file in the place of the directory. -/
theorem sourceFiles_lists (settings : Settings.Check) (target : Path) {tree : FileTree} (hnamed : tree.Named) :
    (∀ place, tree.find target true = .ok (place, .dir) →
      (tree.Opens place target → ∃ files, sourceFiles settings target tree = .ok files ∧
        (∀ file, file ∈ files ↔ ∃ names, LeadsToSource settings tree place names ∧ file = target.joinAll names) ∧
        files.Nodup ∧ files.Pairwise fun file later => file.inBytes < later.inBytes) ∧
      (¬tree.Opens place target → ∃ names cause, tree.LeadsTo place names .dir ∧
        tree.find (target.joinAll names) true = .error cause ∧
        sourceFiles settings target tree = .error (.io (.walk (target.joinAll names) cause)))) ∧
    (tree.isFile target = true → validate settings target tree = .ok () →
      sourceFiles settings target tree = .ok [target]) ∧
    (∀ files, validate settings target tree = .ok () → sourceFiles settings target tree = .ok files →
      ∀ file ∈ files, settings.isSourceFile file = true) ∧
    ∀ surroundings arguments loaded plan built deeds, Cli.settingsFor arguments tree = .ok loaded →
      (Cli.prepare surroundings loaded arguments).Does tree (.ok plan) built deeds →
      ∀ file ∈ plan.files, loaded.check.isSourceFile file = true ∨
        Cli.resolve arguments.path tree = .ok file ∧ tree.isFile file = false ∧ built.isFile file = true := by
  refine ⟨fun place hplace => ⟨fun hopens => ?_, sourceFiles_of_closed settings hnamed hplace⟩,
    fun hfile _ => by rw [sourceFiles, if_pos hfile], fun files hvalid hfiles file hfile => ?_, ?_⟩
  · have htext := text_ne_nil_of_locateFor (find_eq_ok_iff.mp hplace).1
    have hpairwise := pairwise_foundSources settings place hnamed htext
    refine ⟨_, sourceFiles_of_dir settings hnamed hplace hopens, fun file => ?_, ?_, hpairwise⟩
    · constructor
      · intro hfile
        obtain ⟨found, hfound, rfl⟩ := List.mem_map.mp hfile
        exact ⟨found.1, (mem_foundSources_iff hnamed htext).mp (List.mem_map_of_mem hfound), rfl⟩
      · rintro ⟨names, hnames, rfl⟩
        obtain ⟨found, hfound, rfl⟩ := List.mem_map.mp ((mem_foundSources_iff hnamed htext).mpr hnames)
        exact List.mem_map_of_mem hfound
    · refine hpairwise.imp fun {file later} hlt heq => ?_
      rw [heq] at hlt
      exact List.lt_irrefl _ hlt
  · rcases isSourceFile_of_mem_sourceFiles hfiles file hfile with hsource | ⟨hisFile, rfl⟩
    · exact hsource
    · exact isSourceFile_of_validate hvalid hisFile
  · intro surroundings arguments loaded plan built deeds hloaded hprepare
    exact Cli.isSourceFile_of_mem_plan hloaded hprepare

theorem sourceFiles_lists_mixed :
    let file : Entry := .file (.text []) false 0
    let tree := FileTree.ofEntries [(["r"], .dir), (["r", "a"], .dir), (["r", "a", "z.CPP"], file),
      (["r", "a.cpp"], file), (["r", "b.cpp"], .dir), (["r", "b.cpp", "c.x.Cpp"], file), (["r", "d.h"], file),
      (["r", "l.cpp"], .link "a.cpp"), (["r", ".cpp"], file)]
    let target : Path := ⟨"/r/"⟩
    let files : List Path := [⟨"/r/a/z.CPP"⟩, ⟨"/r/a.cpp"⟩, ⟨"/r/b.cpp/c.x.Cpp"⟩]
    tree.Named ∧ tree.find target true = .ok (["r"], .dir) ∧ tree.Opens ["r"] target ∧
      sourceFiles {} target tree = .ok files ∧
      (∀ file, file ∈ files ↔ ∃ names, LeadsToSource {} tree ["r"] names ∧ file = target.joinAll names) ∧
      files.Nodup ∧ files.Pairwise fun file later => file.inBytes < later.inBytes := by
  intro file tree target files
  have hnamed : tree.Named := FileTree.named_ofEntries (by decide)
  have hdir : tree.find target true = .ok (["r"], .dir) := by rfl
  have hfiles : sourceFiles {} target tree = .ok files := by decide +kernel
  have hopens : tree.Opens ["r"] target := ((sourceFiles_of_dir_iff hnamed hdir).mp hfiles).1
  obtain ⟨files', hlists, hmem, hnodup, hpairwise⟩ := ((sourceFiles_lists {} target hnamed).1 _ hdir).1 hopens
  obtain rfl := Except.ok.inj (hfiles.symm.trans hlists)
  exact ⟨hnamed, hdir, hopens, hfiles, hmem, hnodup, hpairwise⟩

/-- A build may remove the target and leave a file in its place. Then the run checks this file, whatever it is
called. -/
theorem checks_file_in_place_of_dir :
    let file : Entry := .file (.text []) false 0
    let around : List (Place × Entry) := [(["a.sln"], file), (["b.vcxproj"], file)]
    let tree := FileTree.ofEntries ((["t"], .dir) :: (["t", "a.cpp"], file) :: around)
    let runner : Program.Runner := fun command tree =>
      (.ok ⟨true, some 0, "C:\\CL.exe /c a.cpp\r\n", []⟩,
        if command.args.contains "/t:ClCompile" then .ofEntries ((["t"], file) :: around) else tree)
    ∃ plan built deeds, Cli.settingsFor { path := "/t" } tree = .ok {} ∧
      (Cli.prepare { env := .empty, runner := runner } {} { path := "/t" }).Does tree (.ok plan) built deeds ∧
      plan.files = ["/t"] ∧ ({} : Settings).check.isSourceFile "/t" = false := by
  intro file around tree runner
  have hloaded : Cli.settingsFor { path := "/t" } tree = .ok {} := rfl
  obtain ⟨result, built, deeds, hends, -⟩ :
      (Cli.prepare { env := .empty, runner := runner } {} { path := "/t" }).Ends tree _ :=
    Cli.ends_prepare _ hloaded
  have hfiles : ((Cli.prepare { env := .empty, runner := runner } {} { path := "/t" } ⟨tree, []⟩).1.toOption.map
      Cli.Plan.files) = some [⟨"/t"⟩] := by decide +kernel
  rw [hends.result_eq rfl] at hfiles
  cases result with
  | error fault => cases hfiles
  | ok plan => exact ⟨plan, built, deeds, hloaded, hends, Option.some.inj hfiles, by decide⟩

end Target

end CompileFail
