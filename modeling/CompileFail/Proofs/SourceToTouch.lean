import CompileFail.Proofs.ParentDirectory
import CompileFail.Proofs.SetUp

/-! Whether there is a source file to touch. The files of a target are listed through links, but the search for the
file to touch goes through the directory of the target and takes no link for a file. So a target with a regular file
in its list is never refused for lack of source files, while a link to a source file is. -/

namespace CompileFail.Target

open FileTree

variable {settings : Settings.Check} {target dir file : Path} {tree : FileTree} {place : Place} {entry : Entry}
  {files : List Path}

/-- One source file that can be reached by its path is enough for the search. -/
theorem exists_smallestSourceFile (hnamed : tree.Named) (hbelow : IsSourceBelow settings dir tree file)
    (hfollowed : (tree.find file true).isOk = true) :
    ∃ smallest, smallestSourceFile settings dir tree = some smallest := by
  rcases smallestSourceFile_cases settings dir hnamed with ⟨smallest, hsome, -⟩ | ⟨-, hclosed⟩
  · exact ⟨smallest, hsome⟩
  · cases hfollowed.symm.trans (hclosed file hbelow)

theorem isOk_find_of_itself (h : tree.find file false = .ok (place, entry)) (hfile : entry.isFile = true) :
    (tree.find file true).isOk = true := by
  obtain ⟨place, content, executable, modified, hfind⟩ := exists_find_of_isFile (isFile_of_find_itself h hfile)
  rw [hfind]
  rfl

/-- The search in the directory of a regular file sees the file. -/
theorem exists_smallestSourceFile_of_file (hnamed : tree.Named) (hstart : tree.Grounded tree.workDir)
    (hvalid : validate settings target tree = .ok ()) (htarget : tree.find target false = .ok (place, entry))
    (hfile : entry.isFile = true) (hdir : (dirOf tree target).text ≠ []) :
    ∃ smallest, smallestSourceFile settings (dirOf tree target) tree = some smallest := by
  have hisFile := isFile_of_find_itself htarget hfile
  have hsource := isSourceFile_of_validate hvalid hisFile
  obtain ⟨name, hname⟩ := exists_fileName_of_isSourceFile hsource
  obtain ⟨front, hstands⟩ := Path.exists_standsIn hname
  have hdirOf : dirOf tree target = Path.ofParts target.parts.1 front := by simp [dirOf, hisFile, hstands.parent]
  rw [hdirOf] at hdir ⊢
  obtain ⟨mid, hparent, rfl, hjoined⟩ := exists_find_parent hstart hname hstands.parent hdir htarget hfile
  cases entry with
  | file content executable modified =>
      have hleads : LeadsToSource settings tree mid [name] :=
        ⟨[], name, content, executable, modified, rfl, .last (find_eq_ok_iff.mp hjoined).2,
          (Settings.Check.isSourceFile_iff hname).mp hsource⟩
      refine exists_smallestSourceFile hnamed (Or.inl ⟨mid, [name], hparent, hleads, rfl⟩) ?_
      change (tree.find ((Path.ofParts target.parts.1 front).join name) true).isOk = true
      rw [hjoined]
      rfl
  | _ => cases hfile

/-- If a listed path is a regular file and no link, there is a file to touch. Behind a full build that succeeds the
second build is asked for if this file can be touched, and otherwise the reason is that it cannot, not that there
is none. -/
theorem touches_source (hnamed : tree.Named) (hstart : tree.Grounded tree.workDir)
    (hvalid : validate settings target tree = .ok ()) (hfiles : sourceFiles settings target tree = .ok files)
    (hregular : ∃ file ∈ files, ∃ place entry, tree.find file false = .ok (place, entry) ∧ entry.isFile = true)
    (hdir : (dirOf tree target).text ≠ []) :
    ∃ smallest, smallestSourceFile settings (dirOf tree target) tree = some smallest ∧
      ∀ (system : BuildSystem) layout configuration before output, layout.targetDir = dirOf tree target →
        system layout.solutionDir configuration .full before = (.ok output, tree) → output.success = true →
        (∀ touched, tree.touch smallest = .ok touched →
          ∃ result after, (Recipe.synthesize system layout configuration settings).Does before result after
            [.built .full, .touched smallest, .built .compileOnly]) ∧
        ∀ cause, tree.touch smallest = .error cause →
          (Recipe.synthesize system layout configuration settings).Does before (.error (.fileWrite smallest cause)) tree
            [.built .full] := by
  obtain ⟨file, hfile, place, entry, hfind, hisFile⟩ := hregular
  obtain ⟨smallest, hsmallest⟩ :
      ∃ smallest, smallestSourceFile settings (dirOf tree target) tree = some smallest := by
    rcases sourceFiles_cases hnamed hfiles with ⟨-, rfl⟩ | ⟨hnotFile, found, rfl, -, hfound⟩
    · obtain rfl := List.mem_singleton.mp hfile
      exact exists_smallestSourceFile_of_file hnamed hstart hvalid hfind hisFile hdir
    · have hdirOf : dirOf tree target = target := by simp [dirOf, hnotFile]
      obtain ⟨names, hnames, rfl⟩ := List.mem_map.mp hfile
      obtain ⟨here, hplace, hsource⟩ := hfound names hnames
      rw [hdirOf]
      exact exists_smallestSourceFile hnamed (Or.inl ⟨here, names, hplace, hsource, rfl⟩)
        (isOk_find_of_itself hfind hisFile)
  refine ⟨smallest, hsmallest, fun system layout configuration before output hlayout hfull hsuccess => ?_⟩
  have hresult : Build.fullResult configuration (system layout.solutionDir configuration .full before).1 = .ok () :=
    Build.fullResult_eq_ok_iff.mpr ⟨output, by rw [hfull], hsuccess⟩
  have hbuilt : (system layout.solutionDir configuration .full before).2 = tree := by rw [hfull]
  have hstale : smallestSourceFile settings layout.targetDir tree = some smallest := by rw [hlayout, hsmallest]
  constructor
  · intro touched htouched
    rcases does_touch smallest tree with ⟨touched', -, hdoes⟩ | ⟨e, herror, -⟩
    · exact ⟨_, _, does_synthesize_of_makeStale hresult hbuilt (does_makeStale_of_some hstale hdoes)⟩
    · cases htouched.symm.trans herror
  · intro cause hrefused
    rcases does_touch smallest tree with ⟨touched, hok, -⟩ | ⟨e, herror, hdoes⟩
    · cases hrefused.symm.trans hok
    · obtain rfl := Except.error.inj (hrefused.symm.trans herror)
      exact does_synthesize_of_makeStale_error hresult hbuilt (does_makeStale_of_some hstale hdoes)

theorem touches_source_of_file :
    let tree := FileTree.ofEntries [(["r"], .dir), (["r", "c.Cpp"], .file (.text "int c;") false 3)]
    let target : Path := ⟨"/r//./c.Cpp"⟩
    let output : Program.Output := ⟨true, some 0, [], []⟩
    let layout : Layout := ⟨⟨"/r"⟩, ⟨"/r"⟩, dirOf tree target⟩
    tree.Named ∧ tree.Grounded tree.workDir ∧ validate {} target tree = .ok () ∧
      sourceFiles {} target tree = .ok [target] ∧ (dirOf tree target).text ≠ [] ∧
      ∃ smallest touched result after, smallestSourceFile {} (dirOf tree target) tree = some smallest ∧
        tree.touch smallest = .ok touched ∧
        (Recipe.synthesize (.fixed output output) layout "Debug" {}).Does tree result after
          [.built .full, .touched smallest, .built .compileOnly] := by
  intro tree target output layout
  have hnamed : tree.Named := FileTree.named_ofEntries (by decide)
  have hstart : tree.Grounded tree.workDir := grounded_nil
  have hvalid : validate {} target tree = .ok () := by rfl
  have hfiles : sourceFiles {} target tree = .ok [target] := by rfl
  have hdir : (dirOf tree target).text ≠ [] := by decide +kernel
  have hregular : ∃ file ∈ [target], ∃ place entry, tree.find file false = .ok (place, entry) ∧ entry.isFile = true :=
    ⟨target, List.mem_cons_self, ["r", "c.Cpp"], .file (.text "int c;") false 3, by rfl, rfl⟩
  obtain ⟨smallest, hsmallest, hruns⟩ := touches_source hnamed hstart hvalid hfiles hregular hdir
  obtain ⟨place, content, executable, modified, hfind⟩ := exists_find_of_smallestSourceFile hnamed hsmallest
  have hown : tree.foreign place = false := rfl
  have htouch := touch_of_find hfind
  rw [hown, if_neg Bool.false_ne_true] at htouch
  obtain ⟨result, after, hdoes⟩ := (hruns (.fixed output output) layout "Debug" tree output rfl rfl rfl).1 _ htouch
  exact ⟨hnamed, hstart, hvalid, hfiles, hdir, smallest, _, result, after, hsmallest, htouch, hdoes⟩

/-- A link to a source file is accepted and listed, but behind the full build there is no file to touch. -/
theorem noSourceFile_of_link :
    let tree := FileTree.ofEntries [(["d"], .dir), (["d", "real.cpp"], .file (.text "int d;") false 3), (["t"], .dir),
      (["t", "link.cpp"], .link "../d/real.cpp")]
    let target : Path := ⟨"/t/link.cpp"⟩
    let output : Program.Output := ⟨true, some 0, [], []⟩
    let layout : Layout := ⟨⟨"/"⟩, ⟨"/t"⟩, ⟨"/t"⟩⟩
    validate {} target tree = .ok () ∧ sourceFiles {} target tree = .ok [target] ∧ dirOf tree target = ⟨"/t"⟩ ∧
      smallestSourceFile {} (dirOf tree target) tree = none ∧
      (Recipe.synthesize (.fixed output output) layout "Debug" {}).Does tree (.error (.noSourceFile ⟨"/t"⟩)) tree
        [.built .full] := by
  intro tree target output layout
  have hnone : smallestSourceFile {} ⟨"/t"⟩ tree = none := by decide +kernel
  have hdirOf : dirOf tree target = ⟨"/t"⟩ := by decide +kernel
  refine ⟨by rfl, by rfl, hdirOf, hdirOf ▸ hnone, ?_⟩
  exact does_synthesize_of_makeStale_error rfl rfl (does_makeStale_of_none hnone)

end CompileFail.Target
