import CompileFail.Layout
import CompileFail.Proofs.JoinedNames
import CompileFail.Proofs.WalkVisits

/-! The files of a target. They can be listed if all directories below the target can be opened. They are found by
different names, so they have different titles where their names are text. The path of such a file, if it can be
followed at all, leads to the entry that the walk found; so files that are added to the tree meanwhile do not change
what is read from it. -/

namespace CompileFail

namespace FileTree

variable {tree : FileTree} {place here : Place} {names : List Text} {entry : Entry} {p root : Path}

/-! ### Reading while files are added -/

/-- If a path leads somewhere, something stands there. -/
def Stands (tree : FileTree) (p : Path) : Prop :=
  ∀ place, tree.locateFor .target p = .ok place → tree.entry? place ≠ none

theorem Grown.readText_iff {grown : FileTree} (hgrown : Grown tree grown) (hstands : tree.Stands p)
    {text : Text} : grown.readText p = .ok text ↔ tree.readText p = .ok text := by
  cases hplace : tree.locateFor .target p with
  | ok place =>
      have hentry := (hgrown.entry? place).resolve_right fun h => hstands place hplace h.1
      have hfind : grown.find p true = tree.find p true := by
        simp [find, locate, hgrown.locateFor_iff.mpr hplace, hplace, hentry, bind, Except.bind]
      rw [readText, readText, read, read, hfind]
  | error e =>
      have hnone : ∀ place, grown.locateFor .target p ≠ .ok place := fun place hgrownPlace => by
        cases hplace.symm.trans (hgrown.locateFor_iff.mp hgrownPlace)
      cases hgrownPlace : grown.locateFor .target p with
      | ok place => exact absurd hgrownPlace (hnone place)
      | error e' => simp [readText, read, find, locate, hgrownPlace, hplace, bind, Except.bind]

end FileTree

namespace Target

open FileTree

variable {settings : Settings.Check} {target : Path} {tree : FileTree} {files : List Path} {place : Place}
  {names : List Octets}

/-- The names lead from a directory to a regular file with the extension of source files. -/
def LeadsToSource (settings : Settings.Check) (tree : FileTree) (place : Place) (names : List Octets) : Prop :=
  ∃ front name content executable modified, names = front ++ [name] ∧
    tree.LeadsTo place names (.file content executable modified) ∧
    Text.HasExtension name (Octets.ofText settings.sourceExtension)

/-- The source files below a directory, with the names that lead to them. -/
def foundSources (settings : Settings.Check) (target : Path) (tree : FileTree) (place : Place) :
    List (List Octets × Entry) :=
  (tree.below (tree.height + 1) place).filter fun found =>
    found.2.isFile && settings.isSourceFile (target.joinAll found.1)

/-- Names that lead to a source file make up a path with the extension. -/
theorem isSourceFile_joinAll_iff {front : List Octets} {name : Octets} {entry : Entry} (hnamed : tree.Named)
    (htext : target.text ≠ []) (hleads : tree.LeadsTo place (front ++ [name]) entry) :
    settings.isSourceFile (target.joinAll (front ++ [name])) = true ↔
      Text.HasExtension name (Octets.ofText settings.sourceExtension) :=
  Settings.Check.isSourceFile_iff (Path.fileName_joinAll htext (hleads.isName hnamed) List.getLast?_concat)

theorem leadsToSource_iff (hnamed : tree.Named) (htext : target.text ≠ []) :
    LeadsToSource settings tree place names ↔ ∃ entry, tree.LeadsTo place names entry ∧ entry.isFile = true ∧
      settings.isSourceFile (target.joinAll names) = true := by
  constructor
  · rintro ⟨front, name, content, executable, modified, rfl, hleads, hextension⟩
    exact ⟨_, hleads, rfl, (isSourceFile_joinAll_iff hnamed htext hleads).mpr hextension⟩
  · rintro ⟨entry, hleads, hfile, hsource⟩
    obtain ⟨front, name, rfl⟩ := (List.eq_nil_or_concat names).resolve_left hleads.ne_nil
    rw [List.concat_eq_append] at hleads hsource ⊢
    cases entry with
    | file content executable modified =>
        exact ⟨front, name, content, executable, modified, rfl, hleads,
          (isSourceFile_joinAll_iff hnamed htext hleads).mp hsource⟩
    | _ => cases hfile

theorem mem_foundSources_iff (hnamed : tree.Named) (htext : target.text ≠ []) :
    names ∈ (foundSources settings target tree place).map (·.1) ↔ LeadsToSource settings tree place names := by
  rw [leadsToSource_iff hnamed htext, List.mem_map]
  constructor
  · rintro ⟨⟨names, entry⟩, hfound, rfl⟩
    obtain ⟨hbelow, hkept⟩ := List.mem_filter.mp hfound
    obtain ⟨hfile, hsource⟩ := Bool.and_eq_true_iff.mp hkept
    exact ⟨entry, mem_below_iff.mp hbelow, hfile, hsource⟩
  · rintro ⟨entry, hleads, hfile, hsource⟩
    exact ⟨(names, entry), List.mem_filter.mpr ⟨mem_below_iff.mpr hleads, Bool.and_eq_true_iff.mpr ⟨hfile, hsource⟩⟩,
      rfl⟩

theorem isFile_eq_false_of_dir (h : tree.find target true = .ok (place, .dir)) : tree.isFile target = false := by
  rw [isFile, h]
  rfl

/-- A directory is listed exactly if all directories below can be opened. -/
theorem sourceFiles_of_dir_iff (hnamed : tree.Named) (h : tree.find target true = .ok (place, .dir)) :
    sourceFiles settings target tree = .ok files ↔ tree.Opens place target ∧
      files = (foundSources settings target tree place).map fun found => target.joinAll found.1 := by
  obtain ⟨own, hown, hwalk⟩ := walk_of_dir h
  have hlisted : ∀ entries, (tree.walk target).mapM id = .ok entries ↔ tree.Opens place target ∧ entries =
      (target, own) :: (tree.below (tree.height + 1) place).map fun found => (target.joinAll found.1, found.2) := by
    intro entries
    rw [mapM_id_eq_ok_iff, hwalk]
    constructor
    · intro hentries
      obtain ⟨first, rest, rfl, hfirst, hrest⟩ := List.map_eq_cons_iff.mp hentries.symm
      obtain rfl := Except.ok.inj hfirst
      obtain ⟨hopens, rfl⟩ := (walkBelow_eq_map_ok_iff hnamed h).mp hrest.symm
      exact ⟨hopens, rfl⟩
    · rintro ⟨hopens, rfl⟩
      exact congrArg _ ((walkBelow_eq_map_ok_iff hnamed h).mpr ⟨hopens, rfl⟩)
  have hkept : ∀ entries, entries = (target, own) :: (tree.below (tree.height + 1) place).map
      (fun found => (target.joinAll found.1, found.2)) →
      (entries.filter fun found => found.2.isFile && settings.isSourceFile found.1).map (·.1) =
        (foundSources settings target tree place).map fun found => target.joinAll found.1 := by
    rintro entries rfl
    rw [List.filter_cons_of_neg (by simp [hown]), List.filter_map, List.map_map]
    rfl
  rw [sourceFiles, isFile_eq_false_of_dir h, if_neg Bool.false_ne_true]
  cases hmapM : (tree.walk target).mapM id with
  | error e =>
      have hclosed : ¬tree.Opens place target := fun hopens => by
        cases hmapM.symm.trans ((hlisted _).mpr ⟨hopens, rfl⟩)
      simp [hclosed]
  | ok entries =>
      obtain ⟨hopens, hentries⟩ := (hlisted _).mp hmapM
      rw [Except.ok.injEq, ← hkept entries hentries]
      exact ⟨fun h => ⟨hopens, h.symm⟩, fun h => h.2.symm⟩

theorem sourceFiles_of_dir (settings : Settings.Check) (hnamed : tree.Named)
    (h : tree.find target true = .ok (place, .dir)) (hopens : tree.Opens place target) :
    sourceFiles settings target tree =
      .ok ((foundSources settings target tree place).map fun found => target.joinAll found.1) :=
  (sourceFiles_of_dir_iff hnamed h).mpr ⟨hopens, rfl⟩

/-- Where a directory below cannot be opened, the listing fails and says so of such a directory. -/
theorem sourceFiles_of_closed (settings : Settings.Check) (hnamed : tree.Named)
    (h : tree.find target true = .ok (place, .dir)) (hclosed : ¬tree.Opens place target) :
    ∃ names cause, tree.LeadsTo place names .dir ∧ tree.find (target.joinAll names) true = .error cause ∧
      sourceFiles settings target tree = .error (.io (.walk (target.joinAll names) cause)) := by
  obtain ⟨own, -, hwalk⟩ := walk_of_dir h
  have hfile := isFile_eq_false_of_dir h
  cases hmapM : (tree.walk target).mapM id with
  | ok entries =>
      have hlisted : ∃ files, sourceFiles settings target tree = .ok files := by
        rw [sourceFiles, hfile, if_neg Bool.false_ne_true, hmapM]
        exact ⟨_, rfl⟩
      obtain ⟨files, hfiles⟩ := hlisted
      exact absurd ((sourceFiles_of_dir_iff hnamed h).mp hfiles).1 hclosed
  | error e =>
      have hmem := mem_of_mapM_id_eq_error hmapM
      rw [hwalk] at hmem
      have hbelow := (List.mem_cons.mp hmem).resolve_left (by simp)
      obtain ⟨names, cause, hleads, hfind, rfl⟩ := exists_of_error_mem_walkBelow hnamed h hbelow
      refine ⟨names, cause, hleads, hfind, ?_⟩
      rw [sourceFiles, hfile, if_neg Bool.false_ne_true, hmapM]

theorem nodup_foundSources (settings : Settings.Check) (target : Path) (tree : FileTree) (place : Place) :
    ((foundSources settings target tree place).map (·.1)).Nodup :=
  (nodup_below _ place).sublist (List.filter_sublist.map _)

/-- The source files of a target are the target itself or, for a directory, files that are found below it
by different names. -/
theorem sourceFiles_cases (hnamed : tree.Named) (h : sourceFiles settings target tree = .ok files) :
    tree.isFile target = true ∧ files = [target] ∨
    tree.isFile target = false ∧ ∃ found : List (List Octets), files = found.map target.joinAll ∧ found.Nodup ∧
      ∀ names ∈ found, ∃ place, tree.find target true = .ok (place, .dir) ∧
        LeadsToSource settings tree place names := by
  cases hfile : tree.isFile target with
  | true =>
      rw [sourceFiles, if_pos hfile] at h
      exact Or.inl ⟨rfl, (Except.ok.inj h).symm⟩
  | false =>
      refine Or.inr ⟨rfl, ?_⟩
      rcases walk_cases tree target with ⟨own, place, hdir, -, -⟩ | ⟨-, hrest⟩
      · obtain ⟨-, rfl⟩ := (sourceFiles_of_dir_iff hnamed hdir).mp h
        refine ⟨(foundSources settings target tree place).map (·.1), ?_, nodup_foundSources .., ?_⟩
        · rw [List.map_map]
          rfl
        · intro names hnames
          have htext := text_ne_nil_of_locateFor (find_eq_ok_iff.mp hdir).1
          exact ⟨place, hdir, (mem_foundSources_iff hnamed htext).mp hnames⟩
      · refine ⟨[], ?_, List.nodup_nil, by rintro names ⟨⟩⟩
        rw [sourceFiles, hfile, if_neg Bool.false_ne_true] at h
        rcases hrest with ⟨here, entry, hfind, hwalk⟩ | ⟨e, hwalk, -⟩
        · have hown : entry.isFile = false := by
            by_contra hown
            have hisFile := isFile_of_find_itself hfind (Bool.not_eq_false _ ▸ hown)
            cases hisFile.symm.trans hfile
          rw [hwalk] at h
          obtain rfl : _ = files := Except.ok.inj h
          simp [hown]
        · rw [hwalk] at h
          cases h

section Listed

variable (hnamed : tree.Named) (h : sourceFiles settings target tree = .ok files)

include hnamed h

end Listed

end Target

end CompileFail
