import CompileFail.Proofs.WalkedFiles
import CompileFail.Synthesis

/-! The file that is made stale between two builds. It is one of the source files below a directory, and its path
leads to it. If it can be touched, nothing but its time of modification changes. -/

namespace CompileFail

namespace Entry

/-- What an entry is, the time of a file aside. -/
def timeless : Entry → Entry
  | .file content executable _ => .file content executable 0
  | entry => entry

/-- The time of modification of a file. -/
def modified? : Entry → Option Nat
  | .file _ _ modified => some modified
  | _ => none

end Entry

namespace FileTree

variable {tree : FileTree} {place other : Place} {file : Path} {content : Content} {executable : Bool}
  {modified : Nat}

/-- The time of modification of the file at a place. -/
def modified? (tree : FileTree) (place : Place) : Option Nat := (tree.entry? place).bind Entry.modified?

section Touch

variable (h : tree.find file true = .ok (place, .file content executable modified))

include h

/-- A file can be touched unless it is the file of another. -/
theorem touch_of_find : tree.touch file = if tree.foreign place then .error .notPermitted else
    .ok (tree.insert place (.file content executable tree.clock)) := by
  rw [touch, h]
  rfl

theorem entry?_touched (other : Place) :
    FileTree.entry? (tree.insert place (.file content executable tree.clock)) other =
      if other = place then some (.file content executable tree.clock) else tree.entry? other := by
  obtain ⟨-, hentry⟩ := find_eq_ok_iff.mp h
  have hdir : tree.entry? place ≠ some .dir := by
    rw [hentry]
    nofun
  exact entry?_insert (ne_nil_of_entry?_ne_dir hdir)

/-- Touching leaves everything but a time as it was. -/
theorem timeless_touched (other : Place) :
    (FileTree.entry? (tree.insert place (.file content executable tree.clock)) other).map Entry.timeless =
      (tree.entry? other).map Entry.timeless := by
  obtain ⟨-, hentry⟩ := find_eq_ok_iff.mp h
  rw [entry?_touched h]
  split
  · next hother =>
    rw [hother, hentry]
    rfl
  · rfl

theorem modified?_touched (other : Place) :
    (tree.insert place (.file content executable tree.clock)).modified? other =
      if other = place then some tree.clock else tree.modified? other := by
  rw [modified?, entry?_touched h, modified?]
  split <;> rfl

end Touch

end FileTree

/-! ### The smallest file -/

section Smallest

variable {settings : Settings.Check} {dir file : Path} {tree : FileTree}

/-- The file is a source file below the directory, or what should be a directory is itself a source file. -/
def IsSourceBelow (settings : Settings.Check) (dir : Path) (tree : FileTree) (file : Path) : Prop :=
  (∃ place names, tree.find dir true = .ok (place, .dir) ∧ Target.LeadsToSource settings tree place names ∧
    file = dir.joinAll names) ∨
  ∃ place entry, tree.find dir false = .ok (place, entry) ∧ entry.isFile = true ∧ file = dir ∧
    settings.isSourceFile dir = true

/-- The path of a source file leads to a file, if it can be followed. -/
theorem IsSourceBelow.find (h : IsSourceBelow settings dir tree file) (hnamed : tree.Named)
    (hfound : (tree.find file true).isOk = true) :
    ∃ place content executable modified, tree.find file true = .ok (place, .file content executable modified) := by
  rcases h with ⟨place, names, hdir, ⟨front, name, content, executable, modified, -, hleads, -⟩, rfl⟩ |
    ⟨place, entry, hfind, hfile, rfl, -⟩
  · exact ⟨_, _, _, _, hleads.find_joinAll hnamed (by simp) hdir hfound⟩
  · exact FileTree.exists_find_of_isFile (FileTree.isFile_of_find_itself hfind hfile)

theorem foldl_smaller_mem (first : Nat × Path) (rest : List (Nat × Path)) :
    rest.foldl smaller first ∈ first :: rest := by
  induction rest generalizing first with
  | nil => exact List.mem_singleton_self first
  | cons next rest ih =>
      rw [List.foldl_cons]
      rcases List.mem_cons.mp (ih (smaller first next)) with heq | hmem
      · rw [heq, smaller]
        split
        · exact List.mem_cons_self
        · exact List.mem_cons_of_mem _ List.mem_cons_self
      · exact List.mem_cons_of_mem _ (List.mem_cons_of_mem _ hmem)

theorem mem_sizedFiles_iff {entries : List (Path × Entry)} {size : Nat} :
    (size, file) ∈ sizedFiles settings tree entries ↔
      ∃ content executable modified, (file, .file content executable modified) ∈ entries ∧ size = content.size ∧
        settings.isSourceFile file = true ∧ (tree.find file true).isOk = true := by
  rw [sizedFiles, List.mem_filterMap]
  constructor
  · rintro ⟨⟨p, entry⟩, hmem, hsized⟩
    cases entry with
    | file content executable modified =>
        dsimp only at hsized
        split at hsized
        · next hkept =>
          obtain ⟨rfl, rfl⟩ := Prod.mk.inj (Option.some.inj hsized)
          exact ⟨content, executable, modified, hmem, rfl, Bool.and_eq_true_iff.mp hkept⟩
        · cases hsized
    | _ => cases hsized
  · rintro ⟨content, executable, modified, hmem, rfl, hsource, hfound⟩
    exact ⟨_, hmem, by simp [hsource, hfound]⟩

/-- The walk lists the source files that can be reached by their paths, whatever else it comes across. -/
theorem exists_mem_walk_iff (hnamed : tree.Named) (hfound : (tree.find file true).isOk = true) :
    (∃ entry, .ok (file, entry) ∈ tree.walk dir ∧ entry.isFile = true ∧ settings.isSourceFile file = true) ↔
      IsSourceBelow settings dir tree file := by
  rcases FileTree.walk_cases tree dir with ⟨own, place, hdir, hown, hwalk⟩ | ⟨hnotDir, ⟨here, entry, hfind, hwalk⟩ |
    ⟨e, hwalk, hnotFile⟩⟩
  · have htext := FileTree.text_ne_nil_of_locateFor (FileTree.find_eq_ok_iff.mp hdir).1
    rw [hwalk]
    constructor
    · rintro ⟨entry, hmem, hfile, hsource⟩
      rcases List.mem_cons.mp hmem with heq | hmem
      · obtain ⟨rfl, rfl⟩ := Prod.mk.inj (Except.ok.inj heq)
        cases hfile.symm.trans hown
      · have hlisted := (FileTree.walkBelow_sublist hnamed hdir _).subset (List.mem_filterMap.mpr ⟨_, hmem, rfl⟩)
        obtain ⟨⟨names, entry'⟩, hbelow, heq⟩ := List.mem_map.mp hlisted
        obtain ⟨rfl, rfl⟩ := Prod.mk.inj heq
        exact Or.inl ⟨place, names, hdir, (Target.leadsToSource_iff hnamed htext).mpr
          ⟨entry', FileTree.mem_below_iff.mp hbelow, hfile, hsource⟩, rfl⟩
    · rintro (⟨place', names, hdir', hsource, rfl⟩ | ⟨here, entry, hfind, hfile, rfl, -⟩)
      · obtain ⟨rfl, -⟩ := Prod.mk.inj (Except.ok.inj (hdir.symm.trans hdir'))
        obtain ⟨entry, hleads, hfile, hsource⟩ := (Target.leadsToSource_iff hnamed htext).mp hsource
        have hheight := FileTree.length_le_height hleads.entry?
        rw [List.length_append] at hheight
        refine ⟨entry, List.mem_cons_of_mem _ ?_, hfile, hsource⟩
        exact FileTree.mem_walkBelow_of_leadsTo hnamed hdir hleads (by omega)
          (hleads.isOk_find_dropLast hnamed hdir hfound)
      · have hisFile := FileTree.isFile_of_find_itself hfind hfile
        cases hisFile.symm.trans (Target.isFile_eq_false_of_dir hdir)
  · rw [hwalk]
    constructor
    · rintro ⟨entry', hmem, hfile, hsource⟩
      obtain ⟨rfl, rfl⟩ := Prod.mk.inj (Except.ok.inj (List.mem_singleton.mp hmem))
      exact Or.inr ⟨here, entry', hfind, hfile, rfl, hsource⟩
    · rintro (⟨place', names, hdir, -⟩ | ⟨here', entry', hfind', hfile, rfl, hsource⟩)
      · exact absurd hdir (hnotDir place')
      · obtain ⟨-, rfl⟩ := Prod.mk.inj (Except.ok.inj (hfind.symm.trans hfind'))
        exact ⟨entry, List.mem_singleton_self _, hfile, hsource⟩
  · rw [hwalk]
    constructor
    · rintro ⟨entry, hmem, -⟩
      cases List.mem_singleton.mp hmem
    · rintro (⟨place, names, hdir, -⟩ | ⟨here, entry, hfind, hfile, -⟩)
      · exact absurd hdir (hnotDir place)
      · cases hfile.symm.trans (hnotFile here entry hfind)

theorem exists_mem_sizedFiles_iff (hnamed : tree.Named) :
    (∃ size, (size, file) ∈ sizedFiles settings tree ((tree.walk dir).filterMap Except.toOption)) ↔
      IsSourceBelow settings dir tree file ∧ (tree.find file true).isOk = true := by
  have hlisted : ∀ entry, (file, entry) ∈ (tree.walk dir).filterMap Except.toOption ↔
      .ok (file, entry) ∈ tree.walk dir := by
    intro entry
    rw [List.mem_filterMap]
    constructor
    · rintro ⟨visit, hvisit, hentry⟩
      cases visit with
      | error e => cases hentry
      | ok found => exact Option.some.inj hentry ▸ hvisit
    · exact fun h => ⟨_, h, rfl⟩
  constructor
  · rintro ⟨size, hmem⟩
    obtain ⟨content, executable, modified, hentry, -, hsource, hfound⟩ := mem_sizedFiles_iff.mp hmem
    exact ⟨(exists_mem_walk_iff hnamed hfound).mp ⟨_, (hlisted _).mp hentry, rfl, hsource⟩, hfound⟩
  · rintro ⟨hbelow, hfound⟩
    obtain ⟨entry, hmem, hfile, hsource⟩ := (exists_mem_walk_iff hnamed hfound).mpr hbelow
    cases entry with
    | file content executable modified =>
        exact ⟨content.size, mem_sizedFiles_iff.mpr
          ⟨content, executable, modified, (hlisted _).mpr hmem, rfl, hsource, hfound⟩⟩
    | _ => cases hfile

/-- A file is named exactly if there is a source file that can be reached by its path, and then it is one. -/
theorem smallestSourceFile_cases (settings : Settings.Check) (dir : Path) (hnamed : tree.Named) :
    (∃ file, smallestSourceFile settings dir tree = some file ∧ IsSourceBelow settings dir tree file ∧
      (tree.find file true).isOk = true) ∨
      smallestSourceFile settings dir tree = none ∧
        ∀ file, IsSourceBelow settings dir tree file → (tree.find file true).isOk = false := by
  rw [smallestSourceFile]
  cases hsized : sizedFiles settings tree ((tree.walk dir).filterMap Except.toOption) with
  | nil =>
      refine Or.inr ⟨rfl, fun file hbelow => Bool.eq_false_iff.mpr fun hfound => ?_⟩
      obtain ⟨size, hmem⟩ := (exists_mem_sizedFiles_iff hnamed).mpr ⟨hbelow, hfound⟩
      rw [hsized] at hmem
      cases hmem
  | cons first rest =>
      have hmem := foldl_smaller_mem first rest
      rw [← hsized] at hmem
      exact Or.inl ⟨_, rfl, (exists_mem_sizedFiles_iff hnamed).mp ⟨_, hmem⟩⟩

/-- The path of the named file leads to a file. -/
theorem exists_find_of_smallestSourceFile (hnamed : tree.Named)
    (h : smallestSourceFile settings dir tree = some file) :
    ∃ place content executable modified,
      tree.find file true = .ok (place, .file content executable modified) := by
  rcases smallestSourceFile_cases settings dir hnamed with ⟨file', hsome, hbelow, hfound⟩ | ⟨hnone, -⟩
  · obtain rfl := Option.some.inj (hsome.symm.trans h)
    exact hbelow.find hnamed hfound
  · cases hnone.symm.trans h

end Smallest

end CompileFail
