import CompileFail.Proofs.WalkedFiles
import CompileFail.Synthesis

/-! The smallest source file. Where all directories can be opened, the search for it and the list of source files go
through the same entries, but the search passes over a file whose path cannot be followed. Of the other files it takes
the first one that no file is smaller than. -/

namespace CompileFail

/-! ### The first of the smallest -/

section FirstSmallest

variable {α β : Type} {size : α → Nat} {x y : α} {xs ys : List α}

/-- Whatever comes before the element is larger, and whatever comes behind it is at least as large. -/
def FirstSmallest (size : α → Nat) (xs : List α) (x : α) : Prop :=
  ∃ before after, xs = before ++ x :: after ∧ (∀ y ∈ before, size x < size y) ∧ ∀ y ∈ after, size x ≤ size y

theorem FirstSmallest.mem (h : FirstSmallest size xs x) : x ∈ xs := by
  obtain ⟨before, after, rfl, -, -⟩ := h
  exact List.mem_append_right _ List.mem_cons_self

theorem FirstSmallest.unique (h : FirstSmallest size xs x) (h' : FirstSmallest size xs y) : x = y := by
  obtain ⟨before, after, rfl, hbefore, hafter⟩ := h
  obtain ⟨before', after', hsplit, hbefore', hafter'⟩ := h'
  rcases List.append_eq_append_iff.mp hsplit with ⟨between, rfl, hrest⟩ | ⟨between, rfl, hrest⟩
  · cases between with
    | nil => exact (List.cons.inj hrest).1
    | cons first between =>
        obtain ⟨rfl, rfl⟩ := List.cons.inj hrest
        have hlt := hbefore' x (List.mem_append_right _ List.mem_cons_self)
        have hle := hafter y (List.mem_append_right _ List.mem_cons_self)
        omega
  · cases between with
    | nil => exact (List.cons.inj hrest).1.symm
    | cons first between =>
        obtain ⟨rfl, rfl⟩ := List.cons.inj hrest
        have hlt := hbefore y (List.mem_append_right _ List.mem_cons_self)
        have hle := hafter' x (List.mem_append_right _ List.mem_cons_self)
        omega

theorem FirstSmallest.of_map {f : β → α} {zs : List β} (h : FirstSmallest size (zs.map f) x) :
    ∃ z, f z = x ∧ FirstSmallest (fun z => size (f z)) zs z := by
  obtain ⟨before, after, hsplit, hbefore, hafter⟩ := h
  obtain ⟨front, rest, rfl, rfl, hrest⟩ := List.map_eq_append_iff.mp hsplit
  obtain ⟨z, back, rfl, rfl, rfl⟩ := List.map_eq_cons_iff.mp hrest
  exact ⟨z, rfl, front, back, rfl, fun y hy => hbefore _ (List.mem_map_of_mem hy),
    fun y hy => hafter _ (List.mem_map_of_mem hy)⟩

/-- An element that is found whenever there is one is found exactly if it is the first of the smallest. -/
theorem FirstSmallest.found_iff {found : Option α}
    (h : found = none ∧ xs = [] ∨ ∃ x, found = some x ∧ FirstSmallest size xs x) :
    (found = none ↔ xs = []) ∧ ∀ x, found = some x ↔ FirstSmallest size xs x := by
  rcases h with ⟨rfl, rfl⟩ | ⟨x, rfl, hx⟩
  · exact ⟨iff_of_true rfl rfl, fun x => iff_of_false (Option.some_ne_none x).symm fun hx => List.not_mem_nil hx.mem⟩
  · refine ⟨iff_of_false (Option.some_ne_none x) (List.ne_nil_of_mem hx.mem), fun y => ?_⟩
    exact ⟨fun hy => Option.some.inj hy ▸ hx, fun hy => congrArg some (hx.unique hy)⟩

variable {best next : Nat × Path} {seen : List (Nat × Path)}

/-- One more file leaves the best so far in place unless it is strictly smaller. -/
theorem FirstSmallest.smaller (h : FirstSmallest (·.1) seen best) :
    FirstSmallest (·.1) (seen ++ [next]) (smaller best next) := by
  have hsmallest : ∀ other ∈ seen, best.1 ≤ other.1 := by
    obtain ⟨before, after, rfl, hbefore, hafter⟩ := h
    rintro other hother
    rcases List.mem_append.mp hother with hother | hother
    · exact (hbefore other hother).le
    · rcases List.mem_cons.mp hother with rfl | hother
      · exact Nat.le_refl _
      · exact hafter other hother
  rw [CompileFail.smaller]
  split
  · next hle =>
    obtain ⟨before, after, rfl, hbefore, hafter⟩ := h
    refine ⟨before, after ++ [next], by simp, hbefore, ?_⟩
    exact List.forall_mem_append.mpr ⟨hafter, List.forall_mem_singleton.mpr hle⟩
  · next hlt =>
    refine ⟨seen, [], rfl, fun other hother => ?_, List.forall_mem_nil _⟩
    exact (Nat.lt_of_not_le hlt).trans_le (hsmallest other hother)

theorem firstSmallest_foldl (rest : List (Nat × Path)) (h : FirstSmallest (·.1) seen best) :
    FirstSmallest (·.1) (seen ++ rest) (rest.foldl smaller best) := by
  induction rest generalizing seen best with
  | nil => rwa [List.append_nil]
  | cons next rest ih =>
      rw [List.foldl_cons, ← List.singleton_append, ← List.append_assoc]
      exact ih h.smaller

end FirstSmallest

namespace FileTree

/-- The size of the file that a path leads to; anything else counts as empty. -/
def size (tree : FileTree) (p : Path) : Nat :=
  match tree.find p true with
  | .ok (_, .file content _ _) => content.size
  | _ => 0

end FileTree

namespace Target

open FileTree

variable {settings : Settings.Check} {dir file : Path} {tree : FileTree} {place : Place} {files : List Path}

/-- The search sees the listed files in their order, those aside whose paths cannot be followed. -/
theorem sizedFiles_eq (hnamed : tree.Named) (hdir : tree.find dir true = .ok (place, .dir))
    {found : List (List Octets × Entry)} (hfound : ∀ step ∈ found, tree.LeadsTo place step.1 step.2) :
    sizedFiles settings tree (found.map fun step => (dir.joinAll step.1, step.2)) =
      (((found.filter fun step => step.2.isFile && settings.isSourceFile (dir.joinAll step.1)).map
        fun step => dir.joinAll step.1).filter fun file => (tree.find file true).isOk).map
        fun file => (tree.size file, file) := by
  induction found with
  | nil => rfl
  | cons step found ih =>
      rw [List.forall_mem_cons] at hfound
      obtain ⟨names, entry⟩ := step
      have hrest := ih hfound.2
      have hleads := hfound.1
      simp only [sizedFiles] at hrest ⊢
      cases entry with
      | file content executable modified =>
          have hsize : (tree.find (dir.joinAll names) true).isOk = true →
              tree.size (dir.joinAll names) = content.size := fun hok => by
            rw [size, hleads.find_joinAll hnamed (by simp) hdir hok]
          cases hsource : settings.isSourceFile (dir.joinAll names) <;>
            cases hok : (tree.find (dir.joinAll names) true).isOk <;>
            simp_all [Entry.isFile]
      | _ => simpa [Entry.isFile] using hrest

/-- Of the listed files whose paths can be followed, the first of the smallest is found. -/
theorem smallestSourceFile_iff (hnamed : tree.Named) (hdir : tree.find dir true = .ok (place, .dir))
    (hfiles : sourceFiles settings dir tree = .ok files) :
    (smallestSourceFile settings dir tree = none ↔ (files.filter fun file => (tree.find file true).isOk) = []) ∧
      ∀ file, smallestSourceFile settings dir tree = some file ↔
        FirstSmallest tree.size (files.filter fun file => (tree.find file true).isOk) file := by
  obtain ⟨hopens, hlisted⟩ := (sourceFiles_of_dir_iff hnamed hdir).mp hfiles
  obtain ⟨own, hown, hwalk⟩ := walk_of_dir hdir
  have hseen : (tree.walk dir).filterMap Except.toOption = (dir, own) ::
      (tree.below (tree.height + 1) place).map fun found => (dir.joinAll found.1, found.2) := by
    rw [hwalk, walkBelow_of_opens hnamed hdir hopens]
    simp [Except.toOption, List.filterMap_map, Function.comp_def]
  have hsized : sizedFiles settings tree ((tree.walk dir).filterMap Except.toOption) =
      (files.filter fun file => (tree.find file true).isOk).map fun file => (tree.size file, file) := by
    rw [hseen, hlisted, foundSources, ← sizedFiles_eq hnamed hdir fun _ => leadsTo_of_mem_below]
    cases own <;> first | rfl | cases hown
  refine FirstSmallest.found_iff ?_
  rw [smallestSourceFile, hsized]
  cases hseen : files.filter fun file => (tree.find file true).isOk with
  | nil => exact Or.inl ⟨rfl, rfl⟩
  | cons first rest =>
      refine Or.inr ⟨_, rfl, ?_⟩
      have hone : FirstSmallest Prod.fst [(tree.size first, first)] (tree.size first, first) :=
        ⟨[], [], rfl, List.forall_mem_nil _, List.forall_mem_nil _⟩
      have hfirst := firstSmallest_foldl (rest.map fun file => (tree.size file, file)) hone
      rw [List.singleton_append, ← List.map_cons (f := fun file => (tree.size file, file))] at hfirst
      obtain ⟨file, hfile, hsmallest⟩ := hfirst.of_map
      dsimp only
      rw [← hfile]
      exact hsmallest

/-- The files of a directory can be listed exactly if all directories below it can be opened. Then the search and the
list agree, but for files whose paths cannot be followed, which are listed and passed over by the search. If there are
none, nothing is found exactly if nothing is listed, and otherwise the first of the smallest listed files. -/
theorem smallestSourceFile_agrees (settings : Settings.Check) (hnamed : tree.Named)
    (hdir : tree.find dir true = .ok (place, .dir)) :
    ((∃ files, sourceFiles settings dir tree = .ok files) ↔ tree.Opens place dir) ∧
    ∀ files, sourceFiles settings dir tree = .ok files →
      (smallestSourceFile settings dir tree = none ↔ ∀ file ∈ files, (tree.find file true).isOk = false) ∧
      (∀ file, smallestSourceFile settings dir tree = some file ↔
        FirstSmallest tree.size (files.filter fun file => (tree.find file true).isOk) file) ∧
      ((∀ file ∈ files, (tree.find file true).isOk = true) →
        (smallestSourceFile settings dir tree = none ↔ files = []) ∧
        ∀ file, smallestSourceFile settings dir tree = some file ↔ FirstSmallest tree.size files file) := by
  constructor
  · constructor
    · rintro ⟨files, hfiles⟩
      exact ((sourceFiles_of_dir_iff hnamed hdir).mp hfiles).1
    · exact fun hopens => ⟨_, sourceFiles_of_dir settings hnamed hdir hopens⟩
  · intro files hfiles
    obtain ⟨hnone, hsome⟩ := smallestSourceFile_iff hnamed hdir hfiles
    refine ⟨?_, hsome, fun hfollowed => ?_⟩
    · simpa only [List.filter_eq_nil_iff, Bool.not_eq_true] using hnone
    · rw [List.filter_eq_self.mpr hfollowed] at hnone hsome
      exact ⟨hnone, hsome⟩

theorem smallestSourceFile_agrees_tied :
    let file (text : Text) : Entry := .file (.text text) false 0
    let tree := FileTree.ofEntries [(["r"], .dir), (["r", "a"], .dir), (["r", "a", "z.CPP"], file "xy"),
      (["r", "a.cpp"], file "x"), (["r", "b.cpp"], .dir), (["r", "b.cpp", "c.Cpp"], file "y"), (["r", "d.h"], file "")]
    let dir : Path := ⟨"/r/"⟩
    let files : List Path := [⟨"/r/a/z.CPP"⟩, ⟨"/r/a.cpp"⟩, ⟨"/r/b.cpp/c.Cpp"⟩]
    tree.Named ∧ tree.find dir true = .ok (["r"], .dir) ∧ sourceFiles {} dir tree = .ok files ∧
      (∀ file ∈ files, (tree.find file true).isOk = true) ∧ smallestSourceFile {} dir tree = some ⟨"/r/a.cpp"⟩ ∧
      FirstSmallest tree.size files ⟨"/r/a.cpp"⟩ := by
  intro file tree dir files
  have hnamed : tree.Named := FileTree.named_ofEntries (by decide)
  have hdir : tree.find dir true = .ok (["r"], .dir) := by rfl
  have hfiles : sourceFiles {} dir tree = .ok files := by decide +kernel
  have hfollowed : ∀ file ∈ files, (tree.find file true).isOk = true := by decide +kernel
  have hsmallest : smallestSourceFile {} dir tree = some ⟨"/r/a.cpp"⟩ := by decide +kernel
  obtain ⟨-, -, hagree⟩ := (smallestSourceFile_agrees {} hnamed hdir).2 files hfiles
  exact ⟨hnamed, hdir, hfiles, hfollowed, hsmallest, ((hagree hfollowed).2 _).mp hsmallest⟩

/-- A file whose path is longer than the system takes is listed, but the search does not find it. -/
theorem smallestSourceFile_passes_over :
    let file : Entry := .file (.text "x") false 0
    let tree := FileTree.ofEntries [(["a.cpp"], file)]
    let dir : Path := ⟨List.replicate 4095 '/'⟩
    tree.Named ∧ tree.find dir true = .ok ([], .dir) ∧ sourceFiles {} dir tree = .ok [dir.join "a.cpp"] ∧
      smallestSourceFile {} dir tree = none := by
  intro file tree dir
  have hnamed : tree.Named := FileTree.named_ofEntries (by decide)
  have hdir : tree.find dir true = .ok ([], .dir) := find_slashes (by decide)
  have htext : dir.text ≠ [] := text_ne_nil_of_locateFor (find_eq_ok_iff.mp hdir).1
  have hfiles : sourceFiles {} dir tree = .ok [dir.join "a.cpp"] := by
    have hbelow : tree.below (tree.height + 1) [] = [([("a.cpp" : Octets)], file)] := by decide +kernel
    have hsource : Settings.Check.isSourceFile {} (dir.joinAll ["a.cpp"]) = true :=
      (Settings.Check.isSourceFile_iff (Path.fileName_joinAll htext (by decide) rfl)).mpr
        ⟨"a", "cpp", rfl, by decide, by decide, by decide⟩
    have hopens : tree.Opens [] dir := by
      intro names hleads
      have hmem := mem_below_iff.mpr hleads
      rw [hbelow] at hmem
      exact absurd (congrArg Prod.snd (List.mem_singleton.mp hmem)) (by nofun)
    rw [sourceFiles_of_dir _ hnamed hdir hopens, foundSources, hbelow,
      List.filter_cons_of_pos (by rw [hsource]; rfl), List.filter_nil, List.map_singleton, Path.joinAll,
      List.foldl_cons, List.foldl_nil]
  refine ⟨hnamed, hdir, hfiles, (smallestSourceFile_iff hnamed hdir hfiles).1.mpr ?_⟩
  have hfind : (tree.find (dir.join "a.cpp") true).isOk = false := isOk_find_join_slashes (by decide) (by decide)
  rw [List.filter_cons_of_neg (by rw [hfind]; decide), List.filter_nil]

end Target

end CompileFail
