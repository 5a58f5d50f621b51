import CompileFail.Layout
import CompileFail.Proofs.Deeds
import CompileFail.Proofs.PathAscent
import CompileFail.Proofs.WalkedEntries

/-! The frame that is found around a start directory, by rules that say nothing of loops or counts. The
solution directory is the nearest one upwards with a solution file, and the project directory is the nearest
one on the way to it with a project file. The search stops at the solution directory because the directories
on the way up are told apart by their components; what lies above is never looked at. -/

namespace CompileFail.Layout

variable {tree tree' : FileTree} {extension name : Text} {start dir solution project : Path}
  {way lower upper : List Path}

/-- The path leads to a directory, so what is in it can be listed. -/
def Readable (tree : FileTree) (dir : Path) : Prop := ∃ place, tree.find dir true = .ok (place, .dir)

/-- There is a file of that name in the directory, and it has the extension. It is looked at by its path: a link
that leads to a file counts, and a file whose path is too long to be followed does not. -/
structure HoldsFile (tree : FileTree) (extension : Text) (dir : Path) (name : Text) : Prop where
  listed : ∃ place, tree.find dir true = .ok (place, .dir) ∧ tree.entry? (place ++ [name]) ≠ none
  hasExtension : (dir.join name).hasExtension extension = true
  isFile : tree.isFile (dir.join name) = true

def Holds (tree : FileTree) (extension : Text) (dir : Path) : Prop := ∃ name, HoldsFile tree extension dir name

def HoldsTwo (tree : FileTree) (extension : Text) (dir : Path) : Prop :=
  ∃ name name', name ≠ name' ∧ HoldsFile tree extension dir name ∧ HoldsFile tree extension dir name'

/-- The first directory on a way that holds a file with an extension. -/
def Nearest (tree : FileTree) (extension : Text) (way : List Path) (dir : Path) : Prop :=
  ∃ lower upper, way = lower ++ dir :: upper ∧ (∀ other ∈ lower, ¬Holds tree extension other) ∧
    Holds tree extension dir

/-- The part of a way up to and including a directory. -/
def upTo (dir : Path) (way : List Path) : List Path := way.takeWhile (· ≠ dir) ++ [dir]

/-- What the rules say about a start directory. -/
inductive Framed (tree : FileTree) (start : Path) : Except Fault Layout → Prop
  | solutionNotFound (hnone : ∀ dir ∈ start.ancestors, ¬Holds tree solutionExtension dir) :
      Framed tree start (.error (.solutionNotFound start))
  | ambiguousSolution {solution : Path} (hsolution : Nearest tree solutionExtension start.ancestors solution)
      (htwo : HoldsTwo tree solutionExtension solution) :
      Framed tree start (.error (.ambiguousSolution solution))
  | projectNotFound {solution : Path} (hsolution : Nearest tree solutionExtension start.ancestors solution)
      (hone : ¬HoldsTwo tree solutionExtension solution)
      (hnone : ∀ dir ∈ upTo solution start.ancestors, ¬Holds tree projectExtension dir) :
      Framed tree start (.error (.projectNotFound start solution))
  | ambiguousProject {solution project : Path}
      (hsolution : Nearest tree solutionExtension start.ancestors solution)
      (hone : ¬HoldsTwo tree solutionExtension solution)
      (hproject : Nearest tree projectExtension (upTo solution start.ancestors) project)
      (htwo : HoldsTwo tree projectExtension project) :
      Framed tree start (.error (.ambiguousProject project))
  | projectOutsideSolution {solution project : Path}
      (hsolution : Nearest tree solutionExtension start.ancestors solution)
      (hone : ¬HoldsTwo tree solutionExtension solution)
      (hproject : Nearest tree projectExtension (upTo solution start.ancestors) project)
      (hone' : ¬HoldsTwo tree projectExtension project)
      (houtside : project ≠ solution ∧ project.parent ≠ some solution) :
      Framed tree start (.error (.projectOutsideSolution project solution))
  | found {solution project : Path}
      (hsolution : Nearest tree solutionExtension start.ancestors solution)
      (hone : ¬HoldsTwo tree solutionExtension solution)
      (hproject : Nearest tree projectExtension (upTo solution start.ancestors) project)
      (hone' : ¬HoldsTwo tree projectExtension project)
      (hinside : project = solution ∨ project.parent = some solution) :
      Framed tree start (.ok ⟨solution, project, start⟩)

/-! ### Counting the files in a directory -/

/-- The names of the files that are counted. -/
def heldNames (tree : FileTree) (extension : Text) (dir : Path) (place : Place) : List Text :=
  ((tree.children place).filter fun (name, _) =>
    (dir.join name).hasExtension extension && tree.isFile (dir.join name)).map (·.1)

theorem countFiles_eq {place : Place} (h : tree.find dir true = .ok (place, .dir)) :
    countFiles tree extension dir = .ok (heldNames tree extension dir place).length := by
  simp only [countFiles, FileTree.list, h, bind, Except.bind, heldNames, List.length_map,
    List.countP_eq_length_filter]

theorem nodup_heldNames (tree : FileTree) (extension : Text) (dir : Path) (place : Place) :
    (heldNames tree extension dir place).Nodup :=
  (tree.nodup_children place).sublist (List.filter_sublist.map _)

theorem mem_heldNames_iff {place : Place} (h : tree.find dir true = .ok (place, .dir)) :
    name ∈ heldNames tree extension dir place ↔ HoldsFile tree extension dir name := by
  simp only [heldNames, List.mem_map, List.mem_filter, Bool.and_eq_true]
  constructor
  · rintro ⟨⟨name, entry⟩, ⟨hchild, hextension, hfile⟩, rfl⟩
    rw [FileTree.mem_children_iff] at hchild
    exact ⟨⟨place, h, hchild ▸ Option.some_ne_none _⟩, hextension, hfile⟩
  · rintro ⟨⟨place', hplace', hentry⟩, hextension, hfile⟩
    obtain ⟨rfl, -⟩ := Prod.mk.inj (Except.ok.inj (h.symm.trans hplace'))
    obtain ⟨entry, hentry⟩ := Option.ne_none_iff_exists'.mp hentry
    exact ⟨(name, entry), ⟨FileTree.mem_children_iff.mpr hentry, hextension, hfile⟩, rfl⟩

theorem HoldsTwo.holds (h : HoldsTwo tree extension dir) : Holds tree extension dir := by
  obtain ⟨name, -, -, hname, -⟩ := h
  exact ⟨name, hname⟩

/-- The count tells no file, one file and several files apart. -/
theorem countFiles_cases (h : Readable tree dir) :
    countFiles tree extension dir = .ok 0 ∧ ¬Holds tree extension dir ∨
      countFiles tree extension dir = .ok 1 ∧ Holds tree extension dir ∧ ¬HoldsTwo tree extension dir ∨
      ∃ more, countFiles tree extension dir = .ok (more + 2) ∧ HoldsTwo tree extension dir := by
  obtain ⟨place, hplace⟩ := h
  have hnodup := nodup_heldNames tree extension dir place
  simp only [Holds, HoldsTwo, ← mem_heldNames_iff hplace]
  rw [countFiles_eq hplace]
  generalize heldNames tree extension dir place = names at hnodup ⊢
  match names with
  | [] => simp
  | [name] => simp
  | name :: name' :: rest =>
      refine Or.inr (Or.inr ⟨rest.length, rfl, name, name', ?_, by simp, by simp⟩)
      rintro rfl
      simp at hnodup

theorem countFiles_eq_error {fault : Fault} (h : countFiles tree extension dir = .error fault) :
    ∃ e, fault = .io e := by
  unfold countFiles at h
  split at h
  · next e _ => exact ⟨e, (Except.error.inj h).symm⟩
  · cases h

theorem countFiles_of_not_holds (h : Readable tree dir) (hnone : ¬Holds tree extension dir) :
    countFiles tree extension dir = .ok 0 := by
  rcases countFiles_cases h with ⟨hcount, -⟩ | ⟨-, hholds, -⟩ | ⟨-, -, htwo⟩
  · exact hcount
  · exact absurd hholds hnone
  · exact absurd htwo.holds hnone

theorem countFiles_of_holds (h : Readable tree dir) (hholds : Holds tree extension dir)
    (hone : ¬HoldsTwo tree extension dir) : countFiles tree extension dir = .ok 1 := by
  rcases countFiles_cases h with ⟨-, hnone⟩ | ⟨hcount, -, -⟩ | ⟨-, -, htwo⟩
  · exact absurd hholds hnone
  · exact hcount
  · exact absurd htwo hone

theorem countFiles_of_holdsTwo (h : Readable tree dir) (htwo : HoldsTwo tree extension dir) :
    ∃ more, countFiles tree extension dir = .ok (more + 2) := by
  rcases countFiles_cases h with ⟨-, hnone⟩ | ⟨-, -, hone⟩ | ⟨more, hcount, -⟩
  · exact absurd htwo.holds hnone
  · exact absurd htwo hone
  · exact ⟨more, hcount⟩

/-! ### The nearest directory -/

theorem exists_nearest (way : List Path) (h : ∃ dir ∈ way, Holds tree extension dir) :
    ∃ dir, Nearest tree extension way dir := by
  induction way with
  | nil =>
      obtain ⟨dir, hdir, -⟩ := h
      cases hdir
  | cons first way ih =>
      by_cases hfirst : Holds tree extension first
      · exact ⟨first, [], way, rfl, List.forall_mem_nil _, hfirst⟩
      · obtain ⟨dir, hdir, hholds⟩ := h
        have hrest : dir ∈ way := (List.mem_cons.mp hdir).resolve_left fun heq => hfirst (heq ▸ hholds)
        obtain ⟨nearest, lower, upper, rfl, hlower, hnearest⟩ := ih ⟨dir, hrest, hholds⟩
        exact ⟨nearest, first :: lower, upper, rfl, List.forall_mem_cons.mpr ⟨hfirst, hlower⟩, hnearest⟩

theorem Nearest.mem (h : Nearest tree extension way dir) : dir ∈ way := by
  obtain ⟨lower, upper, rfl, -⟩ := h
  exact List.mem_append_right _ List.mem_cons_self

theorem upTo_append (h : dir ∉ lower) : upTo dir (lower ++ dir :: upper) = lower ++ [dir] := by
  have hlower : ∀ other ∈ lower, decide (other ≠ dir) = true := fun other hother =>
    decide_eq_true fun heq => h (heq ▸ hother)
  rw [upTo, List.takeWhile_append_of_pos hlower]
  simp

theorem exists_upTo (h : dir ∈ way) : ∃ upper, way = upTo dir way ++ upper := by
  obtain ⟨lower, upper, rfl, hdir⟩ := List.eq_append_cons_of_mem h
  exact ⟨upper, by rw [upTo_append hdir, List.append_assoc, List.singleton_append]⟩

theorem upTo_subset (h : dir ∈ way) : upTo dir way ⊆ way := by
  obtain ⟨upper, hupper⟩ := exists_upTo h
  intro other hother
  rw [hupper]
  exact List.mem_append_left _ hother

/-- Nothing before a member of the way up to a directory is that directory. -/
theorem not_mem_of_upTo_eq (h : upTo dir way = lower ++ project :: upper) : dir ∉ lower := by
  have hlead : lower <+: way.takeWhile (· ≠ dir) ++ [dir] := ⟨project :: upper, h.symm⟩
  rcases List.prefix_concat_iff.mp hlead with heq | hlead
  · rw [upTo, ← heq] at h
    simp at h
  · intro hdir
    simpa using List.all_eq_true.mp List.all_takeWhile dir (hlead.subset hdir)

/-! ### The search for the solution -/

theorem solutionAmong_cases (tree : FileTree) (start : Path) (way : List Path) :
    (∃ dir ∈ way, solutionAmong tree start way = .ok dir) ∨
      solutionAmong tree start way = .error (.solutionNotFound start) ∨
      (∃ dir, solutionAmong tree start way = .error (.ambiguousSolution dir)) ∨
      ∃ e, solutionAmong tree start way = .error (.io e) := by
  induction way with
  | nil => exact Or.inr (Or.inl rfl)
  | cons first way ih =>
      rw [solutionAmong]
      match hcount : countFiles tree solutionExtension first with
      | .error fault =>
          obtain ⟨e, rfl⟩ := countFiles_eq_error hcount
          exact Or.inr (Or.inr (Or.inr ⟨e, rfl⟩))
      | .ok 0 => exact ih.imp_left fun ⟨dir, hdir, h⟩ => ⟨dir, List.mem_cons_of_mem _ hdir, h⟩
      | .ok 1 => exact Or.inl ⟨first, List.mem_cons_self, rfl⟩
      | .ok (_ + 2) => exact Or.inr (Or.inr (Or.inl ⟨first, rfl⟩))

theorem solutionAmong_append (hreadable : ∀ dir ∈ lower, Readable tree dir)
    (hlower : ∀ dir ∈ lower, ¬Holds tree solutionExtension dir) :
    solutionAmong tree start (lower ++ upper) = solutionAmong tree start upper := by
  induction lower with
  | nil => rfl
  | cons first lower ih =>
      rw [List.forall_mem_cons] at hreadable hlower
      rw [List.cons_append, solutionAmong, countFiles_of_not_holds hreadable.1 hlower.1]
      exact ih hreadable.2 hlower.2

theorem solutionAmong_of_none (hreadable : ∀ dir ∈ way, Readable tree dir)
    (hnone : ∀ dir ∈ way, ¬Holds tree solutionExtension dir) :
    solutionAmong tree start way = .error (.solutionNotFound start) := by
  rw [← way.append_nil, solutionAmong_append hreadable hnone, solutionAmong]

section Nearest

variable (hreadable : ∀ dir ∈ way, Readable tree dir) (h : Nearest tree solutionExtension way dir)

include hreadable h

theorem solutionAmong_of_nearest (hone : ¬HoldsTwo tree solutionExtension dir) :
    solutionAmong tree start way = .ok dir := by
  obtain ⟨lower, upper, rfl, hlower, hholds⟩ := h
  rw [List.forall_mem_append, List.forall_mem_cons] at hreadable
  rw [solutionAmong_append hreadable.1 hlower, solutionAmong, countFiles_of_holds hreadable.2.1 hholds hone]
  rfl

theorem solutionAmong_of_holdsTwo (htwo : HoldsTwo tree solutionExtension dir) :
    solutionAmong tree start way = .error (.ambiguousSolution dir) := by
  obtain ⟨lower, upper, rfl, hlower, -⟩ := h
  rw [List.forall_mem_append, List.forall_mem_cons] at hreadable
  obtain ⟨more, hcount⟩ := countFiles_of_holdsTwo hreadable.2.1 htwo
  rw [solutionAmong_append hreadable.1 hlower, solutionAmong, hcount]
  rfl

/-- The search looks at no directory behind the one that it stops at. -/
theorem solutionAmong_congr
    (hcounts : ∀ other ∈ upTo dir way,
      countFiles tree' solutionExtension other = countFiles tree solutionExtension other) :
    solutionAmong tree' start way = solutionAmong tree start way := by
  obtain ⟨lower, upper, rfl, hlower, hholds⟩ := h
  rw [upTo_append fun hdir => hlower dir hdir hholds] at hcounts
  induction lower with
  | nil =>
      have hcount := hcounts dir (List.mem_singleton_self dir)
      rw [List.nil_append, solutionAmong, solutionAmong, hcount]
      rcases countFiles_cases (hreadable dir List.mem_cons_self) with ⟨-, hnone⟩ | ⟨hone, -⟩ | ⟨more, hmore, -⟩
      · exact absurd hholds hnone
      · rw [hone]
        rfl
      · rw [hmore]
        rfl
  | cons first lower ih =>
      rw [List.cons_append, List.forall_mem_cons] at hreadable hcounts
      rw [List.forall_mem_cons] at hlower
      rw [List.cons_append, solutionAmong, solutionAmong, hcounts.1, ih hreadable.2 hcounts.2 hlower.2]

end Nearest

/-! ### The search for the project -/

theorem projectAmong_cases (tree : FileTree) (start solution : Path) (way : List Path) :
    (∃ dir ∈ way, projectAmong tree start solution way = .ok dir) ∨
      projectAmong tree start solution way = .error (.projectNotFound start solution) ∨
      (∃ dir, projectAmong tree start solution way = .error (.projectOutsideSolution dir solution)) ∨
      (∃ dir, projectAmong tree start solution way = .error (.ambiguousProject dir)) ∨
      ∃ e, projectAmong tree start solution way = .error (.io e) := by
  induction way with
  | nil => exact Or.inr (Or.inl rfl)
  | cons first way ih =>
      rw [projectAmong]
      match hcount : countFiles tree projectExtension first with
      | .error fault =>
          obtain ⟨e, rfl⟩ := countFiles_eq_error hcount
          exact Or.inr (Or.inr (Or.inr (Or.inr ⟨e, rfl⟩)))
      | .ok 0 =>
          by_cases hsame : first.same solution = true
          · exact Or.inr (Or.inl (if_pos hsame))
          · simp only [bind, Except.bind, hsame]
            exact ih.imp_left fun ⟨dir, hdir, h⟩ => ⟨dir, List.mem_cons_of_mem _ hdir, h⟩
      | .ok 1 =>
          by_cases hbelongs : belongsTo solution first = true
          · exact Or.inl ⟨first, List.mem_cons_self, if_pos hbelongs⟩
          · exact Or.inr (Or.inr (Or.inl ⟨first, if_neg hbelongs⟩))
      | .ok (_ + 2) => exact Or.inr (Or.inr (Or.inr (Or.inl ⟨first, rfl⟩)))

theorem projectAmong_append (hreadable : ∀ dir ∈ lower, Readable tree dir)
    (hlower : ∀ dir ∈ lower, ¬Holds tree projectExtension dir ∧ dir.same solution = false) :
    projectAmong tree start solution (lower ++ upper) = projectAmong tree start solution upper := by
  induction lower with
  | nil => rfl
  | cons first lower ih =>
      rw [List.forall_mem_cons] at hreadable hlower
      rw [List.cons_append, projectAmong, countFiles_of_not_holds hreadable.1 hlower.1.1]
      simp only [bind, Except.bind, hlower.1.2]
      exact ih hreadable.2 hlower.2

/-- The search looks at no directory behind the solution directory. -/
theorem projectAmong_congr (hsolution : solution ∈ way)
    (hcounts : ∀ dir ∈ upTo solution way,
      countFiles tree' projectExtension dir = countFiles tree projectExtension dir) :
    projectAmong tree' start solution way = projectAmong tree start solution way := by
  obtain ⟨lower, upper, rfl, hlower⟩ := List.eq_append_cons_of_mem hsolution
  rw [upTo_append hlower] at hcounts
  clear hsolution hlower
  have hsame : solution.same solution = true := beq_self_eq_true _
  induction lower with
  | nil =>
      rw [List.nil_append, projectAmong, projectAmong, hcounts solution (List.mem_singleton_self solution)]
      simp only [hsame, if_true]
  | cons first lower ih =>
      rw [List.cons_append, List.forall_mem_cons] at hcounts
      rw [List.cons_append, projectAmong, projectAmong, hcounts.1, ih hcounts.2]

section Way

variable (hreadable : ∀ dir ∈ way, Readable tree dir) (hsolution : solution ∈ way)
  (hsame : ∀ dir ∈ way, dir.same solution = true ↔ dir = solution)

include hreadable hsolution hsame

theorem projectAmong_of_none (hnone : ∀ dir ∈ upTo solution way, ¬Holds tree projectExtension dir) :
    projectAmong tree start solution way = .error (.projectNotFound start solution) := by
  obtain ⟨lower, upper, rfl, hnew⟩ := List.eq_append_cons_of_mem hsolution
  rw [upTo_append hnew, List.forall_mem_append, List.forall_mem_singleton] at hnone
  rw [List.forall_mem_append, List.forall_mem_cons] at hreadable hsame
  have hlower : ∀ dir ∈ lower, ¬Holds tree projectExtension dir ∧ dir.same solution = false := fun dir hdir =>
    ⟨hnone.1 dir hdir, Bool.eq_false_iff.mpr fun h => hnew ((hsame.1 dir hdir).mp h ▸ hdir)⟩
  rw [projectAmong_append hreadable.1 hlower, projectAmong, countFiles_of_not_holds hreadable.2.1 hnone.2]
  simp only [bind, Except.bind, hsame.2.1.mpr rfl, if_true]

/-- The search gets to the nearest directory with a project file, if it is not behind the solution. -/
theorem projectAmong_eq_of_nearest (start : Path)
    (h : Nearest tree projectExtension (upTo solution way) project) :
    ∃ rest, projectAmong tree start solution way = projectAmong tree start solution (project :: rest) := by
  obtain ⟨lower, upper, heq, hlower, hholds⟩ := h
  obtain ⟨beyond, hbeyond⟩ := exists_upTo hsolution
  have hmem : ∀ dir ∈ lower, dir ∈ way := fun dir hdir =>
    upTo_subset hsolution (heq ▸ List.mem_append_left _ hdir)
  refine ⟨upper ++ beyond, ?_⟩
  rw [hbeyond, heq, List.append_assoc, List.cons_append]
  refine projectAmong_append (fun dir hdir => hreadable dir (hmem dir hdir)) fun dir hdir => ⟨hlower dir hdir, ?_⟩
  refine Bool.eq_false_iff.mpr fun h => not_mem_of_upTo_eq heq ?_
  exact (hsame dir (hmem dir hdir)).mp h ▸ hdir

end Way

/-! ### Discovery -/

/-- Discovery looks for the two directories in turn, and it does no more than look. -/
theorem does_discover (start : Path) (tree : FileTree) :
    (discover start).Does tree (do
      let solution ← findSolution tree start
      let project ← findProject tree start solution
      return ⟨solution, project, start⟩) tree [] := by
  cases hsolution : findSolution tree start with
  | error fault => exact Act.does_of_inspect?_error hsolution
  | ok solution =>
      dsimp only [bind, Except.bind]
      cases hproject : findProject tree start solution with
      | error fault => exact .after_inspect? hsolution (.after_log _ _ _ (Act.does_of_inspect?_error hproject))
      | ok project =>
          exact .after_inspect? hsolution (.after_log _ _ _ (.after_inspect? hproject
            (.after_log _ _ _ (Act.does_pure ..))))

theorem discover_apply (start : Path) (s : Session) :
    (discover start s).1 = do
      let solution ← findSolution s.tree start
      let project ← findProject s.tree start solution
      return ⟨solution, project, start⟩ :=
  (does_discover start s.tree).result_eq rfl

section Ancestors

variable (habsolute : start.isAbsolute = true)

include habsolute

theorem belongsTo_iff (hsolution : solution ∈ start.ancestors) (hproject : project ∈ start.ancestors) :
    belongsTo solution project = true ↔ project = solution ∨ project.parent = some solution := by
  rw [belongsTo, Bool.or_eq_true, Path.same_iff_of_mem_ancestors habsolute hproject hsolution]
  cases hparent : project.parent with
  | none => simp
  | some parent =>
      have hmem := Path.parent_mem_ancestors habsolute hproject hparent
      simp [Path.same_iff_of_mem_ancestors habsolute hmem hsolution]

theorem findProject_eq (hsolution : solution ∈ start.ancestors) :
    findProject tree start solution = projectAmong tree start solution start.ancestors := by
  have hstart : start.startsWith solution = true :=
    List.isPrefixOf_iff_prefix.mpr (Path.components_prefix_of_mem_ancestors habsolute hsolution).2
  rw [findProject, if_pos hstart]

theorem discover_ne_outsideSolution (s : Session) (path solution : Path) :
    (discover start s).1 ≠ .error (.outsideSolution path solution) := by
  rw [discover_apply]
  rcases solutionAmong_cases s.tree start start.ancestors with ⟨found, hmem, hsolution⟩ | hsolution |
    ⟨dir, hsolution⟩ | ⟨e, hsolution⟩
  · rw [findSolution, hsolution]
    simp only [bind, Except.bind]
    rw [findProject_eq habsolute hmem]
    rcases projectAmong_cases s.tree start found start.ancestors with
      ⟨dir, -, hfind⟩ | hfind | ⟨dir, hfind⟩ | ⟨dir, hfind⟩ | ⟨e, hfind⟩ <;> rw [hfind] <;> nofun
  all_goals
    rw [findSolution, hsolution]
    nofun

end Ancestors

/-- The rules leave no case out. -/
theorem exists_framed (tree : FileTree) (start : Path) : ∃ result, Framed tree start result := by
  by_cases hsolution : ∃ dir ∈ start.ancestors, Holds tree solutionExtension dir
  · obtain ⟨solution, hsolution⟩ := exists_nearest _ hsolution
    by_cases hone : HoldsTwo tree solutionExtension solution
    · exact ⟨_, .ambiguousSolution hsolution hone⟩
    by_cases hproject : ∃ dir ∈ upTo solution start.ancestors, Holds tree projectExtension dir
    · obtain ⟨project, hproject⟩ := exists_nearest _ hproject
      by_cases hone' : HoldsTwo tree projectExtension project
      · exact ⟨_, .ambiguousProject hsolution hone hproject hone'⟩
      by_cases hinside : project = solution ∨ project.parent = some solution
      · exact ⟨_, .found hsolution hone hproject hone' hinside⟩
      · exact ⟨_, .projectOutsideSolution hsolution hone hproject hone' (not_or.mp hinside)⟩
    · exact ⟨_, .projectNotFound hsolution hone fun dir hdir hholds => hproject ⟨dir, hdir, hholds⟩⟩
  · exact ⟨_, .solutionNotFound fun dir hdir hholds => hsolution ⟨dir, hdir, hholds⟩⟩

section Discover

variable {s s' : Session} {result : Except Fault Layout} (habsolute : start.isAbsolute = true)
  (hreadable : ∀ dir ∈ start.ancestors, Readable s.tree dir)

include habsolute hreadable

/-- The search stops at the nearest directory with a project file. -/
theorem findProject_of_nearest (hsolution : solution ∈ start.ancestors)
    (h : Nearest s.tree projectExtension (upTo solution start.ancestors) project) :
    ∃ rest, findProject s.tree start solution = projectAmong s.tree start solution (project :: rest) := by
  rw [findProject_eq habsolute hsolution]
  exact projectAmong_eq_of_nearest hreadable hsolution
    (fun dir hdir => Path.same_iff_of_mem_ancestors habsolute hdir hsolution) start h

theorem findProject_of_holdsTwo (hsolution : solution ∈ start.ancestors)
    (h : Nearest s.tree projectExtension (upTo solution start.ancestors) project)
    (htwo : HoldsTwo s.tree projectExtension project) :
    findProject s.tree start solution = .error (.ambiguousProject project) := by
  obtain ⟨rest, hfind⟩ := findProject_of_nearest habsolute hreadable hsolution h
  obtain ⟨more, hcount⟩ := countFiles_of_holdsTwo (hreadable project (upTo_subset hsolution h.mem)) htwo
  rw [hfind, projectAmong, hcount]
  rfl

theorem findProject_of_not_holdsTwo (hsolution : solution ∈ start.ancestors)
    (h : Nearest s.tree projectExtension (upTo solution start.ancestors) project)
    (hone : ¬HoldsTwo s.tree projectExtension project) :
    findProject s.tree start solution =
      if belongsTo solution project then .ok project else .error (.projectOutsideSolution project solution) := by
  obtain ⟨rest, hfind⟩ := findProject_of_nearest habsolute hreadable hsolution h
  have hproject := hreadable project (upTo_subset hsolution h.mem)
  obtain ⟨lower, upper, -, -, hholds⟩ := h
  rw [hfind, projectAmong, countFiles_of_holds hproject hholds hone]
  rfl

theorem discover_of_framed (h : Framed s.tree start result) : (discover start s).1 = result := by
  rw [discover_apply]
  cases h with
  | solutionNotFound hnone =>
      rw [findSolution, solutionAmong_of_none hreadable hnone]
      rfl
  | ambiguousSolution hsolution htwo =>
      rw [findSolution, solutionAmong_of_holdsTwo hreadable hsolution htwo]
      rfl
  | projectNotFound hsolution hone hnone =>
      have hsame := fun dir hdir => Path.same_iff_of_mem_ancestors (q := dir) habsolute hdir hsolution.mem
      have hfind : findProject s.tree start _ = _ := findProject_eq habsolute hsolution.mem
      rw [projectAmong_of_none hreadable hsolution.mem hsame hnone] at hfind
      rw [findSolution, solutionAmong_of_nearest hreadable hsolution hone]
      dsimp only [bind, Except.bind]
      rw [hfind]
  | ambiguousProject hsolution hone hproject htwo =>
      rw [findSolution, solutionAmong_of_nearest hreadable hsolution hone]
      dsimp only [bind, Except.bind]
      rw [findProject_of_holdsTwo habsolute hreadable hsolution.mem hproject htwo]
  | projectOutsideSolution hsolution hone hproject hone' houtside =>
      have hproject' := upTo_subset hsolution.mem hproject.mem
      have hnot := mt (belongsTo_iff habsolute hsolution.mem hproject').mp (not_or.mpr houtside)
      rw [findSolution, solutionAmong_of_nearest hreadable hsolution hone]
      dsimp only [bind, Except.bind]
      rw [findProject_of_not_holdsTwo habsolute hreadable hsolution.mem hproject hone', if_neg hnot]
  | found hsolution hone hproject hone' hinside =>
      have hproject' := upTo_subset hsolution.mem hproject.mem
      have hbelongs := (belongsTo_iff habsolute hsolution.mem hproject').mpr hinside
      rw [findSolution, solutionAmong_of_nearest hreadable hsolution hone]
      dsimp only [bind, Except.bind]
      rw [findProject_of_not_holdsTwo habsolute hreadable hsolution.mem hproject hone', if_pos hbelongs]
      rfl

/-- What lies above the solution directory has no say in the result. -/
theorem discover_congr (hsolution : Nearest s.tree solutionExtension start.ancestors solution)
    (hcounts : ∀ dir ∈ upTo solution start.ancestors, ∀ extension ∈ [solutionExtension, projectExtension],
      countFiles s'.tree extension dir = countFiles s.tree extension dir) :
    (discover start s').1 = (discover start s).1 := by
  have hfind : findSolution s'.tree start = findSolution s.tree start :=
    solutionAmong_congr hreadable hsolution fun dir hdir => hcounts dir hdir _ (by simp)
  rw [discover_apply, discover_apply, hfind]
  by_cases htwo : HoldsTwo s.tree solutionExtension solution
  · rw [findSolution, solutionAmong_of_holdsTwo hreadable hsolution htwo]
    rfl
  · have hproject : findProject s'.tree start solution = findProject s.tree start solution := by
      rw [findProject_eq habsolute hsolution.mem, findProject_eq habsolute hsolution.mem]
      exact projectAmong_congr hsolution.mem fun dir hdir => hcounts dir hdir _ (by simp)
    rw [findSolution, solutionAmong_of_nearest hreadable hsolution htwo]
    dsimp only [bind, Except.bind]
    rw [hproject]

/-- Discovery gives what the rules say and nothing else. It never finds the start outside of the solution,
and no directory above the solution directory is looked at for project files. -/
theorem discover_eq_iff :
    (∀ result, (discover start s).1 = result ↔ Framed s.tree start result) ∧
      (∀ (s' : Session) path solution, (discover start s').1 ≠ .error (.outsideSolution path solution)) ∧
      ∀ solution (s' : Session), Nearest s.tree solutionExtension start.ancestors solution →
        (∀ dir ∈ upTo solution start.ancestors, ∀ extension ∈ [solutionExtension, projectExtension],
          countFiles s'.tree extension dir = countFiles s.tree extension dir) →
        (discover start s').1 = (discover start s).1 := by
  have hframed : Framed s.tree start (discover start s).1 := by
    obtain ⟨result, h⟩ := exists_framed s.tree start
    exact discover_of_framed habsolute hreadable h ▸ h
  exact ⟨fun result => ⟨fun h => h ▸ hframed, discover_of_framed habsolute hreadable⟩,
    discover_ne_outsideSolution habsolute, fun solution s' => discover_congr habsolute hreadable⟩

end Discover

theorem discover_eq_iff_nested :
    let file : Entry := .file (.text []) false 0
    let tree := FileTree.ofEntries [(["r"], .dir), (["r", "a.SLN"], file), (["r", "p"], .dir),
      (["r", "p", "b.vcxproj"], file), (["r", "p", "src"], .dir)]
    let start : Path := ⟨"/r/p/src"⟩
    start.isAbsolute = true ∧ (∀ dir ∈ start.ancestors, Readable tree dir) ∧
      Framed tree start (.ok ⟨⟨"/r"⟩, ⟨"/r/p"⟩, start⟩) := by
  intro file tree start
  have hreadable : ∀ dir ∈ start.ancestors, Readable tree dir := by
    rw [show start.ancestors = [start, ⟨"/r/p"⟩, ⟨"/r"⟩, ⟨"/"⟩] by decide]
    simp only [List.forall_mem_cons, Readable]
    exact ⟨⟨["r", "p", "src"], by rfl⟩, ⟨["r", "p"], by rfl⟩, ⟨["r"], by rfl⟩, ⟨[], by rfl⟩, nofun⟩
  exact ⟨by rfl, hreadable, ((discover_eq_iff (s := ⟨tree, []⟩) (by rfl) hreadable).1 _).mp (by decide +kernel)⟩

end CompileFail.Layout
