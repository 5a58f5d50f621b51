import CompileFail.Host
import CompileFail.Proofs.FileLookup

/-! Programs that are run on a host. What is started is a file that may be run: the one at the path that was given, or
the one in the first directory that has the name. A run leaves the directory that the tree is seen from, and one that
could not be started leaves the tree as it was. -/

namespace CompileFail.Host

open FileTree (bind_eq_ok)

/-! ### The search for a program -/

/-- The path of a name in a directory to look in; no name is the present directory. -/
def pathIn (dir name : Text) : Text := if dir.isEmpty then name else dir ++ '/' :: name

/-- After these errors the next directory is tried. -/
def GoesOn (e : OsError) : Prop := e = .permissionDenied ∨ e = .notFound ∨ e = .notADirectory

section Search

variable {α : Type} {runAt : Text → Except OsError α} {name dir : Text} {dirs : List Text} {denied : Bool}
  {last e : OsError} {result : α}

theorem searchIn_of_ok (h : runAt (pathIn dir name) = .ok result) :
    searchIn runAt name (dir :: dirs) denied last = .ok result := by
  rw [searchIn, ← pathIn, h]

theorem searchIn_of_goesOn (h : runAt (pathIn dir name) = .error e) (hgoesOn : GoesOn e) :
    searchIn runAt name (dir :: dirs) denied last =
      searchIn runAt name dirs (denied || e = .permissionDenied) (if e = .permissionDenied then last else e) := by
  rw [searchIn, ← pathIn, h]
  rcases hgoesOn with rfl | rfl | rfl <;> simp

theorem searchIn_of_stop (h : runAt (pathIn dir name) = .error e) (hstop : ¬GoesOn e) :
    searchIn runAt name (dir :: dirs) denied last = .error e := by
  rw [searchIn, ← pathIn, h]
  simp only [GoesOn, not_or] at hstop
  split <;> simp_all

/-- The search finds what runs in the first directory at which it does not go on. -/
theorem searchIn_eq_ok_iff : searchIn runAt name dirs denied last = .ok result ↔
    ∃ before dir after, dirs = before ++ dir :: after ∧ runAt (pathIn dir name) = .ok result ∧
      ∀ other ∈ before, ∃ e, runAt (pathIn other name) = .error e ∧ GoesOn e := by
  constructor
  · intro h
    induction dirs generalizing denied last with
    | nil => cases h
    | cons dir dirs ih =>
        cases hrun : runAt (pathIn dir name) with
        | ok found =>
            rw [searchIn_of_ok hrun] at h
            cases h
            exact ⟨[], dir, dirs, rfl, hrun, by simp⟩
        | error e =>
            by_cases hgoesOn : GoesOn e
            · rw [searchIn_of_goesOn hrun hgoesOn] at h
              obtain ⟨before, found, after, rfl, hfound, hbefore⟩ := ih h
              refine ⟨dir :: before, found, after, rfl, hfound, ?_⟩
              exact List.forall_mem_cons.mpr ⟨⟨e, hrun, hgoesOn⟩, hbefore⟩
            · rw [searchIn_of_stop hrun hgoesOn] at h
              cases h
  · rintro ⟨before, dir, after, rfl, hrun, hbefore⟩
    induction before generalizing denied last with
    | nil => exact searchIn_of_ok hrun
    | cons other before ih =>
        obtain ⟨⟨e, hother, hgoesOn⟩, hbefore⟩ := List.forall_mem_cons.mp hbefore
        rw [List.cons_append, searchIn_of_goesOn hother hgoesOn]
        exact ih hbefore

/-- If it goes on to the end, what it complains of is a file that may not be run, if there was one. -/
theorem searchIn_of_all (h : ∀ dir ∈ dirs, ∃ e, runAt (pathIn dir name) = .error e ∧ GoesOn e)
    (hdenied : ∃ dir ∈ dirs, runAt (pathIn dir name) = .error .permissionDenied) :
    searchIn runAt name dirs denied last = .error .permissionDenied := by
  have hall : ∀ (dirs : List Text) (denied : Bool) (last : OsError),
      (∀ dir ∈ dirs, ∃ e, runAt (pathIn dir name) = .error e ∧ GoesOn e) →
      (denied = true ∨ ∃ dir ∈ dirs, runAt (pathIn dir name) = .error .permissionDenied) →
      searchIn runAt name dirs denied last = .error .permissionDenied := by
    intro dirs
    induction dirs with
    | nil =>
        intro denied last _ hdenied
        rw [searchIn, if_pos (hdenied.resolve_right (by simp))]
    | cons dir dirs ih =>
        intro denied last h hdenied
        obtain ⟨⟨e, he, hgoesOn⟩, h⟩ := List.forall_mem_cons.mp h
        rw [searchIn_of_goesOn he hgoesOn]
        refine ih _ _ h ?_
        rcases hdenied with rfl | ⟨other, hother, hrun⟩
        · exact Or.inl rfl
        · rcases List.mem_cons.mp hother with rfl | hother
          · cases he.symm.trans hrun
            exact Or.inl (by simp)
          · exact Or.inr ⟨other, hother, hrun⟩
  exact hall dirs denied last h (Or.inr hdenied)

end Search

/-! ### Starting -/

/-- Some path leads to a file that may be run. -/
def Runnable (tree : FileTree) (path : Octets) : Prop :=
  ∃ place content modified, tree.find (Octets.path path) true = .ok (place, .file content true modified)

variable {launch : Launcher} {asScript : Bool} {interpreters depth status : Nat} {path : Octets} {p : Process}
  {m m' : Machine} {l : Launch}

theorem runnable_of_runFile (h : runFile launch asScript interpreters path p m = .ok (status, m')) :
    Runnable m.tree path := by
  cases interpreters with
  | zero => cases h
  | succ interpreters =>
      rw [runFile] at h
      obtain ⟨⟨place, entry⟩, hfind, h⟩ := bind_eq_ok h
      split at h
      · next heq =>
        cases heq
        exact ⟨_, _, _, hfind⟩
      · cases h

/-- What is started stands at the path of the program, or under its name in a directory of the search. -/
theorem runnable_of_launch (h : launchWithin depth l m = .ok (status, m')) :
    if l.program.any (· == '/') then Runnable m.tree l.program
    else ∃ dir ∈ Text.splitOn ':' l.search, Runnable m.tree (pathIn dir l.program) := by
  cases depth with
  | zero => cases h
  | succ depth =>
      rw [launchWithin] at h
      split
      · next hpath =>
        rw [if_pos hpath] at h
        exact runnable_of_runFile h
      · next hpath =>
        rw [if_neg hpath] at h
        split at h
        · cases h
        · split at h
          · cases h
          · obtain ⟨before, dir, after, hdirs, hrun, -⟩ := searchIn_eq_ok_iff.mp h
            exact ⟨dir, hdirs ▸ List.mem_append_right _ List.mem_cons_self, runnable_of_runFile hrun⟩

/-! ### Commands -/

variable {present : Environment} {command : Program.Command} {tree : FileTree}

/-- A command is not started and changes nothing, or it is run and the tree is seen from where it was seen before. -/
theorem runner_cases (present : Environment) (command : Program.Command) (tree : FileTree) :
    (∃ e, runner present command tree = (.error e, tree)) ∨
      ∃ output after, runner present command tree = (.ok output, after) ∧ after.workDir = tree.workDir := by
  unfold runner
  dsimp only
  split
  · exact Or.inl ⟨_, rfl⟩
  · exact Or.inr ⟨_, _, rfl, rfl⟩

/-- A tree is the one that a command is run in: seen from the directory of the command, if it has one. -/
def StartsIn (command : Program.Command) (tree inDir : FileTree) : Prop :=
  match command.dir with
  | none => inDir = tree
  | some dir => ∃ place, tree.find dir true = .ok (place, .dir) ∧ inDir = tree.atDir place

/-- Where the program of a command is looked for. -/
def searchOf (present : Environment) (command : Program.Command) : Octets :=
  .ofText (((command.env.getD present).get? "PATH").getD defaultSearch)

/-- What a command has run is a file that may be run, in the directory of the command. -/
theorem runnable_of_runner {output : Program.Output} (h : (runner present command tree).1 = .ok output) :
    ∃ inDir, StartsIn command tree inDir ∧
      if command.program.any (· == '/') then Runnable inDir command.program
      else ∃ dir ∈ Text.splitOn ':' (searchOf present command), Runnable inDir (pathIn dir command.program) := by
  unfold runner at h
  dsimp only at h
  split at h
  · cases h
  · next hresult =>
    split at hresult
    · cases hresult
    · split at hresult
      · next hdir =>
        obtain ⟨inDir, hinDir, hresult⟩ := bind_eq_ok hresult
        obtain ⟨⟨status, m⟩, hlaunch, -⟩ := bind_eq_ok hresult
        cases hinDir
        exact ⟨tree, by rw [StartsIn, hdir], runnable_of_launch hlaunch⟩
      · next dir hdir =>
        obtain ⟨⟨place, entry⟩, hfind, hresult⟩ := bind_eq_ok hresult
        split at hresult
        · next heq =>
          cases heq
          obtain ⟨inDir, hinDir, hresult⟩ := bind_eq_ok hresult
          obtain ⟨⟨status, m⟩, hlaunch, -⟩ := bind_eq_ok hresult
          cases hinDir
          refine ⟨tree.atDir place, ?_, runnable_of_launch hlaunch⟩
          rw [StartsIn, hdir]
          exact ⟨place, hfind, rfl⟩
        · cases hresult

/-- Fewer threads can be started where many can. -/
theorem threads_mono {count count' : Nat} (hle : count' ≤ count) (h : threads present count = none) :
    threads present count' = none := by
  unfold threads at h ⊢
  split
  · next size hsize =>
    simp only [hsize, ite_eq_left_iff] at h
    have hlimit : count * size < addressLimit := by
      by_contra hnot
      exact nomatch h hnot
    exact if_pos (Nat.lt_of_le_of_lt (Nat.mul_le_mul_right size hle) hlimit)
  · rfl

end CompileFail.Host
