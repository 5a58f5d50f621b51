import CompileFail.FileTree.Walk
import CompileFail.Proofs.FollowedDown
import Mathlib.Data.List.Flatten

/-! What a walk comes across. Each directory is opened by its path from the start. If all can be, the walk lists
everything below the start; otherwise it meets the reason in place of what the directory holds, and what it lists is
still part of all that is there. -/

namespace CompileFail

theorem mapM_id_eq_ok_iff {ε α : Type} {visits : List (Except ε α)} {xs : List α} :
    visits.mapM id = .ok xs ↔ visits = xs.map .ok := by
  induction visits generalizing xs with
  | nil => cases xs <;> simp [pure, Except.pure]
  | cons visit visits ih =>
      rw [List.mapM_cons]
      cases visit with
      | error e => cases xs <;> simp [bind, Except.bind]
      | ok x =>
          cases hrest : visits.mapM id with
          | error e =>
              have hnone : ∀ rest : List α, visits ≠ rest.map .ok := fun rest h => by
                cases hrest.symm.trans (ih.mpr h)
              cases xs with
              | nil => simp [bind, Except.bind]
              | cons y ys => simp [bind, Except.bind, hnone]
          | ok rest =>
              obtain rfl := ih.mp hrest
              cases xs <;> simp [bind, Except.bind, pure, Except.pure, List.map_inj_right]

theorem mem_of_mapM_id_eq_error {ε α : Type} {visits : List (Except ε α)} {e : ε}
    (h : visits.mapM id = .error e) : .error e ∈ visits := by
  induction visits with
  | nil => cases h
  | cons visit visits ih =>
      rw [List.mapM_cons] at h
      cases visit with
      | error e' =>
          obtain rfl : e' = e := by simpa [bind, Except.bind] using h
          exact List.mem_cons_self
      | ok x =>
          cases hrest : visits.mapM id with
          | error e' =>
              rw [hrest] at h
              obtain rfl : e' = e := by simpa [bind, Except.bind] using h
              exact List.mem_cons_of_mem _ (ih hrest)
          | ok rest =>
              rw [hrest] at h
              cases h

namespace FileTree

variable {tree : FileTree} {place : Place} {name : Octets} {names : List Octets} {entry : Entry} {p : Path}
  {levels : Nat}

theorem list_of_find (h : tree.find p true = .ok (place, .dir)) : tree.list p = .ok (tree.children place) := by
  rw [list, h]
  rfl

theorem list_of_find_error {e : OsError} (h : tree.find p true = .error e) : tree.list p = .error e := by
  rw [list, h]
  rfl

/-- The path of a directory in a directory leads to it or cannot be followed. -/
theorem find_join_cases (hnamed : tree.Named) (hdir : tree.find p true = .ok (place, .dir))
    (hchild : tree.entry? (place ++ [name]) = some .dir) :
    tree.find (p.join name) true = .ok (place ++ [name], .dir) ∨ ∃ e, tree.find (p.join name) true = .error e := by
  cases hfind : tree.find (p.join name) true with
  | error e => exact Or.inr ⟨e, rfl⟩
  | ok found =>
      have hleads : tree.LeadsTo place [name] .dir := .last hchild
      have hok : (tree.find (p.joinAll [name]) true).isOk = true := by
        change (tree.find (p.join name) true).isOk = true
        rw [hfind]
        rfl
      exact Or.inl (hfind.symm.trans (hleads.find_joinAll hnamed (by simp) hdir hok))

/-- Every directory below a place can be opened by its path. -/
def Opens (tree : FileTree) (place : Place) (p : Path) : Prop :=
  ∀ names, tree.LeadsTo place names .dir → (tree.find (p.joinAll names) true).isOk = true

theorem Opens.find_join (h : tree.Opens place p) (hnamed : tree.Named) (hdir : tree.find p true = .ok (place, .dir))
    (hchild : tree.entry? (place ++ [name]) = some .dir) :
    tree.find (p.join name) true = .ok (place ++ [name], .dir) := by
  rcases find_join_cases hnamed hdir hchild with hfind | ⟨e, hfind⟩
  · exact hfind
  · have hok := h [name] (.last hchild)
    rw [Path.joinAll, List.foldl_cons, List.foldl_nil, hfind] at hok
    cases hok

theorem Opens.down (h : tree.Opens place p) (hchild : tree.entry? (place ++ [name]) = some .dir) :
    tree.Opens (place ++ [name]) (p.join name) :=
  fun names hnames => h (name :: names) (.down hchild hnames)

/-- Where all directories can be opened, the walk comes across all that is below. -/
theorem walkBelow_of_opens (hnamed : tree.Named) (hdir : tree.find p true = .ok (place, .dir))
    (h : tree.Opens place p) (levels : Nat) :
    tree.walkBelow levels p = (tree.below levels place).map fun found => .ok (p.joinAll found.1, found.2) := by
  induction levels generalizing place p with
  | zero => rfl
  | succ levels ih =>
      rw [walkBelow, list_of_find hdir, below, List.map_flatMap]
      refine List.flatMap_congr fun child hchild => ?_
      obtain ⟨name, entry⟩ := child
      dsimp only
      rw [List.map_cons]
      refine congrArg _ ?_
      split
      · next hisDir =>
        obtain rfl := Entry.eq_dir_of_isDir hisDir
        rw [mem_children_iff] at hchild
        rw [ih (h.find_join hnamed hdir hchild) (h.down hchild), List.map_map]
        rfl
      · rfl

/-- The entries that a walk lists are part of all that is below, in the same order. -/
theorem walkBelow_sublist (hnamed : tree.Named) (hdir : tree.find p true = .ok (place, .dir)) (levels : Nat) :
    ((tree.walkBelow levels p).filterMap Except.toOption).Sublist
      ((tree.below levels place).map fun found => (p.joinAll found.1, found.2)) := by
  induction levels generalizing place p with
  | zero => exact List.Sublist.refl _
  | succ levels ih =>
      rw [walkBelow, list_of_find hdir, below, List.map_flatMap]
      dsimp only
      rw [List.filterMap_flatMap]
      refine List.Sublist.flatMap_right _ fun child hchild => ?_
      obtain ⟨name, entry⟩ := child
      dsimp only
      rw [List.map_cons]
      refine List.Sublist.cons_cons (p.join name, entry) ?_
      split
      · next hisDir =>
        obtain rfl := Entry.eq_dir_of_isDir hisDir
        rw [mem_children_iff] at hchild
        rcases find_join_cases hnamed hdir hchild with hfind | ⟨e, hfind⟩
        · rw [List.map_map]
          exact ih hfind
        · cases levels with
          | zero => exact List.nil_sublist _
          | succ levels =>
              rw [walkBelow, list_of_find_error hfind]
              exact List.nil_sublist _
      · exact List.nil_sublist _

/-- What lies in a directory that can be opened is listed. -/
theorem mem_walkBelow_of_leadsTo (hnamed : tree.Named) (hdir : tree.find p true = .ok (place, .dir))
    (h : tree.LeadsTo place names entry) (hlevels : names.length ≤ levels)
    (hopened : (tree.find (p.joinAll names.dropLast) true).isOk = true) :
    .ok (p.joinAll names, entry) ∈ tree.walkBelow levels p := by
  induction h generalizing levels p with
  | @last place name entry h =>
      obtain ⟨levels, rfl⟩ := Nat.exists_eq_add_of_le' hlevels
      rw [List.length_singleton, walkBelow, list_of_find hdir]
      exact List.mem_flatMap.mpr ⟨(name, entry), mem_children_iff.mpr h, List.mem_cons_self⟩
  | @down place name names entry hchild hrest ih =>
      obtain ⟨levels, rfl⟩ := Nat.exists_eq_add_of_le' (Nat.le_of_add_left_le hlevels)
      rw [List.dropLast_cons_of_ne_nil hrest.ne_nil] at hopened
      have hname := hnamed _ _ hchild name (List.mem_append_right _ List.mem_cons_self)
      have hnames : ∀ other ∈ names.dropLast, other.IsName := fun other hother =>
        hrest.isName hnamed other (List.dropLast_subset _ hother)
      have hfind := find_join_of_joinAll hdir hchild hname hnames hopened
      rw [walkBelow, list_of_find hdir]
      refine List.mem_flatMap.mpr ⟨(name, .dir), mem_children_iff.mpr hchild, List.mem_cons_of_mem _ ?_⟩
      exact ih hfind (Nat.le_of_succ_le_succ hlevels) hopened

/-- A directory that cannot be opened keeps the walk from coming through, be it itself or one on the way to it. -/
theorem exists_error_mem_walkBelow (hnamed : tree.Named) (hdir : tree.find p true = .ok (place, .dir))
    (h : tree.LeadsTo place names entry) (hentry : entry = .dir) (hlevels : names.length < levels)
    (hclosed : (tree.find (p.joinAll names) true).isOk = false) : ∃ e, .error e ∈ tree.walkBelow levels p := by
  -- A directory on the way that cannot be opened is met as an error itself.
  have hstep : ∀ {place : Place} {p : Path} {name : Octets} {levels : Nat},
      tree.find p true = .ok (place, .dir) → tree.entry? (place ++ [name]) = some .dir →
      (∃ e, .error e ∈ tree.walkBelow levels (p.join name)) → ∃ e, .error e ∈ tree.walkBelow (levels + 1) p := by
    rintro place p name levels hdir hchild ⟨e, he⟩
    refine ⟨e, ?_⟩
    rw [walkBelow, list_of_find hdir]
    exact List.mem_flatMap.mpr ⟨(name, .dir), mem_children_iff.mpr hchild, List.mem_cons_of_mem _ he⟩
  have hmet : ∀ {q : Path} {e : OsError} {levels : Nat}, tree.find q true = .error e →
      ∃ e, .error e ∈ tree.walkBelow (levels + 1) q := by
    intro q e levels hfind
    rw [walkBelow, list_of_find_error hfind]
    exact ⟨_, List.mem_singleton_self _⟩
  induction h generalizing levels p with
  | @last place name entry h =>
      subst hentry
      obtain ⟨levels, rfl⟩ := Nat.exists_eq_add_of_lt hlevels
      rw [List.length_singleton, Nat.add_comm 1 levels]
      refine hstep hdir h ?_
      rcases find_join_cases hnamed hdir h with hfind | ⟨e, hfind⟩
      · rw [Path.joinAll, List.foldl_cons, List.foldl_nil, hfind] at hclosed
        cases hclosed
      · exact hmet hfind
  | @down place name names entry hchild hrest ih =>
      obtain ⟨levels, rfl⟩ := Nat.exists_eq_add_of_lt hlevels
      suffices hmetBelow : ∃ e, .error e ∈ tree.walkBelow (names.length + 1 + levels) (p.join name) from
        hstep hdir hchild hmetBelow
      rcases find_join_cases hnamed hdir hchild with hfind | ⟨e, hfind⟩
      · exact ih hfind hentry (by omega) hclosed
      · rw [Nat.add_right_comm]
        exact hmet hfind

/-- What a walk meets instead of entries is a directory below that cannot be opened, and why. -/
theorem exists_of_error_mem_walkBelow {e : OsError} (hnamed : tree.Named)
    (hdir : tree.find p true = .ok (place, .dir)) (h : .error e ∈ tree.walkBelow levels p) :
    ∃ names cause, tree.LeadsTo place names .dir ∧ tree.find (p.joinAll names) true = .error cause ∧
      e = .walk (p.joinAll names) cause := by
  induction levels generalizing place p with
  | zero => cases h
  | succ levels ih =>
      rw [walkBelow, list_of_find hdir] at h
      obtain ⟨⟨name, entry⟩, hchild, hmem⟩ := List.mem_flatMap.mp h
      have hbelow := (List.mem_cons.mp hmem).resolve_left (by simp)
      rw [mem_children_iff] at hchild
      split at hbelow
      · next hisDir =>
        obtain rfl := Entry.eq_dir_of_isDir hisDir
        rcases find_join_cases hnamed hdir hchild with hfind | ⟨cause, hfind⟩
        · obtain ⟨names, cause, hleads, hfind, rfl⟩ := ih hfind hbelow
          exact ⟨name :: names, cause, .down hchild hleads, hfind, rfl⟩
        · cases levels with
          | zero => cases hbelow
          | succ levels =>
              rw [walkBelow, list_of_find_error hfind] at hbelow
              obtain rfl := Except.error.inj (List.mem_singleton.mp hbelow)
              exact ⟨[name], cause, .last hchild, hfind, rfl⟩
      · cases hbelow

/-! ### The walk from a path on -/

/-- A walk that starts at a directory, be it through a link, goes through all below; any other one lists the start
alone, or the reason why it cannot be looked at. -/
theorem walk_cases (tree : FileTree) (p : Path) :
    (∃ own place, tree.find p true = .ok (place, .dir) ∧ own.isFile = false ∧
      tree.walk p = .ok (p, own) :: tree.walkBelow (tree.height + 1) p) ∨
    (∀ place, tree.find p true ≠ .ok (place, .dir)) ∧
      ((∃ here entry, tree.find p false = .ok (here, entry) ∧ tree.walk p = [.ok (p, entry)]) ∨
        ∃ e, tree.walk p = [.error (.walk p e)] ∧ ∀ here entry, tree.find p false = .ok (here, entry) →
          entry.isFile = false) := by
  by_cases hdir : ∃ place, tree.find p true = .ok (place, .dir)
  · obtain ⟨place, hdir⟩ := hdir
    obtain ⟨hlocate, hentry⟩ := find_eq_ok_iff.mp hdir
    have hown : ∃ here own, tree.find p false = .ok (here, own) ∧ own.isFile = false := by
      rcases locateFor_itself_of_target hlocate with hitself | ⟨here, target, hitself, hlink⟩
      · exact ⟨place, .dir, find_eq_ok_iff.mpr ⟨hitself, hentry⟩, rfl⟩
      · exact ⟨here, .link target, find_eq_ok_iff.mpr ⟨hitself, hlink⟩, rfl⟩
    obtain ⟨here, own, hfind, hisFile⟩ := hown
    refine Or.inl ⟨own, place, hdir, hisFile, ?_⟩
    cases own <;> simp only [walk, hfind, hdir]
  · refine Or.inr ⟨not_exists.mp hdir, ?_⟩
    cases hfind : tree.find p false with
    | error e =>
        refine Or.inr ⟨e, by simp only [walk, hfind], ?_⟩
        rintro here entry ⟨⟩
    | ok found =>
        obtain ⟨here, entry⟩ := found
        cases hother : tree.find p true with
        | ok found =>
            obtain ⟨place, other⟩ := found
            refine Or.inl ⟨here, entry, rfl, ?_⟩
            cases other with
            | dir => exact absurd ⟨place, hother⟩ hdir
            | _ => cases entry <;> simp only [walk, hfind, hother]
        | error e =>
            cases entry with
            | link target =>
                refine Or.inr ⟨e, by simp only [walk, hfind, hother], ?_⟩
                rintro _ _ ⟨⟩
                rfl
            | _ => exact Or.inl ⟨here, _, rfl, by simp only [walk, hfind, hother]⟩

theorem walk_of_dir (h : tree.find p true = .ok (place, .dir)) :
    ∃ own, own.isFile = false ∧ tree.walk p = .ok (p, own) :: tree.walkBelow (tree.height + 1) p := by
  rcases walk_cases tree p with ⟨own, place', -, hown, hwalk⟩ | ⟨hother, -⟩
  · exact ⟨own, hown, hwalk⟩
  · exact absurd h (hother place)

/-- A walk comes through exactly if all directories below its start can be opened. -/
theorem walkBelow_eq_map_ok_iff (hnamed : tree.Named) (hdir : tree.find p true = .ok (place, .dir))
    {entries : List (Path × Entry)} :
    tree.walkBelow (tree.height + 1) p = entries.map .ok ↔ tree.Opens place p ∧
      entries = (tree.below (tree.height + 1) place).map fun found => (p.joinAll found.1, found.2) := by
  constructor
  · intro hwalk
    have hopens : tree.Opens place p := by
      intro names hleads
      by_contra hclosed
      have hheight := length_le_height hleads.entry?
      rw [List.length_append] at hheight
      have hlevels : names.length < tree.height + 1 := by omega
      obtain ⟨e, he⟩ := exists_error_mem_walkBelow hnamed hdir hleads rfl hlevels (Bool.eq_false_iff.mpr hclosed)
      rw [hwalk] at he
      obtain ⟨found, -, hfound⟩ := List.mem_map.mp he
      cases hfound
    refine ⟨hopens, ?_⟩
    rw [walkBelow_of_opens hnamed hdir hopens] at hwalk
    have hinjective : Function.Injective (Except.ok : Path × Entry → Visit) := fun _ _ => Except.ok.inj
    refine (List.map_injective_iff.mpr hinjective (Eq.trans ?_ hwalk)).symm
    rw [List.map_map]
    rfl
  · rintro ⟨hopens, rfl⟩
    rw [walkBelow_of_opens hnamed hdir hopens, List.map_map]
    rfl

end FileTree

end CompileFail
