import CompileFail.Proofs.WalkedEntries

/-! Following a path further down. From a directory on, names are followed as on their own; so the path of what
stands below a directory, if it can be followed at all, leads there, and then so do the paths of all directories on
the way. -/

namespace CompileFail

/-- A path is a prefix of what is put together from it and some names. -/
theorem Path.text_prefix_joinAll {p : Path} {names : List Octets} (hp : p.text ≠ [])
    (hnames : ∀ name ∈ names, name.IsName) : p.text <+: (p.joinAll names).text := by
  induction names generalizing p with
  | nil => exact List.prefix_rfl
  | cons name names ih =>
      rw [List.forall_mem_cons] at hnames
      refine List.IsPrefix.trans ?_ (ih (join_text_ne_nil hp hnames.1.not_mem) hnames.2)
      rw [text_join hp hnames.1.not_mem]
      split <;> exact List.prefix_append _ _

namespace FileTree

variable {tree : FileTree} {place here : Place} {name : Octets} {names : List Octets} {entry : Entry} {p q root : Path}
  {purpose : Purpose}

theorem descend_append {xs ys : List Text} (h : tree.descend .target here xs = .at place)
    (hdir : tree.entry? place = some .dir) :
    tree.descend .target here (xs ++ ys) = tree.descend .target place ys := by
  fun_induction descend tree .target here xs <;> grind [descend]

theorem descend_append_of_link {xs ys rest : List Text} {dir : Place} {target : Text}
    (h : tree.descend .target here xs = .link dir target rest) :
    tree.descend .target here (xs ++ ys) = .link dir target (rest ++ ys) := by
  fun_induction descend tree .target here xs <;> grind [descend, Purpose.followsLast]

/-- From a directory on, the rest of a path is followed as on its own. -/
theorem exists_follow_append {links : Nat} {xs : List Text}
    (h : tree.follow .target links here xs = .ok place) (hdir : tree.entry? place = some .dir) :
    ∃ left, ∀ ys, tree.follow .target links here (xs ++ ys) = tree.follow .target left place ys := by
  fun_induction follow tree .target links here xs with
  | case1 links here xs place' hat =>
      obtain rfl := Except.ok.inj h
      refine ⟨links, fun ys => ?_⟩
      rw [follow, descend_append hat hdir, ← follow.eq_1]
  | case2 => cases h
  | case3 => cases h
  | case4 => cases h
  | case5 here xs dir target rest hlink links hne ih =>
      obtain ⟨left, hleft⟩ := ih h
      refine ⟨left, fun ys => ?_⟩
      rw [follow, descend_append_of_link hlink]
      simp only [hne, ← hleft, List.append_assoc]
      rfl

/-- A final separator makes no difference to a path that can be followed. -/
theorem descend_of_append_nil {xs : List Text} :
    (∀ place, tree.descend .target here (xs ++ [[]]) = .at place → tree.descend .target here xs = .at place) ∧
    ∀ dir target rest, tree.descend .target here (xs ++ [[]]) = .link dir target rest →
      ∃ rest', rest = rest' ++ [[]] ∧ tree.descend .target here xs = .link dir target rest' := by
  have hne : ∀ rest : List Text, (rest ++ [[]]).isEmpty = false := fun rest => by simp
  fun_induction descend tree .target here xs <;> grind [descend, Purpose.followsLast]

theorem follow_of_append_nil {links : Nat} {xs : List Text}
    (h : tree.follow .target links here (xs ++ [[]]) = .ok place) :
    tree.follow .target links here xs = .ok place := by
  obtain ⟨names, hnames⟩ : ∃ names, names = xs ++ [[]] := ⟨_, rfl⟩
  rw [← hnames] at h
  fun_induction follow tree .target links here names generalizing xs with
  | case1 links here names place' hat =>
      subst hnames
      rw [follow, descend_of_append_nil.1 _ hat]
      exact h
  | case2 => cases h
  | case3 => cases h
  | case4 => cases h
  | case5 here names dir target rest hlink links hne ih =>
      subst hnames
      obtain ⟨rest', rfl, hlink'⟩ := descend_of_append_nil.2 _ _ _ hlink
      rw [follow, hlink']
      simp only [hne]
      exact ih h (List.append_assoc _ _ _).symm

/-- Names that lead down to an entry are followed down to it, if they can be followed at all. -/
theorem LeadsTo.descend (h : tree.LeadsTo place names entry) (hnames : ∀ name ∈ names, name.IsName)
    (hlink : ∀ target, entry ≠ .link target) :
    tree.descend .target place names = .at (place ++ names) ∨
      ∃ e, tree.descend .target place names = .failed e := by
  induction h with
  | last h =>
      have hname := hnames _ (List.mem_singleton_self _)
      cases entry <;> grind [FileTree.descend, hname.ne_nil, hname.ne_dot, hname.ne_dots]
  | down h hrest ih =>
      rw [List.forall_mem_cons] at hnames
      have hname := hnames.1
      have hdown := ih hnames.2 hlink
      have hne := hrest.ne_nil
      grind [FileTree.descend, hname.ne_nil, hname.ne_dot, hname.ne_dots]

theorem steps_joinAll (htext : root.text ≠ []) (hnames : ∀ name ∈ names, name.IsName) (hne : names ≠ []) :
    steps (root.joinAll names).text = root.hostPieces.filter (!·.isEmpty) ++ names := by
  have hkeep : names.filter (!·.isEmpty) = names :=
    List.filter_eq_self.mpr fun name hname => by simp [(hnames name hname).ne_nil]
  simp only [steps]
  rw [if_neg (Path.getLast?_text_joinAll_ne htext hnames hne), Path.splitOn_joinAll htext hnames hne,
    List.filter_append, hkeep]

theorem startOf_joinAll (htext : root.text ≠ []) (hnames : ∀ name ∈ names, name.IsName) :
    tree.startOf (root.joinAll names).text = tree.startOf root.text := by
  rw [startOf, startOf, Path.head?_text_joinAll htext hnames]

theorem steps_eq_hostPieces (root : Path) :
    steps root.text = root.hostPieces.filter (!·.isEmpty) ∨
      steps root.text = root.hostPieces.filter (!·.isEmpty) ++ [[]] := by
  simp only [steps]
  split
  · next hlast =>
    rw [Path.splitOn_of_getLast? hlast, List.filter_append]
    exact Or.inr (congrArg (· ++ [[]]) (List.append_nil _))
  · next hlast => exact Or.inl (by rw [Path.hostPieces, if_neg hlast])

/-- A path that is refused leads nowhere. -/
theorem not_refused_of_locateFor (h : tree.locateFor purpose p = .ok place) : ¬Refused p := by
  intro hrefused
  obtain ⟨e, he, -⟩ := locateFor_of_refused hrefused tree purpose
  cases he.symm.trans h

theorem not_refused_of_sublist (h : p.text.Sublist q.text) (hp : p.text ≠ []) (hq : ¬Refused q) : ¬Refused p := by
  rintro (hempty | hnul | hlong)
  · exact hp (List.isEmpty_iff.mp hempty)
  · exact hq (Or.inr (Or.inl (h.subset hnul)))
  · exact hq (Or.inr (Or.inr (hlong.trans_le h.length_le)))

theorem text_ne_nil_of_locateFor (h : tree.locateFor purpose root = .ok place) :
    root.text ≠ [] := by
  intro hroot
  simp [locateFor, hroot] at h

/-- Names behind the path of a directory are followed from the directory on. -/
theorem exists_follow_joinAll (hplace : tree.locateFor .target root = .ok place)
    (hdir : tree.entry? place = some .dir) : ∃ left, ∀ names, names ≠ [] → (∀ name ∈ names, name.IsName) →
      ¬Refused (root.joinAll names) →
        tree.locateFor .target (root.joinAll names) = tree.follow .target left place names := by
  have hroot := text_ne_nil_of_locateFor hplace
  rw [locateFor_of_not_refused (not_refused_of_locateFor hplace)] at hplace
  have hhost : tree.follow .target linkLimit (tree.startOf root.text) (root.hostPieces.filter (!·.isEmpty)) =
      .ok place := by
    rcases steps_eq_hostPieces root with hsteps | hsteps
    · rwa [hsteps] at hplace
    · rw [hsteps] at hplace
      exact follow_of_append_nil hplace
  obtain ⟨left, hleft⟩ := exists_follow_append hhost hdir
  refine ⟨left, fun names hne hnames hrefused => ?_⟩
  rw [locateFor_of_not_refused hrefused, startOf_joinAll hroot hnames, steps_joinAll hroot hnames hne, hleft]

/-- The path of an entry below a directory leads to this entry, if it leads anywhere. -/
theorem LeadsTo.eq_of_locateFor (h : tree.LeadsTo place names entry) (hnames : ∀ name ∈ names, name.IsName)
    (hlink : ∀ target, entry ≠ .link target) (hplace : tree.locateFor .target root = .ok place)
    (hdir : tree.entry? place = some .dir) {q : Place}
    (hq : tree.locateFor .target (root.joinAll names) = .ok q) : q = place ++ names := by
  obtain ⟨left, hleft⟩ := exists_follow_joinAll hplace hdir
  rw [hleft names h.ne_nil hnames (not_refused_of_locateFor hq), follow] at hq
  rcases h.descend hnames hlink with hat | ⟨e, hfailed⟩
  · rw [hat] at hq
    exact (Except.ok.inj hq).symm
  · rw [hfailed] at hq
    cases hq

theorem LeadsTo.find_joinAll (h : tree.LeadsTo place names entry) (hnamed : tree.Named)
    (hlink : ∀ target, entry ≠ .link target) (hroot : tree.find root true = .ok (place, .dir))
    (hfound : (tree.find (root.joinAll names) true).isOk = true) :
    tree.find (root.joinAll names) true = .ok (place ++ names, entry) := by
  obtain ⟨hplace, hdir⟩ := find_eq_ok_iff.mp hroot
  cases hfind : tree.find (root.joinAll names) true with
  | error e =>
      rw [hfind] at hfound
      cases hfound
  | ok found =>
      obtain ⟨q, other⟩ := found
      obtain ⟨hq, hother⟩ := find_eq_ok_iff.mp hfind
      obtain rfl := h.eq_of_locateFor (h.isName hnamed) hlink hplace hdir hq
      rw [Option.some.inj (h.entry?.symm.trans hother)]

/-- If what lies further down can be reached by its path, so can a directory on the way. -/
theorem find_join_of_joinAll (hroot : tree.find root true = .ok (place, .dir))
    (hdir : tree.entry? (place ++ [name]) = some .dir) (hname : name.IsName)
    (hnames : ∀ name ∈ names, name.IsName) (h : (tree.find ((root.join name).joinAll names) true).isOk = true) :
    tree.find (root.join name) true = .ok (place ++ [name], .dir) := by
  obtain ⟨hplace, hroot⟩ := find_eq_ok_iff.mp hroot
  have hall : ∀ other ∈ name :: names, other.IsName := List.forall_mem_cons.mpr ⟨hname, hnames⟩
  have htext := text_ne_nil_of_locateFor hplace
  have hjoined := Path.join_text_ne_nil htext hname.not_mem
  cases hlocate : tree.locateFor .target (root.joinAll (name :: names)) with
  | error e =>
      have hfind : tree.find ((root.join name).joinAll names) true = .error e := by
        rw [find, locate, if_pos rfl]
        exact congrArg (· >>= _) hlocate
      rw [hfind] at h
      cases h
  | ok there =>
      have hrefused := not_refused_of_locateFor hlocate
      obtain ⟨left, hleft⟩ := exists_follow_joinAll hplace hroot
      rw [hleft _ (List.cons_ne_nil _ _) hall hrefused] at hlocate
      have hlong : ¬name.length > nameLimit := by
        intro hlong
        rw [follow, FileTree.descend, if_neg (by simp), if_neg (by simp [hname.ne_nil, hname.ne_dot]),
          if_neg hname.ne_dots, if_pos hlong] at hlocate
        cases hlocate
      have hfirst : ¬Refused (root.joinAll [name]) :=
        not_refused_of_sublist (Path.text_prefix_joinAll hjoined hnames).sublist hjoined hrefused
      refine find_eq_ok_iff.mpr ⟨?_, hdir⟩
      change tree.locateFor .target (root.joinAll [name]) = _
      rw [hleft _ (List.cons_ne_nil _ _) (List.forall_mem_singleton.mpr hname) hfirst, follow, FileTree.descend,
        if_neg (by simp), if_neg (by simp [hname.ne_nil, hname.ne_dot]), if_neg hname.ne_dots, if_neg hlong, hdir]
      rfl

/-- If an entry can be reached by its path, so can the directory that it lies in. -/
theorem LeadsTo.isOk_find_dropLast (h : tree.LeadsTo place names entry) (hnamed : tree.Named)
    (hroot : tree.find root true = .ok (place, .dir))
    (hfound : (tree.find (root.joinAll names) true).isOk = true) :
    (tree.find (root.joinAll names.dropLast) true).isOk = true := by
  induction h generalizing root with
  | last h =>
      rw [List.dropLast_singleton, Path.joinAll, List.foldl_nil, hroot]
      rfl
  | @down place name names entry hchild hrest ih =>
      rw [List.dropLast_cons_of_ne_nil hrest.ne_nil]
      have hname := hnamed _ _ hchild name (List.mem_append_right _ List.mem_cons_self)
      exact ih (find_join_of_joinAll hroot hchild hname (hrest.isName hnamed) hfound) hfound

/-! ### Paths that are long -/

/-- A path that is longer than the system takes leads nowhere. -/
theorem isOk_find_of_long (h : pathLimit < p.text.length) : (tree.find p true).isOk = false := by
  obtain ⟨e, he, -⟩ := locateFor_of_refused (Or.inr (Or.inr h)) tree .target
  rw [find, locate, if_pos rfl, he]
  rfl

theorem steps_slashes (count : Nat) : steps (List.replicate (count + 1) '/') = [[]] := by
  have hsplit : ∀ count, Text.splitOn '/' (List.replicate count '/') = List.replicate (count + 1) [] := by
    intro count
    induction count with
    | zero => rfl
    | succ count ih => rw [List.replicate_succ, Text.splitOn, if_pos rfl, ih, ← List.replicate_succ]
  have hlast : (List.replicate (count + 1) '/').getLast? = some '/' := by
    rw [List.getLast?_replicate, if_neg (Nat.succ_ne_zero _)]
  simp [steps, hsplit, hlast]

/-- However many separators are written, they lead to the root, if they are not too many for the system. -/
theorem find_slashes {count : Nat} (h : count < pathLimit) :
    tree.find ⟨List.replicate (count + 1) '/'⟩ true = .ok ([], .dir) := by
  refine find_eq_ok_iff.mpr ⟨?_, rfl⟩
  have hrefused : ¬Refused ⟨List.replicate (count + 1) '/'⟩ := by
    simp [Refused]
    omega
  rw [locate, if_pos rfl, locateFor_of_not_refused hrefused, steps_slashes]
  rfl

/-- A name behind so many separators makes a path that is too long for the system. -/
theorem isOk_find_join_slashes {count : Nat} (hname : '/' ∉ name) (h : pathLimit < count + 1 + name.length) :
    (tree.find (Path.join ⟨List.replicate (count + 1) '/'⟩ name) true).isOk = false := by
  have hlast : (List.replicate (count + 1) '/').getLast? = some '/' := by
    rw [List.getLast?_replicate, if_neg (Nat.succ_ne_zero _)]
  have htext : (⟨List.replicate (count + 1) '/'⟩ : Path).text ≠ [] := List.cons_ne_nil _ _
  refine isOk_find_of_long ?_
  rw [Path.text_join htext hname, if_pos hlast, List.length_append, List.length_replicate]
  exact h

end FileTree

end CompileFail
