import CompileFail.Proofs.CopyFile
import CompileFail.Proofs.JoinedNames
import CompileFail.Proofs.WalkedFiles
import Mathlib.Data.List.DropRight

/-! The directory of a file. A path that leads to a file which is no link goes through the directory that its parent
leads to, and the file stands there under its name. So the name, joined to the parent, leads to the same file, and
this path is not longer than the one before. -/

namespace CompileFail

namespace Text

variable {s t : Text} {xs ys : List Text}

theorem intercalate_sublist (h : xs.Sublist ys) : (['/'].intercalate xs).Sublist (['/'].intercalate ys) := by
  induction h with
  | slnil => exact List.Sublist.refl _
  | @cons xs ys y h ih =>
      cases ys with
      | nil =>
          rw [List.sublist_nil.mp h]
          exact List.nil_sublist _
      | cons first rest =>
          rw [List.intercalate_cons_cons]
          exact ih.trans (List.sublist_append_right _ _)
  | @cons_cons xs ys x h ih =>
      cases xs with
      | nil =>
          cases ys with
          | nil => exact List.Sublist.refl _
          | cons first rest =>
              rw [List.intercalate_cons_cons, List.intercalate_singleton]
              exact (List.sublist_append_left _ _).trans (List.sublist_append_left _ _)
      | cons first rest =>
          cases ys with
          | nil => cases h
          | cons first' rest' =>
              rw [List.intercalate_cons_cons, List.intercalate_cons_cons]
              exact ih.append_left _

end Text

namespace FileTree

variable {tree : FileTree} {place here : Place} {purpose : Purpose} {links : Nat} {name : Text}
  {xs ys pieces : List Text}

/-! ### Following a path piece by piece -/

/-- A place and all places above it are directories. -/
def Grounded (tree : FileTree) (here : Place) : Prop := ∀ place, place <+: here → tree.entry? place = some .dir

theorem grounded_nil : tree.Grounded [] := by
  intro place h
  rw [List.prefix_nil.mp h]
  rfl

theorem Grounded.dir (h : tree.Grounded here) : tree.entry? here = some .dir := h here List.prefix_rfl

theorem Grounded.dropLast (h : tree.Grounded here) : tree.Grounded here.dropLast :=
  fun place hplace => h place (hplace.trans (List.dropLast_prefix here))

theorem Grounded.down (h : tree.Grounded here) (hdir : tree.entry? (here ++ [name]) = some .dir) :
    tree.Grounded (here ++ [name]) := by
  intro place hplace
  rcases List.prefix_concat_iff.mp hplace with rfl | hplace
  · exact hdir
  · exact h place hplace

/-- Names with more names behind them lead to a directory or to a link, or nowhere. -/
theorem descend_append_cases (hpurpose : purpose ≠ .creation) (hground : tree.Grounded here) (hys : ys ≠ []) :
    (∃ mid, tree.descend .target here xs = .at mid ∧ tree.Grounded mid ∧
      tree.descend purpose here (xs ++ ys) = tree.descend purpose mid ys) ∨
    (∃ dir target rest, tree.descend .target here xs = .link dir target rest ∧ tree.Grounded dir ∧
      tree.descend purpose here (xs ++ ys) = .link dir target (rest ++ ys)) ∨
    ∃ e, tree.descend purpose here (xs ++ ys) = .failed e := by
  -- With `ys` behind it no name of `xs` is the last one, so a link is followed whatever the look-up is for.
  have hrest : ∀ rest : List Text, (rest ++ ys).isEmpty = false := fun rest => by simp [hys]
  induction xs generalizing here with
  | nil => exact Or.inl ⟨here, rfl, hground, rfl⟩
  | cons first xs ih =>
      rw [List.cons_append, descend, descend]
      simp only [hpurpose, false_and, if_false, reduceCtorEq, hrest, Bool.false_and, Bool.false_eq_true,
        Purpose.followsLast, Bool.not_true, Bool.and_false]
      by_cases hfiller : first = [] ∨ first = ['.']
      · simp only [if_pos hfiller]
        exact ih hground
      by_cases hup : first = ['.', '.']
      · simp only [if_neg hfiller, if_pos hup]
        exact ih hground.dropLast
      by_cases hlong : first.length > nameLimit
      · simp only [if_neg hfiller, if_neg hup, if_pos hlong]
        exact Or.inr (Or.inr ⟨_, rfl⟩)
      simp only [if_neg hfiller, if_neg hup, if_neg hlong]
      cases hentry : tree.entry? (here ++ [first]) with
      | none => exact Or.inr (Or.inr ⟨_, rfl⟩)
      | some entry =>
          cases entry with
          | dir => exact ih (hground.down hentry)
          | link target => exact Or.inr (Or.inl ⟨here, target, xs, rfl, hground, rfl⟩)
          | file content executable modified => exact Or.inr (Or.inr ⟨_, rfl⟩)
          | device => exact Or.inr (Or.inr ⟨_, rfl⟩)

/-- What comes before some names of a path leads to the directory from which they are followed. -/
theorem exists_follow_split (hpurpose : purpose ≠ .creation) (hground : tree.Grounded here) (hys : ys ≠ [])
    (h : tree.follow purpose links here (xs ++ ys) = .ok place) :
    ∃ mid left, tree.follow .target links here xs = .ok mid ∧ tree.Grounded mid ∧
      tree.follow purpose left mid ys = .ok place := by
  obtain ⟨names, hnames⟩ : ∃ names, names = xs ++ ys := ⟨_, rfl⟩
  rw [← hnames] at h
  -- Each link that is followed puts its own names in front of `ys`, and starts again from a grounded place.
  fun_induction follow tree purpose links here names generalizing xs with
  | case1 links here names place' hat =>
      subst hnames
      rcases descend_append_cases hpurpose hground hys with ⟨mid, hmid, hgroundMid, happend⟩ |
        ⟨dir, target, rest, -, -, happend⟩ | ⟨e, happend⟩
      · refine ⟨mid, links, by rw [follow, hmid], hgroundMid, ?_⟩
        rw [follow, ← happend, hat]
        exact h
      · cases hat.symm.trans happend
      · cases hat.symm.trans happend
  | case2 => cases h
  | case3 => cases h
  | case4 => cases h
  | case5 here names dir target rest hlink links hne ih =>
      subst hnames
      rcases descend_append_cases hpurpose hground hys with ⟨mid, hmid, hgroundMid, happend⟩ |
        ⟨dir', target', rest', hlink', hdir, happend⟩ | ⟨e, happend⟩
      · refine ⟨mid, links + 1, by rw [follow, hmid], hgroundMid, ?_⟩
        rw [follow, ← happend, hlink]
        simp only [hne]
        exact h
      · obtain ⟨rfl, rfl, rfl⟩ := Arrival.link.inj (hlink.symm.trans happend)
        have hstart : tree.Grounded (if target.head? = some '/' then [] else dir) := by
          split
          · exact grounded_nil
          · exact hdir
        obtain ⟨mid, left, hmid, hgroundMid, hrest⟩ := ih hstart h (List.append_assoc _ _ _).symm
        refine ⟨mid, left, ?_, hgroundMid, hrest⟩
        rw [follow, hlink']
        simp only [hne]
        exact hmid
      · cases hlink.symm.trans happend

/-- Fillers stay where they are. -/
theorem follow_fillers (hpurpose : purpose ≠ .creation) (h : ∀ piece ∈ pieces, Path.isFiller piece = true) :
    tree.follow purpose links here pieces = .ok here := by
  have hdescend : tree.descend purpose here pieces = .at here := by
    induction pieces with
    | nil => rfl
    | cons piece pieces ih =>
        rw [List.forall_mem_cons] at h
        have hpiece : piece = [] ∨ piece = ['.'] := by simpa [Path.isFiller] using h.1
        rw [descend, if_neg (fun h => hpurpose h.1), if_pos hpiece]
        exact ih h.2
  rw [follow, hdescend]

/-- A path with a filler at its end leads to a directory. -/
theorem Grounded.of_filler {filler : Text} (hpurpose : purpose ≠ .creation) (hground : tree.Grounded here)
    (hfiller : Path.isFiller filler = true) (h : tree.follow purpose links here (xs ++ [filler]) = .ok place) :
    tree.Grounded place := by
  obtain ⟨mid, left, -, hmid, hrest⟩ := exists_follow_split hpurpose hground (List.cons_ne_nil _ _) h
  rw [follow_fillers hpurpose (List.forall_mem_singleton.mpr hfiller)] at hrest
  exact Except.ok.inj hrest ▸ hmid

/-- A name at the end of a path is looked up in the directory before it. -/
theorem eq_concat_of_follow (hname : name.IsName) (h : tree.follow .itself links here [name] = .ok place) :
    place = here ++ [name] ∧ name.length ≤ nameLimit := by
  by_cases hlong : name.length > nameLimit
  · simp [follow, descend, hname.ne_nil, hname.ne_dot, hname.ne_dots, hlong] at h
  · refine ⟨?_, Nat.le_of_not_lt hlong⟩
    cases hentry : tree.entry? (here ++ [name]) with
    | none => simp_all [follow, descend, hname.ne_nil, hname.ne_dot, hname.ne_dots]
    | some entry =>
        cases entry <;> simp_all [follow, descend, hname.ne_nil, hname.ne_dot, hname.ne_dots, Purpose.followsLast]

theorem follow_file {entry : Entry} (hname : name.IsName) (hlong : name.length ≤ nameLimit)
    (hentry : tree.entry? (here ++ [name]) = some entry) (hfile : entry.isFile = true) :
    tree.follow .target links here [name] = .ok (here ++ [name]) := by
  have hdescend : tree.descend .target here [name] = .at (here ++ [name]) := by
    cases entry with
    | file content executable modified =>
        simp [descend, hname.ne_nil, hname.ne_dot, hname.ne_dots, Nat.not_lt.mpr hlong, hentry]
    | _ => cases hfile
  rw [follow, hdescend]

end FileTree

namespace Path

variable {p q r : Path} {name first second : Text} {rest pieces : List Text}

/-! ### How a path and its parent are written -/

theorem exists_fillers_append (pieces : List Text) :
    ∃ fillers, pieces = dropEndFillers pieces ++ fillers ∧ ∀ piece ∈ fillers, isFiller piece = true := by
  induction pieces using List.reverseRecOn with
  | nil => exact ⟨[], rfl, List.forall_mem_nil _⟩
  | append_singleton pieces last ih =>
      rw [dropEndFillers_concat]
      split
      · next hlast =>
        obtain ⟨fillers, hpieces, hfillers⟩ := ih
        refine ⟨fillers ++ [last], ?_, List.forall_mem_append.mpr ⟨hfillers, List.forall_mem_singleton.mpr hlast⟩⟩
        rw [← List.append_assoc, ← hpieces]
      · exact ⟨[], (List.append_nil _).symm, List.forall_mem_nil _⟩

/-- A path is written as its parent, the file name and fillers between and behind them. -/
theorem exists_gap (hname : p.fileName = some name) (hparent : p.parent = some q) (hq : q.text ≠ []) :
    name.IsName ∧ ∃ gap back, Text.splitOn '/' p.text = q.hostPieces ++ gap ++ name :: back ∧
      (∀ piece ∈ gap, isFiller piece = true) ∧ ∀ piece ∈ back, isFiller piece = true := by
  obtain ⟨before, hbefore, hstands⟩ := exists_standsIn_pieces hname
  obtain rfl : ofParts p.parts.1 (dropEndFillers before) = q := Option.some.inj (hstands.parent.symm.trans hparent)
  have hhost : (ofParts p.parts.1 (dropEndFillers before)).hostPieces = p.parts.1.pieces ++ dropEndFillers before := by
    have hsplit := splitOn_join hq hstands.isName.not_mem
    rw [hstands.isFront.splitOn_join hstands.isName, ← List.append_assoc] at hsplit
    exact (List.append_cancel_right hsplit).symm
  obtain ⟨gap, hgap, hgapFillers⟩ := exists_fillers_append before
  obtain ⟨back, hback, hbackFillers⟩ := exists_fillers_append p.parts.2
  refine ⟨hstands.isName, gap, back, ?_, hgapFillers, hbackFillers⟩
  calc Text.splitOn '/' p.text = p.parts.1.pieces ++ p.parts.2 := (splitOn_eq_parts p).1
    _ = p.parts.1.pieces ++ ((dropEndFillers before ++ gap) ++ [name] ++ back) := by rw [← hgap, ← hbefore, ← hback]
    _ = _ := by simp [hhost]

theorem head?_text_of_splitOn (h : Text.splitOn '/' p.text = first :: second :: rest) :
    p.text.head? = (first ++ ['/']).head? := by
  rw [← Text.intercalate_splitOn p.text, h, List.intercalate_cons_cons]
  cases first <;> rfl

end Path

namespace FileTree

variable {tree : FileTree} {place here : Place} {entry : Entry} {purpose : Purpose} {links : Nat} {name : Text}
  {p q : Path} {xs fillers : List Text}

/-! ### The directory that a file stands in -/

theorem follow_of_append_fillers (hground : tree.Grounded here)
    (hfillers : ∀ piece ∈ fillers, Path.isFiller piece = true)
    (h : tree.follow .target links here (xs ++ fillers) = .ok place) :
    tree.follow .target links here xs = .ok place := by
  by_cases hnil : fillers = []
  · rwa [hnil, List.append_nil] at h
  · obtain ⟨mid, left, hmid, -, hrest⟩ := exists_follow_split (by decide) hground hnil h
    rw [follow_fillers (by decide) hfillers] at hrest
    rwa [← Except.ok.inj hrest]

/-- A path to a file names the file at its very end. -/
theorem exists_steps_of_file (hstart : tree.Grounded tree.workDir) (hname : p.fileName = some name)
    (hparent : p.parent = some q) (hq : q.text ≠ []) (h : tree.locateFor .itself p = .ok place)
    (hentry : tree.entry? place ≠ some .dir) :
    ∃ fillers, steps p.text = q.hostPieces.filter (!·.isEmpty) ++ fillers ++ [name] ∧
      (∀ piece ∈ fillers, Path.isFiller piece = true) ∧ tree.Grounded (tree.startOf p.text) ∧
      tree.follow .itself linkLimit (tree.startOf p.text) (steps p.text) = .ok place := by
  obtain ⟨hisName, gap, back, hsplit, hgap, hback⟩ := Path.exists_gap hname hparent hq
  rw [locateFor_of_not_refused (not_refused_of_locateFor h)] at h
  have hground : tree.Grounded (tree.startOf p.text) := by
    rw [startOf]
    split
    · exact grounded_nil
    · exact hstart
  obtain ⟨tail, hsteps, htail⟩ : ∃ tail, steps p.text =
      q.hostPieces.filter (!·.isEmpty) ++ gap.filter (!·.isEmpty) ++ [name] ++ tail ∧
        ∀ piece ∈ tail, Path.isFiller piece = true := by
    have hkeep : (Text.splitOn '/' p.text).filter (!·.isEmpty) = q.hostPieces.filter (!·.isEmpty) ++
        gap.filter (!·.isEmpty) ++ [name] ++ back.filter (!·.isEmpty) := by
      rw [hsplit, List.filter_append, List.filter_append, List.filter_cons_of_pos (by simp [hisName.ne_nil]),
        List.append_cons]
    have hkeepFillers : ∀ piece ∈ back.filter (!·.isEmpty), Path.isFiller piece = true :=
      fun piece hpiece => hback piece (List.mem_of_mem_filter hpiece)
    simp only [steps, hkeep]
    split
    · refine ⟨back.filter (!·.isEmpty) ++ [[]], (List.append_assoc _ _ _), ?_⟩
      exact List.forall_mem_append.mpr ⟨hkeepFillers, List.forall_mem_singleton.mpr rfl⟩
    · exact ⟨_, rfl, hkeepFillers⟩
  have hnil : tail = [] := by
    rcases List.eq_nil_or_concat tail with hnil | ⟨front, last, rfl⟩
    · exact hnil
    · rw [List.concat_eq_append] at hsteps htail
      rw [hsteps, ← List.append_assoc] at h
      have hlast := htail last (List.mem_append_right _ List.mem_cons_self)
      exact absurd (Grounded.of_filler (by decide) hground hlast h).dir hentry
  rw [hnil, List.append_nil] at hsteps
  exact ⟨_, hsteps, fun piece hpiece => hgap piece (List.mem_of_mem_filter hpiece), hground, h⟩

/-- The name joined to the parent makes a path that starts as before and is not longer. -/
theorem join_parent (tree : FileTree) (hname : p.fileName = some name) (hparent : p.parent = some q)
    (hq : q.text ≠ []) :
    (q.join name).text.Sublist p.text ∧ q.text.Sublist p.text ∧ tree.startOf q.text = tree.startOf p.text := by
  obtain ⟨hisName, gap, back, hsplit, -, -⟩ := Path.exists_gap hname hparent hq
  have hjoined := Path.splitOn_join hq hisName.not_mem
  have hshorter : (q.join name).text.Sublist p.text := by
    rw [← Text.intercalate_splitOn (q.join name).text, ← Text.intercalate_splitOn p.text, hjoined, hsplit,
      List.append_assoc]
    refine Text.intercalate_sublist (List.Sublist.append_left ?_ _)
    exact (List.singleton_sublist.mpr List.mem_cons_self).trans (List.sublist_append_right _ _)
  have hprefix : q.text.Sublist (q.join name).text := by
    rw [Path.text_join hq hisName.not_mem]
    split <;> exact List.sublist_append_left _ _
  refine ⟨hshorter, hprefix.trans hshorter, ?_⟩
  have hhead : (q.join name).text.head? = p.text.head? := by
    obtain ⟨first, host, hhost⟩ := List.exists_cons_of_ne_nil q.hostPieces_ne_nil
    obtain ⟨second, rest, hrest⟩ := List.exists_cons_of_ne_nil (List.append_ne_nil_of_right_ne_nil host
      (List.cons_ne_nil name []))
    obtain ⟨second', rest', hrest'⟩ := List.exists_cons_of_ne_nil (List.append_ne_nil_of_right_ne_nil (host ++ gap)
      (List.cons_ne_nil name back))
    rw [hhost, List.cons_append, hrest] at hjoined
    rw [hhost, List.cons_append, List.cons_append, hrest'] at hsplit
    rw [Path.head?_text_of_splitOn hjoined, Path.head?_text_of_splitOn hsplit]
  have hjoinedStart : tree.startOf (q.join name).text = tree.startOf q.text :=
    startOf_joinAll hq (List.forall_mem_singleton.mpr hisName)
  rw [← hjoinedStart, startOf, startOf, hhead]

/-- The parent of a path to a file leads to the directory of the file, and the name joined to it to the file. -/
theorem exists_find_parent (hstart : tree.Grounded tree.workDir) (hname : p.fileName = some name)
    (hparent : p.parent = some q) (hq : q.text ≠ []) (h : tree.find p false = .ok (place, entry))
    (hfile : entry.isFile = true) :
    ∃ mid, tree.find q true = .ok (mid, .dir) ∧ place = mid ++ [name] ∧
      tree.find (q.join name) true = .ok (place, entry) := by
  obtain ⟨hisName, -⟩ := Path.exists_gap hname hparent hq
  obtain ⟨hlocate, hentry⟩ := find_eq_ok_iff.mp h
  have hnotDir : tree.entry? place ≠ some .dir := by
    intro hdir
    obtain rfl := Option.some.inj (hentry.symm.trans hdir)
    cases hfile
  obtain ⟨fillers, hsteps, hfillers, hground, hfollow⟩ :=
    exists_steps_of_file hstart hname hparent hq hlocate hnotDir
  rw [hsteps] at hfollow
  obtain ⟨mid, left, hmid, hgroundMid, hlast⟩ := exists_follow_split (by decide) hground (List.cons_ne_nil _ _) hfollow
  obtain ⟨rfl, hlong⟩ := eq_concat_of_follow hisName hlast
  obtain ⟨hjoinedText, hparentText, hfirst⟩ := join_parent tree hname hparent hq
  have hhost := follow_of_append_fillers hground hfillers hmid
  have hrefused := not_refused_of_locateFor hlocate
  rw [← hfirst] at hhost
  have hfindParent : tree.locateFor .target q = .ok mid := by
    rw [locateFor_of_not_refused (not_refused_of_sublist hparentText hq hrefused)]
    rcases steps_eq_hostPieces q with hstepsParent | hstepsParent
    · rwa [hstepsParent]
    · obtain ⟨left, hleft⟩ := exists_follow_append hhost hgroundMid.dir
      rw [hstepsParent, hleft]
      exact follow_fillers (by decide) (List.forall_mem_singleton.mpr rfl)
  refine ⟨mid, find_eq_ok_iff.mpr ⟨hfindParent, hgroundMid.dir⟩, rfl, find_eq_ok_iff.mpr ⟨?_, hentry⟩⟩
  obtain ⟨left, hleft⟩ := exists_follow_append hhost hgroundMid.dir
  have hnames : ∀ other ∈ [name], other.IsName := List.forall_mem_singleton.mpr hisName
  have hjoinedRefused : ¬Refused (q.joinAll [name]) :=
    not_refused_of_sublist hjoinedText (Path.join_text_ne_nil hq hisName.not_mem) hrefused
  change tree.locateFor .target (q.joinAll [name]) = _
  rw [locateFor_of_not_refused hjoinedRefused, startOf_joinAll hq hnames,
    steps_joinAll hq hnames (List.cons_ne_nil _ _), hleft]
  exact follow_file hisName hlong hentry hfile

end FileTree

end CompileFail
