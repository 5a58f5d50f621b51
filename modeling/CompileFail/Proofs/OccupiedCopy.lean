import CompileFail.Proofs.LineTrace

/-! Copies at paths where something stands already. The path of a copy is derived and not reserved: a file
that stands there becomes the copy and goes with it, and a directory there keeps the copy from being
written. A link there is followed when the copy is written, but it is the link that is removed; so what it
leads to is the only other place that can change. -/

namespace CompileFail

namespace FileTree

variable {tree tree' : FileTree} {place own : Place} {entry : Entry} {p : Path} {content : Text}

/-! ### Removing -/

theorem remove_of_find (h : tree.find p false = .ok (own, entry)) (hdir : entry ≠ .dir) :
    tree.remove p = .ok (tree.erase own) := by
  cases entry <;> simp_all [remove, bind, Except.bind]

theorem without_of_find (h : tree.find p false = .ok (own, entry)) (hdir : entry ≠ .dir) :
    tree.without p = tree.erase own := by
  rw [without, remove_of_find h hdir]
  rfl

theorem without_of_find_dir (h : tree.find p false = .ok (own, .dir)) : tree.without p = tree := by
  simp [without, remove, h, bind, Except.bind, Except.toOption]

/-- A removal takes away at most what the path itself denotes. -/
theorem locateFor_of_entry?_without_ne (h : FileTree.entry? (tree.without p) place ≠ tree.entry? place) :
    tree.locateFor .itself p = .ok place := by
  cases hfind : tree.find p false with
  | error e =>
      rw [(vacant_of_find hfind).without_eq] at h
      exact absurd rfl h
  | ok found =>
      obtain ⟨own, entry⟩ := found
      obtain ⟨hlocate, hentry⟩ : tree.locateFor .itself p = .ok own ∧ _ := find_eq_ok_iff.mp hfind
      by_cases hdir : entry = .dir
      · rw [without_of_find_dir (hdir ▸ hfind)] at h
        exact absurd rfl h
      · have hne : own ≠ [] := ne_nil_of_entry?_ne_dir (hentry ▸ fun h => hdir (Option.some.inj h))
        rw [without_of_find hfind hdir, entry?_erase hne] at h
        split at h
        · next hplace => rw [hplace, hlocate]
        · exact absurd rfl h

/-! ### Writing -/

/-- A text goes to the place at which a file would be made. A device takes it and stays what it is. -/
theorem write_eq_ok (h : tree.write p content = .ok tree') :
    ∃ target, tree.locateFor .creation p = .ok target ∧ tree.entry? target ≠ some .dir ∧
      (tree.entry? target = some .device ∧ tree' = tree ∨ tree.entry? target ≠ some .device ∧
        ∃ executable, tree' = tree.insert target (.file (.text content) executable tree.clock)) := by
  unfold write store at h
  cases htarget : tree.locateFor .creation p with
  | error e => simp [htarget, bind, Except.bind] at h
  | ok target =>
      simp only [htarget, bind, Except.bind] at h
      refine ⟨target, rfl, ?_⟩
      split at h
      · cases h
      · next hdevice => exact ⟨by simp [hdevice], Or.inl ⟨hdevice, (Except.ok.inj h).symm⟩⟩
      · next executable _ hfile =>
        exact ⟨by simp [hfile], Or.inr ⟨by simp [hfile], executable, (Except.ok.inj h).symm⟩⟩
      · next hdir hdevice _ => exact ⟨hdir, Or.inr ⟨hdevice, false, (Except.ok.inj h).symm⟩⟩

/-- What a path denotes once a file was put somewhere is that file or what it denoted before. -/
theorem descend_insert_file {content : Content} {executable : Bool} {modified : Nat} (hne : place ≠ [])
    (purpose : Purpose) (here : Place) (names : List Text) :
    let filled := tree.insert place (.file content executable modified)
    filled.descend purpose here names = tree.descend purpose here names ∨
      filled.descend purpose here names = .at place ∨
      ∃ error, filled.descend purpose here names = .failed error := by
  intro filled
  have hentry : ∀ other, filled.entry? other = if other = place then _ else tree.entry? other :=
    fun other => entry?_insert hne
  fun_induction descend tree purpose here names <;> grind [descend]

theorem follow_insert_file {content : Content} {executable : Bool} {modified : Nat} (hne : place ≠ [])
    {purpose : Purpose} {links : Nat} {here : Place} {names : List Text}
    (h : (tree.insert place (.file content executable modified)).follow purpose links here names = .ok own) :
    own = place ∨ tree.follow purpose links here names = .ok own := by
  fun_induction follow tree purpose links here names <;>
    grind [follow, descend_insert_file]

theorem locateFor_insert_file {content : Content} {executable : Bool} {modified : Nat} (hne : place ≠ [])
    {purpose : Purpose}
    (h : (tree.insert place (.file content executable modified)).locateFor purpose p = .ok own) :
    own = place ∨ tree.locateFor purpose p = .ok own := by
  unfold locateFor at h ⊢
  split_ifs at h ⊢
  exact follow_insert_file hne h

/-- Only what the path leads to can change when it is written to. -/
theorem locateFor_of_entry?_write_ne (h : tree.write p content = .ok tree')
    (hchanged : tree'.entry? place ≠ tree.entry? place) :
    tree.locateFor .creation p = .ok place ∧ tree.entry? place ∉ [some .dir, some .device] := by
  obtain ⟨target, htarget, hdir, ⟨-, rfl⟩ | ⟨hdevice, executable, rfl⟩⟩ := write_eq_ok h
  · exact absurd rfl hchanged
  · rw [entry?_insert (ne_nil_of_entry?_ne_dir hdir)] at hchanged
    split at hchanged
    · next hplace => exact hplace ▸ ⟨htarget, by simp [hdir, hdevice]⟩
    · exact absurd rfl hchanged

theorem locateFor_of_write (h : tree.write p content = .ok tree') {purpose : Purpose} {q : Path}
    (hplace : tree'.locateFor purpose q = .ok place) :
    tree.locateFor .creation p = .ok place ∧ tree.entry? place ∉ [some .dir, some .device] ∨
      tree.locateFor purpose q = .ok place := by
  obtain ⟨target, htarget, hdir, ⟨-, rfl⟩ | ⟨hdevice, executable, rfl⟩⟩ := write_eq_ok h
  · exact Or.inr hplace
  · rcases locateFor_insert_file (ne_nil_of_entry?_ne_dir hdir) hplace with rfl | hbefore
    · exact Or.inl ⟨htarget, by simp [hdir, hdevice]⟩
    · exact Or.inr hbefore

/-! ### Writing and removing -/

/-- The tree after a text was written at a path, if that is possible, and the path was removed. -/
def retracted (tree : FileTree) (p : Path) (content : Text) : FileTree :=
  ((tree.write p content).toOption.getD tree).without p

theorem retracted_of_write_eq_ok (h : tree.write p content = .ok tree') :
    tree.retracted p content = tree'.without p := by
  rw [retracted, h]
  rfl

theorem retracted_of_write_eq_error {e : OsError} (h : tree.write p content = .error e) :
    tree.retracted p content = tree.without p := by
  rw [retracted, h]
  rfl

/-- A file is made where the path leads, unless a link stands there. -/
theorem eq_of_locateFor_creation (h : tree.locateFor .creation p = .ok place)
    (hfind : tree.find p false = .ok (own, entry)) (hlink : ∀ target, entry ≠ .link target) :
    place = own := by
  obtain ⟨hown, hentry⟩ := find_eq_ok_iff.mp hfind
  rcases locateFor_itself_of_target (locateFor_target_of_creation h) with
    hplace | ⟨other, target, hother, hto⟩
  · exact Except.ok.inj (hplace.symm.trans hown)
  · obtain rfl := Except.ok.inj (hother.symm.trans hown)
    exact absurd (Option.some.inj (hentry.symm.trans hto)) (hlink target)

theorem Vacant.retracted_eq (hvacant : tree.Vacant p) : tree.retracted p content = tree := by
  cases hwrite : tree.write p content with
  | error e => rw [retracted_of_write_eq_error hwrite, hvacant.without_eq]
  | ok written =>
      obtain ⟨place, hplace, rfl⟩ := hvacant.write_eq_ok_iff.mp hwrite
      rw [retracted_of_write_eq_ok hwrite, without, hvacant.remove_insert hplace]
      rfl

theorem retracted_of_find_dir (h : tree.find p false = .ok (own, .dir)) :
    tree.retracted p content = tree := by
  cases hwrite : tree.write p content with
  | error e => rw [retracted_of_write_eq_error hwrite, without_of_find_dir h]
  | ok written =>
      obtain ⟨target, htarget, hdir, -⟩ := write_eq_ok hwrite
      obtain rfl := eq_of_locateFor_creation htarget h (fun _ => nofun)
      exact absurd (find_eq_ok_iff.mp h).2 hdir

/-- A file takes in the text and goes, and a device just goes. -/
theorem retracted_of_find (h : tree.find p false = .ok (own, entry)) (hdir : entry ≠ .dir)
    (hlink : ∀ target, entry ≠ .link target) : tree.retracted p content = tree.erase own := by
  cases hwrite : tree.write p content with
  | error e => rw [retracted_of_write_eq_error hwrite, without_of_find h hdir]
  | ok written =>
      obtain ⟨target, htarget, hnotDir, ⟨-, rfl⟩ | ⟨hdevice, executable, rfl⟩⟩ := write_eq_ok hwrite
      · rw [retracted_of_write_eq_ok hwrite, without_of_find h hdir]
      · have hne := ne_nil_of_entry?_ne_dir hnotDir
        obtain rfl := eq_of_locateFor_creation htarget h hlink
        obtain ⟨hown, hentry⟩ := find_eq_ok_iff.mp h
        obtain ⟨old, mode, modified, rfl⟩ : ∃ old mode modified, entry = .file old mode modified := by
          cases entry <;> simp_all
        have hfilled : Refilled tree (tree.insert target (.file (.text content) executable tree.clock)) :=
          Refilled.insert hne (Or.inr ⟨old, mode, modified, hentry⟩)
        rw [retracted_of_write_eq_ok hwrite, without_of_find (find_eq_ok_iff.mpr
          ⟨hfilled.locateFor_iff.mpr hown, entry?_insert_self hne⟩) nofun, erase_insert_eq]

/-- What the path itself denotes and what it led to are all that can change. -/
theorem entry?_retracted_ne (h : FileTree.entry? (tree.retracted p content) place ≠ tree.entry? place) :
    tree.locateFor .itself p = .ok place ∨
      tree.locateFor .creation p = .ok place ∧ tree.entry? place ∉ [some .dir, some .device] := by
  cases hwrite : tree.write p content with
  | error e =>
      rw [retracted_of_write_eq_error hwrite] at h
      exact Or.inl (locateFor_of_entry?_without_ne h)
  | ok written =>
      by_cases hsame : written.entry? place = tree.entry? place
      · rw [retracted_of_write_eq_ok hwrite, ← hsame] at h
        exact (locateFor_of_write hwrite (locateFor_of_entry?_without_ne h)).symm
      · exact Or.inr (locateFor_of_entry?_write_ne hwrite hsame)

end FileTree

namespace Verifier

variable {v : Verifier} {lines : List Text} {index : Nat} {o : Tag.Occurrence}

theorem tree_verifyLine_of_not_applies (h : ∀ o, ¬v.Applies lines index o) (file : Path) (s : Session) :
    (v.verifyLine file lines index s).2.tree = s.tree := by
  obtain ⟨result, entries, hverify⟩ := verifyLine_of_not_applies h file
  rw [show v.verifyLine file lines index s = _ from hverify v.compiler s, Session.tree_addAll]

/-- With a compiler that leaves the tree as it finds it, a check does what writing and removing do. -/
theorem tree_verifyLine_eq_retracted (h : v.Applies lines index o) (file : Path) (s : Session)
    (hquiet : ∀ written,
      s.tree.write (copyPath file index v.toolName) (Tag.activate lines index o) = .ok written →
      (v.compiler (copyPath file index v.toolName) written).2 = written) :
    (v.verifyLine file lines index s).2.tree =
      s.tree.retracted (copyPath file index v.toolName) (Tag.activate lines index o) := by
  cases hwrite : s.tree.write (copyPath file index v.toolName) (Tag.activate lines index o) with
  | error e =>
      rw [tree_verifyLine_of_write_eq_error h hwrite, FileTree.retracted_of_write_eq_error hwrite]
  | ok written =>
      rw [tree_verifyLine_of_write_eq_ok h hwrite, FileTree.retracted_of_write_eq_ok hwrite,
        hquiet written hwrite]

/-- What a check of a line does to the tree, whatever stands at the path of the copy. If the tag does not
apply, nothing changes. If it does, and the compiler leaves the tree as it finds it, then nothing changes
unless a file, a device or a link stands at the path of the copy. A file or a device there is taken away.
If a link stands there, no other place changes but the one the link leads to, if that is no directory and
no device. What another compiler changes comes on top. -/
theorem tree_verifyLine (v : Verifier) (file : Path) (lines : List Text) (index : Nat) (s : Session) :
    let copy := copyPath file index v.toolName
    let after := (v.verifyLine file lines index s).2.tree
    ((∀ o, ¬v.Applies lines index o) → after = s.tree) ∧
    ∀ o, v.Applies lines index o →
      let write := s.tree.write copy (Tag.activate lines index o)
      ((∀ written, write = .ok written → (v.compiler copy written).2 = written) →
        match s.tree.find copy false with
        | .error _ | .ok (_, .dir) => after = s.tree
        | .ok (own, .file ..) | .ok (own, .device) => after = s.tree.erase own
        | .ok (own, .link _) => ∀ place ≠ own, after.entry? place ≠ s.tree.entry? place →
            s.tree.locateFor .creation copy = .ok place ∧
              s.tree.entry? place ∉ [some .dir, some .device]) ∧
      ∀ written, write = .ok written → ∀ place, after.entry? place ≠ s.tree.entry? place →
        s.tree.locateFor .creation copy = .ok place ∧
            s.tree.entry? place ∉ [some .dir, some .device] ∨
          FileTree.entry? (v.compiler copy written).2 place ≠ written.entry? place ∨
          (v.compiler copy written).2.locateFor .itself copy = .ok place := by
  intro copy after
  refine ⟨fun h => tree_verifyLine_of_not_applies h file s, fun o ho => ⟨fun hquiet => ?_, ?_⟩⟩
  · have hafter : after = s.tree.retracted copy (Tag.activate lines index o) :=
      tree_verifyLine_eq_retracted ho file s hquiet
    split
    · next hfind => rw [hafter, (FileTree.vacant_of_find hfind).retracted_eq]
    · next hfind => rw [hafter, FileTree.retracted_of_find_dir hfind]
    · next hfind => rw [hafter, FileTree.retracted_of_find hfind nofun fun _ => nofun]
    · next hfind => rw [hafter, FileTree.retracted_of_find hfind nofun fun _ => nofun]
    · next own _ hfind =>
      intro place hplace hchanged
      rw [hafter] at hchanged
      refine (FileTree.entry?_retracted_ne hchanged).resolve_left fun hitself => ?_
      exact hplace (Except.ok.inj (hitself.symm.trans (FileTree.find_eq_ok_iff.mp hfind).1))
  · intro written hwrite place hchanged
    have hafter : after = (v.compiler copy written).2.without copy := tree_verifyLine_of_write_eq_ok ho hwrite
    by_cases hwritten : written.entry? place = s.tree.entry? place
    · by_cases hleft : FileTree.entry? (v.compiler copy written).2 place = written.entry? place
      · rw [hafter, ← hwritten, ← hleft] at hchanged
        exact Or.inr (Or.inr (FileTree.locateFor_of_entry?_without_ne hchanged))
      · exact Or.inr (Or.inl hleft)
    · exact Or.inl (FileTree.locateFor_of_entry?_write_ne hwrite hwritten)

theorem tree_verifyLine_of_file :
    let line : Text := "// f(); // [CompilationError]: no f"
    let mine : Entry := .file (.text "mine") false 0
    let occupied := (FileTree.empty.insert ["a.cpp"] (.file (.text line) false 0)).insert ["a.t-1.cpp"] mine
    let v := Verifier.answering (fun _ _ => .ok ⟨true, some 0, []⟩) "Debug" "t"
    v.Applies [line] 0 ⟨none, "no f", "f(); // [CompilationError]: no f"⟩ ∧
      occupied.find (copyPath ⟨"/a.cpp"⟩ 0 "t") false = .ok (["a.t-1.cpp"], mine) ∧
      (v.verifyLine ⟨"/a.cpp"⟩ [line] 0 ⟨occupied, []⟩).2.tree = occupied.erase ["a.t-1.cpp"] := by
  intro line mine occupied v
  have happlies : v.Applies [line] 0 ⟨none, "no f", "f(); // [CompilationError]: no f"⟩ := ⟨by rfl, by rfl⟩
  have hfind : occupied.find (copyPath ⟨"/a.cpp"⟩ 0 "t") false = .ok (["a.t-1.cpp"], mine) := by rfl
  have hafter := ((tree_verifyLine v ⟨"/a.cpp"⟩ [line] 0 ⟨occupied, []⟩).2 _ happlies).1 fun _ _ => rfl
  rw [show copyPath ⟨"/a.cpp"⟩ 0 v.toolName = copyPath ⟨"/a.cpp"⟩ 0 "t" from rfl, hfind] at hafter
  exact ⟨happlies, hfind, hafter⟩

/-- A file at the path of the copy is lost, and a link there costs the file it leads to its text or leaves
a new file behind. -/
theorem verifyLine_takes_over :
    let line : Text := "// f(); // [CompilationError]: no f"
    let mine : Entry := .file (.text "mine") false 0
    let source := FileTree.empty.insert ["a.cpp"] (.file (.text line) false 0)
    let occupied := source.insert ["a.checkce-1.cpp"] mine
    let linked := (source.insert ["b.cpp"] mine).insert ["a.checkce-1.cpp"] (.link "b.cpp")
    let dangling := source.insert ["a.checkce-1.cpp"] (.link "c.cpp")
    let v := Verifier.answering (fun _ _ => .ok ⟨true, some 0, []⟩) "Debug" "checkce"
    let after := fun tree => (v.verifyLine ⟨"/a.cpp"⟩ [line] 0 ⟨tree, []⟩).2.tree
    (occupied.entry? ["a.checkce-1.cpp"] = some mine ∧
        FileTree.entry? (after occupied) ["a.checkce-1.cpp"] = none) ∧
      (linked.entry? ["b.cpp"] = some mine ∧ FileTree.entry? (after linked) ["b.cpp"] ≠ some mine) ∧
      dangling.entry? ["c.cpp"] = none ∧ FileTree.entry? (after dangling) ["c.cpp"] ≠ none := by
  refine ⟨⟨by rfl, by rfl⟩, ⟨by rfl, by decide⟩, by rfl, by decide⟩

end Verifier

end CompileFail
