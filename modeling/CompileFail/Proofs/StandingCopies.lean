import CompileFail.Proofs.CopyFile

/-! Copies that stand side by side in one tree. As long as their places are different and no path in use
leads through one of them, each copy can be written, read and removed as if it were the only one, and
every other path leads where it leads without them. -/

namespace CompileFail.FileTree

variable {base tree : FileTree} {p copy : Path} {place : Place} {content : Text}

/-! ### Paths that keep clear of each other -/

/-- The place of a copy is not on the way of a path. -/
def ClearOf (base : FileTree) (p copy : Path) : Prop :=
  ∀ place, base.locateFor .creation copy = .ok place → place ∉ base.route p

/-- A path denotes no place: on the way to one it breaks off. -/
def Broken (base : FileTree) (purpose : Purpose) (p : Path) : Prop :=
  ∀ place, base.locateFor purpose p ≠ .ok place

/-- The paths of some files and copies do not get in each other's way: the places of the copies are
different, nothing stands there, and no file is listed there. The path of a copy that denotes no place must
not break off at the place of another copy, since while that one stands it would be told something else. -/
structure Separate (base : FileTree) (files copies : List Path) : Prop where
  vacant : ∀ copy ∈ copies, base.Vacant copy
  distinct : copies.Pairwise fun copy other => ∀ place,
    base.locateFor .creation copy = .ok place → base.locateFor .creation other ≠ .ok place
  unlisted : ∀ file ∈ files, ∀ copy ∈ copies, ∀ place,
    base.locateFor .creation copy = .ok place → base.locateFor .target file ≠ .ok place
  broken_copy : ∀ other ∈ copies, base.Broken .creation other → ∀ copy ∈ copies, base.ClearOf other copy

/-- The same in the form in which it is kept while a run goes on. The path of a loose file may break off
at the place of a copy. -/
structure Apart (base : FileTree) (loose : Path → Prop) (files copies : List Path) : Prop where
  vacant : ∀ copy ∈ copies, base.Vacant copy
  clear : copies.Pairwise fun copy other => base.ClearOf copy other ∧ base.ClearOf other copy
  unlisted : ∀ file ∈ files,
    (loose file ∧ base.Broken .target file) ∨ ∀ copy ∈ copies, base.ClearOf file copy

theorem Broken.readText_eq_error (h : base.Broken .target p) : ∃ e, base.readText p = .error e := by
  cases hlocate : base.locateFor .target p with
  | error e => exact ⟨e, by simp [readText, read, find, locate, hlocate, bind, Except.bind]⟩
  | ok place => exact absurd hlocate (h place)

/-- On the way to a place stand directories alone. -/
theorem dir_of_mem_lookedAt {purpose : Purpose} {here : Place} {names : List Text}
    (h : base.descend purpose here names = .at place) {other : Place}
    (hother : other ∈ base.lookedAt here names) :
    other = place ∨ base.entry? other = some .dir := by
  fun_induction descend base purpose here names <;> grind [lookedAt]

theorem dir_of_mem_route (hlinks : base.NoLinks) {purpose : Purpose}
    (h : base.locateFor purpose p = .ok place)
    {other : Place} (hother : other ∈ base.route p) : other = place ∨ base.entry? other = some .dir := by
  obtain ⟨hrefused, hat⟩ := descend_of_locateFor hlinks h
  rw [route, if_neg hrefused] at hother
  exact dir_of_mem_lookedAt hat hother

/-- A path that denotes a place keeps clear of the vacant places of all copies but one at this place. -/
theorem clearOf_of_locateFor (hlinks : base.NoLinks) {purpose : Purpose}
    (h : base.locateFor purpose p = .ok place)
    (hvacant : base.Vacant copy) (hplace : base.locateFor .creation copy ≠ .ok place) :
    base.ClearOf p copy := by
  intro other hother hroute
  rcases dir_of_mem_route hlinks h hroute with rfl | hdir
  · exact hplace hother
  · cases (hvacant.entry?_eq_none hother).symm.trans hdir

theorem Separate.apart {loose : Path → Prop} {files copies : List Path} (hlinks : base.NoLinks)
    (h : Separate base files copies)
    (hloose : ∀ file ∈ files, loose file ∨ ∀ copy ∈ copies, base.ClearOf file copy) :
    Apart base loose files copies where
  vacant := h.vacant
  clear := by
    have hclear : ∀ copy ∈ copies, ∀ other ∈ copies, (∀ place, base.locateFor .creation copy = .ok place →
        base.locateFor .creation other ≠ .ok place) → base.ClearOf copy other := by
      intro copy hcopy other hother hdistinct
      by_cases hbroken : base.Broken .creation copy
      · exact h.broken_copy copy hcopy hbroken other hother
      · obtain ⟨place, hplace⟩ := not_forall_not.mp hbroken
        exact clearOf_of_locateFor hlinks hplace (h.vacant other hother) (hdistinct place hplace)
    refine h.distinct.imp_of_mem fun {copy other} hcopy hother hdistinct => ⟨?_, ?_⟩
    · exact hclear copy hcopy other hother hdistinct
    · exact hclear other hother copy hcopy fun place hplace hplace' => hdistinct place hplace' hplace
  unlisted := by
    intro file hfile
    by_cases hbroken : base.Broken .target file
    · exact (hloose file hfile).imp_left fun hfileLoose => ⟨hfileLoose, hbroken⟩
    · obtain ⟨place, hplace⟩ := not_forall_not.mp hbroken
      refine Or.inr fun copy hcopy => ?_
      refine clearOf_of_locateFor hlinks hplace (h.vacant copy hcopy) fun hplace' => ?_
      exact h.unlisted file hfile copy hcopy place hplace' hplace

namespace Apart

variable {loose : Path → Prop} {files files' copies copies' : List Path}

theorem of_sublist (h : Apart base loose files copies) (hfiles : files' ⊆ files)
    (hcopies : copies'.Sublist copies) : Apart base loose files' copies' := by
  refine ⟨fun copy hcopy => h.vacant copy (hcopies.subset hcopy), h.clear.sublist hcopies, ?_⟩
  intro file hfile
  exact (h.unlisted file (hfiles hfile)).imp_right fun hclear copy hcopy => hclear copy (hcopies.subset hcopy)

theorem of_perm (h : Apart base loose files copies) (hcopies : copies.Perm copies') :
    Apart base loose files copies' := by
  refine ⟨fun copy hcopy => h.vacant copy (hcopies.mem_iff.mpr hcopy),
    (hcopies.pairwise_iff fun hclear => hclear.symm).mp h.clear, ?_⟩
  intro file hfile
  exact (h.unlisted file hfile).imp_right fun hclear copy hcopy => hclear copy (hcopies.mem_iff.mpr hcopy)

end Apart

/-! ### Trees in which copies stand -/

/-- A tree that differs from a base in nothing but the copies that stand in it. -/
structure Overlay (base : FileTree) (standing : List (Path × Text)) (tree : FileTree) : Prop where
  workDir : tree.workDir = base.workDir
  clock : tree.clock = base.clock
  foreign : tree.foreign = base.foreign
  copies : ∀ copy content, (copy, content) ∈ standing →
    ∃ place, base.locateFor .creation copy = .ok place ∧ tree.entry? place = some (base.written content)
  others : ∀ place, (∀ copy content, (copy, content) ∈ standing → base.locateFor .creation copy ≠ .ok place) →
    tree.entries[place]? = base.entries[place]?

namespace Overlay

variable {standing standing' : List (Path × Text)}

theorem refl (base : FileTree) : Overlay base [] base := by
  refine ⟨rfl, rfl, rfl, ?_, fun _ _ => rfl⟩
  rintro copy content ⟨⟩

theorem eq_base (h : Overlay base [] tree) : tree = base := by
  refine ext_entries (fun place => h.others place ?_) h.workDir h.clock h.foreign
  rintro copy content ⟨⟩

theorem congr (h : Overlay base standing tree) (hstanding : ∀ x, x ∈ standing' ↔ x ∈ standing) :
    Overlay base standing' tree :=
  ⟨h.workDir, h.clock, h.foreign, fun copy content hcopy => h.copies copy content ((hstanding _).mp hcopy),
    fun place hplace => h.others place fun copy content hcopy => hplace copy content
      ((hstanding _).mpr hcopy)⟩

theorem entry?_eq (h : Overlay base standing tree)
    (hplace : ∀ copy content, (copy, content) ∈ standing → base.locateFor .creation copy ≠ .ok place) :
    tree.entry? place = base.entry? place := by
  unfold FileTree.entry?
  rw [h.others place hplace]

theorem grown (h : Overlay base standing tree)
    (hvacant : ∀ copy content, (copy, content) ∈ standing → base.Vacant copy) : Grown base tree := by
  refine ⟨h.workDir, h.clock, fun place => ?_⟩
  by_cases hplace : ∀ copy content, (copy, content) ∈ standing → base.locateFor .creation copy ≠ .ok place
  · exact Or.inl (h.entry?_eq hplace)
  · push Not at hplace
    obtain ⟨copy, content, hcopy, hplace⟩ := hplace
    obtain ⟨place', hplace', hentry⟩ := h.copies copy content hcopy
    obtain rfl := Except.ok.inj (hplace.symm.trans hplace')
    exact Or.inr ⟨(hvacant copy content hcopy).entry?_eq_none hplace, _, _, _, hentry⟩

/-- Where a path breaks off without the copies, it breaks off with them. -/
theorem broken (h : Overlay base standing tree)
    (hvacant : ∀ copy content, (copy, content) ∈ standing → base.Vacant copy) {purpose : Purpose}
    (hbroken : base.Broken purpose p) : tree.Broken purpose p :=
  fun place hplace => hbroken place ((h.grown hvacant).locateFor_iff.mp hplace)

section Clear

variable (h : Overlay base standing tree)
  (hclear : ∀ copy content, (copy, content) ∈ standing → base.ClearOf p copy)

include h hclear

theorem entry?_of_mem_route : ∀ place ∈ base.route p, tree.entry? place = base.entry? place :=
  fun place hroute => h.entry?_eq fun copy content hcopy hplace =>
    hclear copy content hcopy place hplace hroute

end Clear

/-- Writing a copy beside the standing ones. -/
theorem insert (h : Overlay base standing tree) (hplace : base.locateFor .creation copy = .ok place)
    (hfree : base.entry? place = none)
    (hother : ∀ other content, (other, content) ∈ standing → base.locateFor .creation other ≠ .ok place) :
    Overlay base ((copy, content) :: standing) (tree.insert place (base.written content)) := by
  have hne := ne_nil_of_absent hfree
  refine ⟨h.workDir, h.clock, h.foreign, ?_, ?_⟩
  · intro other content' hmem
    rcases List.mem_cons.mp hmem with heq | hmem
    · obtain ⟨rfl, rfl⟩ := Prod.mk.inj heq
      exact ⟨place, hplace, by rw [entry?_insert hne, if_pos rfl]⟩
    · obtain ⟨place', hplace', hentry⟩ := h.copies other content' hmem
      refine ⟨place', hplace', ?_⟩
      rw [entry?_insert hne, if_neg, hentry]
      rintro rfl
      exact hother other content' hmem hplace'
  · intro place' hplace'
    rw [getElem?_entries_insert, if_neg]
    · exact h.others place' fun other content' hmem => hplace' other content' (List.mem_cons_of_mem _ hmem)
    · rintro rfl
      exact hplace' copy content List.mem_cons_self hplace

/-- Removing one of the standing copies. -/
theorem erase (h : Overlay base ((copy, content) :: standing) tree)
    (hplace : base.locateFor .creation copy = .ok place)
    (hfree : base.entry? place = none)
    (hother : ∀ other content, (other, content) ∈ standing → base.locateFor .creation other ≠ .ok place) :
    Overlay base standing (tree.erase place) := by
  have hne := ne_nil_of_absent hfree
  refine ⟨h.workDir, h.clock, h.foreign, ?_, ?_⟩
  · intro other content' hmem
    obtain ⟨place', hplace', hentry⟩ := h.copies other content' (List.mem_cons_of_mem _ hmem)
    refine ⟨place', hplace', ?_⟩
    rw [entry?_erase hne, if_neg, hentry]
    rintro rfl
    exact hother other content' hmem hplace'
  · intro place' hplace'
    rw [getElem?_entries_erase]
    split
    · next heq => rw [heq, ← entry?_of_ne_nil hne, hfree]
    · next hneq =>
      refine h.others place' fun other content' hmem => ?_
      rcases List.mem_cons.mp hmem with heq | hmem
      · obtain ⟨rfl, rfl⟩ := Prod.mk.inj heq
        intro hplace''
        exact hneq (Except.ok.inj (hplace''.symm.trans hplace))
      · exact hplace' other content' hmem

/-! ### Using a copy beside others -/

section Use

variable (hlinks : base.NoLinks) (hvacant : base.Vacant copy)
  (hclear : ∀ other content, (other, content) ∈ standing → base.ClearOf copy other)

include hlinks hclear

theorem locateFor_eq (h : Overlay base standing tree) (purpose : Purpose) :
    tree.locateFor purpose copy = base.locateFor purpose copy :=
  locateFor_congr hlinks h.workDir (h.entry?_of_mem_route hclear) purpose

theorem readText_eq (h : Overlay base standing tree) : tree.readText copy = base.readText copy :=
  readText_congr hlinks h.workDir (h.entry?_of_mem_route hclear)

theorem write_eq_error (h : Overlay base standing tree) {e : OsError}
    (hplace : base.locateFor .creation copy = .error e) (content : Text) :
    tree.write copy content = .error e :=
  write_of_not_located (by rw [h.locateFor_eq hlinks hclear, hplace])

theorem locateFor_ne (hplace : base.locateFor .creation copy = .ok place) :
    ∀ other content, (other, content) ∈ standing → base.locateFor .creation other ≠ .ok place :=
  fun other content hmem hother => hclear other content hmem place hother
    (mem_route_of_locateFor hlinks hplace)

include hvacant

theorem write_eq_ok (h : Overlay base standing tree) (hplace : base.locateFor .creation copy = .ok place)
    (content : Text) :
    ∃ tree', tree.write copy content = .ok tree' ∧ Overlay base ((copy, content) :: standing) tree' := by
  have hfree := hvacant.entry?_eq_none hplace
  have hplace' : tree.locateFor .creation copy = .ok place := by rw [h.locateFor_eq hlinks hclear, hplace]
  have hfree' : tree.entry? place = none := by
    rw [h.entry?_of_mem_route hclear place (mem_route_of_locateFor hlinks hplace), hfree]
  refine ⟨tree.insert place (base.written content), ?_,
    h.insert hplace hfree (locateFor_ne hlinks hclear hplace)⟩
  rw [write_of_locateFor hplace' hfree', written, written, h.clock]

theorem remove_eq_error (h : Overlay base standing tree) :
    ∃ e, base.remove copy = .error e ∧ tree.remove copy = .error e := by
  obtain ⟨e, hfind, hremove⟩ := hvacant.remove_eq
  refine ⟨e, hremove, ?_⟩
  simp only [remove, find_congr hlinks h.workDir (h.entry?_of_mem_route hclear), hfind, bind, Except.bind]

end Use

section Own

variable (h : Overlay base ((copy, content) :: standing) tree) (hvacant : base.Vacant copy)
  (hothers : ∀ other content, (other, content) ∈ standing → base.Vacant other)

include h hvacant hothers

theorem vacant_cons :
    ∀ other content', (other, content') ∈ (copy, content) :: standing → base.Vacant other := by
  intro other content' hmem
  rcases List.mem_cons.mp hmem with heq | hmem
  · obtain ⟨rfl, rfl⟩ := Prod.mk.inj heq
    exact hvacant
  · exact hothers other content' hmem

theorem readText_own : tree.readText copy = .ok content := by
  obtain ⟨place, hplace, hentry⟩ := h.copies copy content List.mem_cons_self
  have hgrown := h.grown (h.vacant_cons hvacant hothers)
  exact readText_of_locateFor (hgrown.locateFor_iff.mpr (locateFor_target_of_creation hplace)) hentry

theorem remove_own (hlinks : base.NoLinks)
    (hclear : ∀ other content, (other, content) ∈ standing → base.ClearOf copy other) :
    ∃ tree', tree.remove copy = .ok tree' ∧ Overlay base standing tree' := by
  obtain ⟨place, hplace, hentry⟩ := h.copies copy content List.mem_cons_self
  have hgrown := h.grown (h.vacant_cons hvacant hothers)
  exact ⟨_, remove_of_locateFor (hgrown.locateFor_iff.mpr (hvacant.locateFor_itself hplace)) hentry,
    h.erase hplace (hvacant.entry?_eq_none hplace) (locateFor_ne hlinks hclear hplace)⟩

end Own

end Overlay

end CompileFail.FileTree
