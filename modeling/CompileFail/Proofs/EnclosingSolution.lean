import CompileFail.Proofs.Discovery
import CompileFail.Proofs.JoinedNames
import CompileFail.Proofs.WalkedFiles

/-! The solution directory as a place. The search goes up by the text of the path and takes a `..` away like any
other component; so behind a `..` it comes to a directory that the start does not lie in. Going up by one
component leads to the directory around, or down into one, or leaves the place as it is. So no directory around
the start is passed by before the search has been in it, and what is found is the nearest one with a solution
file if and only if it lies around the start at all. -/

namespace CompileFail

namespace Path

variable {p q dir : Path} {place : Place} {lower upper : List Path}

/-- Where a component leads from a place if there are no links. -/
def Component.next (here : Place) : Component → Place
  | .root => []
  | .here => here
  | .up => here.dropLast
  | .name n => here ++ [n]

/-- The place that an absolute path denotes if there are no links. -/
def resolved (p : Path) : Place := p.components.foldl Component.next []

/-- A directory around the place of a path is this place or lies around the place of the parent. -/
theorem prefix_resolved_of_parent (hp : p.isAbsolute = true) (hparent : p.parent = some q)
    (h : place <+: p.resolved) : place = p.resolved ∨ place <+: q.resolved := by
  obtain ⟨last, hlast⟩ := components_of_parent hp hparent
  have hresolved : p.resolved = Component.next q.resolved last := by
    rw [resolved, hlast, List.foldl_append, resolved]
    rfl
  rw [hresolved] at h ⊢
  cases last with
  | root => exact Or.inl (List.prefix_nil.mp h)
  | here => exact Or.inr h
  | up => exact Or.inr (h.trans (List.dropLast_prefix _))
  | name name => exact List.prefix_concat_iff.mp h

/-- On the way up from a path to one of its ancestors every directory around the path is met, unless it lies
around the ancestor as well. -/
theorem exists_mem_lower (hp : p.isAbsolute = true) (hway : p.ancestors = lower ++ dir :: upper)
    (h : place <+: p.resolved) (hdir : ¬place <+: dir.resolved) : ∃ q ∈ lower, q.resolved = place := by
  induction lower generalizing p with
  | nil =>
      rw [ancestors_eq hp, List.nil_append, List.cons.injEq] at hway
      exact absurd (hway.1 ▸ h) hdir
  | cons first lower ih =>
      rw [ancestors_eq hp, List.cons_append, List.cons.injEq] at hway
      obtain ⟨rfl, hrest⟩ := hway
      cases hparent : p.parent with
      | none => simp [hparent] at hrest
      | some q =>
          rw [hparent] at hrest
          rcases prefix_resolved_of_parent hp hparent h with rfl | habove
          · exact ⟨p, List.mem_cons_self, rfl⟩
          · obtain ⟨r, hr, hplace⟩ := ih (isAbsolute_of_parent hp hparent) hrest habove
            exact ⟨r, List.mem_cons_of_mem _ hr, hplace⟩

theorem prefix_foldl_next {components : List Component} (h : ∀ c ∈ components, ∃ name, c = .name name)
    (here : Place) : here <+: components.foldl Component.next here := by
  induction components generalizing here with
  | nil => exact List.prefix_rfl
  | cons c components ih =>
      rw [List.forall_mem_cons] at h
      obtain ⟨⟨name, rfl⟩, hrest⟩ := h
      exact (List.prefix_append here [name]).trans (ih hrest _)

/-- Without `..` the ancestors of a path lie around it. -/
theorem resolved_prefix_of_mem_ancestors (hp : p.isAbsolute = true) (hup : .up ∉ p.components)
    (hq : q ∈ p.ancestors) : q.resolved <+: p.resolved := by
  obtain ⟨habsolute, rest, hrest⟩ := components_prefix_of_mem_ancestors hp hq
  have hnames : ∀ c ∈ rest, ∃ name, c = .name name := by
    intro c hc
    -- The root is the first component of the ancestor, so none of the others is the root.
    rw [components_eq_pieces hp, components_eq_pieces habsolute, List.cons_append, List.cons.injEq] at hrest
    have hmem : c ∈ ((Text.splitOn '/' p.text).filter (!isFiller ·)).map .ofPiece :=
      hrest.2 ▸ List.mem_append_right _ hc
    obtain ⟨piece, -, rfl⟩ := List.mem_map.mp hmem
    rw [components_eq_pieces hp] at hup
    have hne : Component.ofPiece piece ≠ .up := fun h => hup (List.mem_cons_of_mem _ (h ▸ hmem))
    rw [Component.ofPiece] at hne ⊢
    split at hne
    · exact absurd rfl hne
    · next hdots => exact ⟨piece, if_neg hdots⟩
  rw [resolved, resolved, ← hrest, List.foldl_append]
  exact prefix_foldl_next hnames _

end Path

namespace FileTree

variable {tree : FileTree} {place here : Place} {names : List Text} {name : Text} {p : Path} {entry : Entry}

/-- Names that can be followed without a link lead where they say. -/
theorem eq_foldl_of_descend {purpose : Purpose} (h : tree.descend purpose here names = .at place) :
    place = ((names.filter (!Path.isFiller ·)).map Path.Component.ofPiece).foldl Path.Component.next here := by
  fun_induction descend tree purpose here names <;>
    grind [Path.isFiller, Path.Component.ofPiece, Path.Component.next]

theorem filter_steps (text : Text) :
    (steps text).filter (!Path.isFiller ·) = (Text.splitOn '/' text).filter (!Path.isFiller ·) := by
  have hpieces : ((Text.splitOn '/' text).filter (!·.isEmpty)).filter (!Path.isFiller ·) =
      (Text.splitOn '/' text).filter (!Path.isFiller ·) := by
    rw [List.filter_filter]
    refine List.filter_congr fun piece _ => ?_
    cases piece <;> simp [Path.isFiller]
  simp only [steps]
  split
  · rw [List.filter_append, hpieces]
    exact List.append_nil _
  · exact hpieces

theorem eq_resolved_of_find (hlinks : tree.NoLinks) (hp : p.isAbsolute = true) {followLast : Bool}
    (h : tree.find p followLast = .ok (place, entry)) : place = p.resolved := by
  obtain ⟨-, hat⟩ := descend_of_locateFor hlinks (find_eq_ok_iff.mp h).1
  have hstart : tree.startOf p.text = [] := by
    rw [Path.isAbsolute, beq_iff_eq] at hp
    rw [startOf, if_pos hp]
  rw [eq_foldl_of_descend hat, hstart, filter_steps, Path.resolved, Path.components_eq_pieces hp]
  rfl

end FileTree

namespace Layout

variable {tree : FileTree} {start dir : Path} {home place : Place} {name : Text}

/-- A solution file of that name stands in the directory at a place. -/
def HasSolution (tree : FileTree) (place : Place) (name : Text) : Prop :=
  name.HasExtension solutionExtension ∧
    ∃ content executable modified, tree.entry? (place ++ [name]) = some (.file content executable modified)

def HoldsSolution (tree : FileTree) (place : Place) : Prop := ∃ name, HasSolution tree place name

/-- Of the directories around `home`, itself included, `place` is the nearest one with a solution file. -/
structure NearestAround (tree : FileTree) (home place : Place) : Prop where
  around : place <+: home
  holds : HoldsSolution tree place
  nearest : ∀ other, other <+: home → HoldsSolution tree other → other <+: place

/-! ### What the search has seen -/

theorem exists_of_solutionAmong {way : List Path} (h : solutionAmong tree start way = .ok dir) :
    ∃ lower upper, way = lower ++ dir :: upper ∧
      (∀ other ∈ lower, countFiles tree solutionExtension other = .ok 0) ∧
      countFiles tree solutionExtension dir = .ok 1 := by
  induction way with
  | nil => cases h
  | cons first way ih =>
      rw [solutionAmong] at h
      cases hcount : countFiles tree solutionExtension first with
      | error fault =>
          rw [hcount] at h
          cases h
      | ok count =>
          rw [hcount] at h
          rcases count with _ | _ | more
          · obtain ⟨lower, upper, rfl, hlower, hdir⟩ := ih h
            exact ⟨first :: lower, upper, rfl, List.forall_mem_cons.mpr ⟨hcount, hlower⟩, hdir⟩
          · obtain rfl := Except.ok.inj h
            exact ⟨[], way, rfl, List.forall_mem_nil _, hcount⟩
          · cases h

theorem readable_of_countFiles {extension : Text} {count : Nat} (h : countFiles tree extension dir = .ok count) :
    Readable tree dir := by
  unfold countFiles at h
  split at h
  · cases h
  · next members hlist =>
    rw [FileTree.list] at hlist
    cases hfind : tree.find dir true with
    | error e =>
        rw [hfind] at hlist
        cases hlist
    | ok found =>
        obtain ⟨place, entry⟩ := found
        rw [hfind] at hlist
        cases entry with
        | dir => exact ⟨place, hfind⟩
        | _ => cases hlist

theorem not_holds_of_countFiles {extension : Text} (h : countFiles tree extension dir = .ok 0) :
    ¬Holds tree extension dir := by
  rcases countFiles_cases (readable_of_countFiles h) with ⟨-, hnone⟩ | ⟨hone, -⟩ | ⟨more, hmore, -⟩
  · exact hnone
  · cases h.symm.trans hone
  · cases h.symm.trans hmore

theorem holds_of_countFiles {extension : Text} {count : Nat} (h : countFiles tree extension dir = .ok (count + 1)) :
    Holds tree extension dir := by
  rcases countFiles_cases (readable_of_countFiles h) with ⟨hzero, -⟩ | ⟨-, hholds, -⟩ | ⟨-, -, htwo⟩
  · cases h.symm.trans hzero
  · exact hholds
  · exact htwo.holds

section Seen

variable (hnamed : tree.Named) (hdir : tree.find dir true = .ok (place, .dir))

include hnamed hdir

theorem fileName_join {entry : Entry} (hentry : tree.entry? (place ++ [name]) = some entry) :
    (dir.join name).fileName = some name := by
  have hname : ∀ other ∈ [name], other.IsName :=
    (FileTree.LeadsTo.last hentry).isName hnamed
  exact Path.fileName_joinAll (FileTree.text_ne_nil_of_locateFor (FileTree.find_eq_ok_iff.mp hdir).1) hname rfl

/-- The path of an entry of a directory leads to this entry, if it can be followed. -/
theorem find_join {entry : Entry} (hentry : tree.entry? (place ++ [name]) = some entry)
    (hlink : ∀ target, entry ≠ .link target) (hfound : (tree.find (dir.join name) true).isOk = true) :
    tree.find (dir.join name) true = .ok (place ++ [name], entry) :=
  (FileTree.LeadsTo.last hentry).find_joinAll hnamed hlink hdir hfound

theorem holdsFile_of_hasSolution (h : HasSolution tree place name)
    (hfound : (tree.find (dir.join name) true).isOk = true) :
    HoldsFile tree solutionExtension dir name := by
  obtain ⟨hextension, content, executable, modified, hentry⟩ := h
  refine ⟨⟨place, hdir, hentry ▸ Option.some_ne_none _⟩,
    (Path.hasExtension_iff (fileName_join hnamed hdir hentry)).mpr hextension, ?_⟩
  rw [FileTree.isFile, find_join hnamed hdir hentry (by simp) hfound]
  rfl

theorem hasSolution_of_holdsFile (hlinks : tree.NoLinks) (h : HoldsFile tree solutionExtension dir name) :
    HasSolution tree place name := by
  obtain ⟨⟨place', hdir', hlisted⟩, hextension, hfile⟩ := h
  obtain ⟨rfl, -⟩ := Prod.mk.inj (Except.ok.inj (hdir.symm.trans hdir'))
  obtain ⟨entry, hentry⟩ := Option.ne_none_iff_exists'.mp hlisted
  refine ⟨(Path.hasExtension_iff (fileName_join hnamed hdir hentry)).mp hextension, ?_⟩
  have hlink : ∀ target, entry ≠ .link target := fun target heq => hlinks _ target (heq ▸ hentry)
  have hfound : (tree.find (dir.join name) true).isOk = true := by
    rw [FileTree.isFile] at hfile
    split at hfile
    · next hfind => rw [hfind]; rfl
    · cases hfile
  rw [FileTree.isFile, find_join hnamed hdir hentry hlink hfound] at hfile
  cases entry with
  | file content executable modified => exact ⟨content, executable, modified, hentry⟩
  | _ => cases hfile

end Seen

/-- What is found is a directory with a solution file, and every directory around the start with a solution file
lies around it. So it is the nearest of them if and only if it lies around the start itself, which it does
whenever the path of the start is written without `..`. -/
theorem nearestAround_iff_of_findSolution (hlinks : tree.NoLinks) (hnamed : tree.Named)
    (habsolute : start.isAbsolute = true) (hhome : tree.find start true = .ok (home, .dir))
    (hreach : ∀ upper ∈ start.ancestors, ∀ name, HasSolution tree upper.resolved name →
      (tree.find (upper.join name) true).isOk = true)
    (h : findSolution tree start = .ok dir) :
    ∃ place, tree.find dir true = .ok (place, .dir) ∧ HoldsSolution tree place ∧
      (∀ other, other <+: home → HoldsSolution tree other → other <+: place) ∧
      (NearestAround tree home place ↔ place <+: home) ∧
      (.up ∉ start.components → NearestAround tree home place) := by
  obtain rfl := FileTree.eq_resolved_of_find hlinks habsolute hhome
  obtain ⟨lower, upper, hway, hlower, hdir⟩ := exists_of_solutionAmong h
  have hmem : dir ∈ start.ancestors := hway ▸ List.mem_append_right _ List.mem_cons_self
  obtain ⟨place, hplace⟩ := readable_of_countFiles hdir
  obtain rfl := FileTree.eq_resolved_of_find hlinks
    (Path.components_prefix_of_mem_ancestors habsolute hmem).1 hplace
  have hholds : HoldsSolution tree dir.resolved := by
    obtain ⟨name, hname⟩ := holds_of_countFiles hdir
    exact ⟨name, hasSolution_of_holdsFile hnamed hplace hlinks hname⟩
  have hnearest : ∀ other, other <+: start.resolved → HoldsSolution tree other → other <+: dir.resolved := by
    rintro other haround ⟨name, hname⟩
    by_contra hnot
    obtain ⟨q, hq, rfl⟩ := Path.exists_mem_lower habsolute hway haround hnot
    have hqmem : q ∈ start.ancestors := hway ▸ List.mem_append_left _ hq
    obtain ⟨seen, hseen⟩ := readable_of_countFiles (hlower q hq)
    obtain rfl := FileTree.eq_resolved_of_find hlinks
      (Path.components_prefix_of_mem_ancestors habsolute hqmem).1 hseen
    exact not_holds_of_countFiles (hlower q hq)
      ⟨name, holdsFile_of_hasSolution hnamed hseen hname (hreach q hqmem name hname)⟩
  have hiff : NearestAround tree start.resolved dir.resolved ↔ dir.resolved <+: start.resolved :=
    ⟨NearestAround.around, fun haround => ⟨haround, hholds, hnearest⟩⟩
  exact ⟨_, hplace, hholds, hnearest, hiff, fun hup =>
    hiff.mpr (Path.resolved_prefix_of_mem_ancestors habsolute hup hmem)⟩

/-- Behind a `..` that leaves a directory without a solution file the search still finds the nearest one. -/
theorem nearestAround_iff_of_findSolution_sibling :
    let file : Entry := .file (.text []) false 0
    let tree := FileTree.ofEntries [(["r"], .dir), (["r", "All.SLN"], file), (["r", "a"], .dir), (["r", "b"], .dir)]
    let start : Path := ⟨"/r/a/../b"⟩
    tree.NoLinks ∧ tree.Named ∧ start.isAbsolute = true ∧ tree.find start true = .ok (["r", "b"], .dir) ∧
      findSolution tree start = .ok ⟨"/r/a/.."⟩ ∧ NearestAround tree ["r", "b"] ["r"] := by
  intro file tree start
  have hlinks : tree.NoLinks := FileTree.noLinks_ofEntries (by decide)
  have hnamed : tree.Named := FileTree.named_ofEntries (by decide)
  have hhome : tree.find start true = .ok (["r", "b"], .dir) := by rfl
  have hfind : findSolution tree start = .ok ⟨"/r/a/.."⟩ := by decide +kernel
  have hreach : ∀ upper ∈ start.ancestors, ∀ name, HasSolution tree upper.resolved name →
      (tree.find (upper.join name) true).isOk = true := by
    have hall : ∀ upper ∈ start.ancestors, ∀ child ∈ tree.children upper.resolved,
        (tree.find (upper.join child.1) true).isOk = true := by decide +kernel
    rintro upper hupper name ⟨-, content, executable, modified, hentry⟩
    exact hall upper hupper _ (FileTree.mem_children_iff.mpr hentry)
  obtain ⟨place, hplace, -, -, hiff, -⟩ :=
    nearestAround_iff_of_findSolution hlinks hnamed (by rfl) hhome hreach hfind
  obtain rfl : place = ["r"] := by
    have heq : tree.find ⟨"/r/a/.."⟩ true = .ok (["r"], .dir) := by rfl
    exact (Prod.mk.inj (Except.ok.inj (hplace.symm.trans heq))).1
  exact ⟨hlinks, hnamed, by rfl, hhome, hfind, hiff.mpr (by decide)⟩

/-- The search takes the solution of a directory that the path leads into and out of again. -/
theorem findSolution_strays :
    let file : Entry := .file (.text []) false 0
    let tree := FileTree.ofEntries [(["a"], .dir), (["a", "a.sln"], file), (["b"], .dir)]
    let start : Path := ⟨"/a/../b"⟩
    tree.NoLinks ∧ tree.Named ∧ start.isAbsolute = true ∧ tree.find start true = .ok (["b"], .dir) ∧
      findSolution tree start = .ok ⟨"/a"⟩ ∧ tree.find ⟨"/a"⟩ true = .ok (["a"], .dir) ∧
      ¬NearestAround tree ["b"] ["a"] := by
  intro file tree start
  have hlinks : tree.NoLinks := FileTree.noLinks_ofEntries (by decide)
  refine ⟨hlinks, FileTree.named_ofEntries (by decide), by rfl, by rfl, by decide +kernel, by rfl, ?_⟩
  intro h
  exact absurd h.around (by decide)

end Layout

end CompileFail
