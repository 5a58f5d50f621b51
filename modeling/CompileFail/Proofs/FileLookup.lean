import CompileFail.FileTree.Access
import Mathlib.Data.List.Basic

/-! How paths find their places when files come and go. A path that leads to a place still leads there
when files are added where nothing stood or are written anew, since none of these is on its way. A path
that leads nowhere gives the same answer as long as the places that were looked at on the way are
unchanged. -/

namespace CompileFail.FileTree

variable {tree tree' : FileTree} {place other : Place} {entry : Entry}

theorem getElem?_entries_insert :
    (tree.insert place entry).entries[other]? =
      if other = place then some entry else tree.entries[other]? := by
  simp only [insert, Std.ExtTreeMap.getElem?_insert, Std.compare_eq_iff_eq, @eq_comm _ other]

theorem getElem?_entries_erase :
    (tree.erase place).entries[other]? = if other = place then none else tree.entries[other]? := by
  simp only [erase, Std.ExtTreeMap.getElem?_erase, Std.compare_eq_iff_eq, @eq_comm _ other]

theorem entry?_of_ne_nil (h : place ≠ []) : tree.entry? place = tree.entries[place]? := by
  unfold entry?
  simp [h]

theorem entry?_nil : tree.entry? [] = some .dir := rfl

theorem ne_nil_of_absent (h : tree.entry? place = none) : place ≠ [] := by
  rintro rfl
  cases h

theorem ne_nil_of_entry?_ne_dir (h : tree.entry? place ≠ some .dir) : place ≠ [] := by
  rintro rfl
  exact h rfl

theorem entry?_insert (hne : place ≠ []) :
    FileTree.entry? (tree.insert place entry) other =
      if other = place then some entry else tree.entry? other := by
  rcases eq_or_ne other [] with rfl | hother
  · rw [if_neg hne.symm, entry?_nil, entry?_nil]
  · rw [entry?_of_ne_nil hother, getElem?_entries_insert, entry?_of_ne_nil hother]

theorem entry?_insert_self (hne : place ≠ []) :
    FileTree.entry? (tree.insert place entry) place = some entry := by
  rw [entry?_insert hne, if_pos rfl]

theorem entry?_erase (hne : place ≠ []) :
    FileTree.entry? (tree.erase place) other = if other = place then none else tree.entry? other := by
  rcases eq_or_ne other [] with rfl | hother
  · rw [if_neg hne.symm, entry?_nil, entry?_nil]
  · rw [entry?_of_ne_nil hother, getElem?_entries_erase, entry?_of_ne_nil hother]

theorem ext_entries (hentries : ∀ place : Place, tree.entries[place]? = tree'.entries[place]?)
    (hworkDir : tree.workDir = tree'.workDir) (hclock : tree.clock = tree'.clock)
    (hforeign : tree.foreign = tree'.foreign) : tree = tree' := by
  cases tree
  cases tree'
  obtain rfl := Std.ExtTreeMap.ext_getElem? hentries
  simp_all

theorem erase_insert_eq : (tree.insert place entry).erase place = tree.erase place := by
  refine ext_entries (fun other => ?_) rfl rfl rfl
  rw [getElem?_entries_erase, getElem?_entries_erase, getElem?_entries_insert]
  split <;> rfl

theorem erase_insert (h : tree.entry? place = none) : (tree.insert place entry).erase place = tree := by
  refine ext_entries (fun other => ?_) rfl rfl rfl
  rw [getElem?_entries_erase, getElem?_entries_insert]
  split
  · next hother => rw [hother, ← entry?_of_ne_nil (ne_nil_of_absent h), h]
  · rfl

/-! ### Purposes of a look-up -/

/-- Looking for what stands at the last name differs from looking for what it leads to only if a link
stands there. -/
theorem descend_itself (here : Place) (names : List Text) :
    tree.descend .itself here names = tree.descend .target here names ∨
      ∃ place target, tree.descend .itself here names = .at place ∧
        tree.entry? place = some (.link target) := by
  fun_induction descend tree .target here names <;> grind [descend, Purpose.followsLast]

/-- Looking for a file to be made differs from looking for what is there only by refusing a final
separator. -/
theorem descend_creation (here : Place) (names : List Text) :
    tree.descend .creation here names = tree.descend .target here names ∨
      tree.descend .creation here names = .failed .isADirectory := by
  fun_induction descend tree .creation here names <;> grind [descend, Purpose.followsLast]

theorem follow_target_of_creation {links : Nat} {here : Place} {names : List Text}
    (h : tree.follow .creation links here names = .ok place) :
    tree.follow .target links here names = .ok place := by
  fun_induction follow tree .creation links here names <;>
    grind [follow, descend_creation]

theorem follow_itself_of_target {links : Nat} {here : Place} {names : List Text}
    (h : tree.follow .target links here names = .ok place) :
    tree.follow .itself links here names = .ok place ∨
      ∃ place target, tree.follow .itself links here names = .ok place ∧
        tree.entry? place = some (.link target) := by
  fun_induction follow tree .target links here names <;>
    grind [follow, descend_itself]

theorem follow_target_of_itself {links : Nat} {here : Place} {names : List Text}
    (h : tree.follow .itself links here names = .ok place)
    (hlink : ∀ target, tree.entry? place ≠ some (.link target)) :
    tree.follow .target links here names = .ok place := by
  fun_induction follow tree .itself links here names <;>
    grind [follow, descend_itself]

theorem locateFor_target_of_itself {p : Path} (h : tree.locateFor .itself p = .ok place)
    (hlink : ∀ target, tree.entry? place ≠ some (.link target)) : tree.locateFor .target p = .ok place := by
  unfold locateFor at h ⊢
  split_ifs at h ⊢
  exact follow_target_of_itself h hlink

theorem locateFor_target_of_creation {p : Path} (h : tree.locateFor .creation p = .ok place) :
    tree.locateFor .target p = .ok place := by
  unfold locateFor at h ⊢
  split_ifs at h ⊢
  exact follow_target_of_creation h

/-- What a path itself denotes differs from what it leads to only if it is a link. -/
theorem locateFor_itself_of_target {p : Path} (h : tree.locateFor .target p = .ok place) :
    tree.locateFor .itself p = .ok place ∨
      ∃ place target, tree.locateFor .itself p = .ok place ∧ tree.entry? place = some (.link target) := by
  unfold locateFor at h ⊢
  split_ifs at h ⊢
  exact follow_itself_of_target h

theorem bind_eq_ok {α β : Type} {x : Except OsError α} {f : α → Except OsError β} {b : β}
    (h : x >>= f = .ok b) : ∃ a, x = .ok a ∧ f a = .ok b := by
  cases x with
  | error e => cases h
  | ok a => exact ⟨a, rfl, h⟩

theorem find_eq_ok_iff {p : Path} {followLast : Bool} :
    tree.find p followLast = .ok (place, entry) ↔
      tree.locate p followLast = .ok place ∧ tree.entry? place = some entry := by
  rw [find]
  cases hlocate : tree.locate p followLast with
  | error e => simp [bind, Except.bind]
  | ok other =>
      cases hentry : tree.entry? other <;> simp [hentry, bind, Except.bind] <;> grind

theorem isFile_of_find_itself {p : Path} (h : tree.find p false = .ok (place, entry)) (hfile : entry.isFile = true) :
    tree.isFile p = true := by
  obtain ⟨hplace, hentry⟩ := find_eq_ok_iff.mp h
  have hlink : ∀ target, tree.entry? place ≠ some (.link target) := by
    rintro target hlink
    obtain rfl := Option.some.inj (hentry.symm.trans hlink)
    cases hfile
  have hfind : tree.find p true = .ok (place, entry) :=
    find_eq_ok_iff.mpr ⟨locateFor_target_of_itself hplace hlink, hentry⟩
  rw [isFile, hfind]
  exact hfile

theorem exists_find_of_isFile {file : Path} (h : tree.isFile file = true) :
    ∃ place content executable modified,
      tree.find file true = .ok (place, .file content executable modified) := by
  rw [isFile] at h
  split at h
  · next place entry hfind =>
    cases entry with
    | file content executable modified => exact ⟨place, content, executable, modified, hfind⟩
    | _ => cases h
  · cases h

theorem startOf_congr (h : tree'.workDir = tree.workDir) (text : Text) :
    tree'.startOf text = tree.startOf text := by
  rw [startOf, startOf, h]

/-! ### Files that are added or written anew -/

/-- A tree with further files, at places where the other one holds nothing, and with other things in files
that both of them hold. -/
structure Refilled (tree filled : FileTree) : Prop where
  workDir : filled.workDir = tree.workDir
  entry? : ∀ place, filled.entry? place = tree.entry? place ∨
    (tree.entry? place = none ∨
      ∃ content executable modified, tree.entry? place = some (.file content executable modified)) ∧
    ∃ content executable modified, filled.entry? place = some (.file content executable modified)

namespace Refilled

variable {filled : FileTree}

theorem insert {content : Content} {executable : Bool} {modified : Nat} (hne : place ≠ [])
    (h : tree.entry? place = none ∨
      ∃ content executable modified, tree.entry? place = some (.file content executable modified)) :
    Refilled tree (tree.insert place (.file content executable modified)) := by
  refine ⟨rfl, fun other => ?_⟩
  rw [entry?_insert hne]
  split
  · next hother => exact Or.inr ⟨hother ▸ h, _, _, _, rfl⟩
  · exact Or.inl rfl

/-- A descent that succeeds meets such a file at its end if at all, and ends there all the same. -/
theorem descend_eq (hfilled : Refilled tree filled) (purpose : Purpose) (here : Place) (names : List Text)
    (h : ∀ error, tree.descend purpose here names ≠ .failed error) :
    filled.descend purpose here names = tree.descend purpose here names := by
  have hentry := hfilled.entry?
  fun_induction descend tree purpose here names <;> grind [descend]

/-- A descent that fails does not succeed through a new file, though it may fail there for another
reason. -/
theorem descend_failed (hfilled : Refilled tree filled) {purpose : Purpose} {here : Place}
    {names : List Text} {error : OsError} (h : tree.descend purpose here names = .failed error) :
    ∃ error', filled.descend purpose here names = .failed error' := by
  have hentry := hfilled.entry?
  fun_induction descend tree purpose here names <;> grind [descend]

theorem follow_iff (hfilled : Refilled tree filled) {purpose : Purpose} {links : Nat} {here : Place}
    {names : List Text} :
    filled.follow purpose links here names = .ok place ↔
      tree.follow purpose links here names = .ok place := by
  fun_induction follow tree purpose links here names <;>
    grind [follow, descend_eq, descend_failed]

theorem locateFor_iff (hfilled : Refilled tree filled) {purpose : Purpose} {p : Path} :
    filled.locateFor purpose p = .ok place ↔ tree.locateFor purpose p = .ok place := by
  unfold locateFor
  rw [startOf_congr hfilled.workDir]
  split_ifs
  · rfl
  · rfl
  · rfl
  · exact hfilled.follow_iff

end Refilled

/-- A tree with further files, at places where the smaller one holds nothing. -/
structure Grown (tree grown : FileTree) : Prop where
  workDir : grown.workDir = tree.workDir
  clock : grown.clock = tree.clock
  entry? : ∀ place, grown.entry? place = tree.entry? place ∨
    tree.entry? place = none ∧
      ∃ content executable modified, grown.entry? place = some (.file content executable modified)

namespace Grown

variable {grown : FileTree}

theorem insert {content : Content} {executable : Bool} {modified : Nat} (h : tree.entry? place = none) :
    Grown tree (tree.insert place (.file content executable modified)) := by
  refine ⟨rfl, rfl, fun other => ?_⟩
  rw [entry?_insert (ne_nil_of_absent h)]
  split
  · next hother => exact Or.inr ⟨hother ▸ h, _, _, _, rfl⟩
  · exact Or.inl rfl

theorem refilled (hgrown : Grown tree grown) : Refilled tree grown :=
  ⟨hgrown.workDir, fun place => (hgrown.entry? place).imp_right fun h => ⟨Or.inl h.1, h.2⟩⟩

theorem locateFor_iff (hgrown : Grown tree grown) {purpose : Purpose} {p : Path} :
    grown.locateFor purpose p = .ok place ↔ tree.locateFor purpose p = .ok place :=
  hgrown.refilled.locateFor_iff

end Grown

/-! ### Places on the way -/

/-- A tree without symbolic links. -/
def NoLinks (tree : FileTree) : Prop := ∀ place target, tree.entry? place ≠ some (.link target)

theorem noLinks_empty : empty.NoLinks := by
  intro place target h
  rcases eq_or_ne place [] with rfl | hne
  · cases h
  · rw [entry?_of_ne_nil hne] at h
    simp [empty] at h

theorem NoLinks.insert (h : tree.NoLinks) (hentry : ∀ target, entry ≠ .link target) :
    (tree.insert place entry).NoLinks := by
  intro other target hlink
  rcases eq_or_ne other [] with rfl | hne
  · cases hlink
  · rw [entry?_of_ne_nil hne, getElem?_entries_insert] at hlink
    split at hlink
    · exact hentry target (Option.some.inj hlink)
    · exact h other target ((entry?_of_ne_nil hne).trans hlink)

/-- The tree that holds some entries and nothing else. -/
def ofEntries (entries : List (Place × Entry)) : FileTree :=
  entries.foldl (fun tree (place, entry) => tree.insert place entry) empty

/-- A tree of directories and files has no links. -/
theorem noLinks_ofEntries {entries : List (Place × Entry)}
    (h : ∀ found ∈ entries, found.2.isDir = true ∨ found.2.isFile = true) : (ofEntries entries).NoLinks :=
  List.foldlRecOn entries _ noLinks_empty fun _ htree found hfound => htree.insert fun target hlink => by
    rcases h found hfound with hkind | hkind <;> rw [hlink] at hkind <;> cases hkind

/-- The places at which names are looked up on the way down, the last one included. -/
def lookedAt (tree : FileTree) (here : Place) : List Octets → List Place
  | [] => [here]
  | name :: rest =>
    if name = [] ∨ name = ['.'] then lookedAt tree here rest
    else if name = ['.', '.'] then lookedAt tree here.dropLast rest
    else if name.length > nameLimit then []
    else (here ++ [name]) ::
      if tree.entry? (here ++ [name]) = some .dir then lookedAt tree (here ++ [name]) rest else []

/-- A path is refused before any of its names is looked up. -/
def Refused (p : Path) : Prop :=
  p.text.isEmpty = true ∨ '\x00' ∈ p.text ∨ p.text.length > pathLimit

instance (p : Path) : Decidable (Refused p) := inferInstanceAs (Decidable (_ ∨ _ ∨ _))

/-- The places on the way of a path in a tree without links. -/
def route (tree : FileTree) (p : Path) : List Place :=
  if Refused p then [] else tree.lookedAt (tree.startOf p.text) (steps p.text)

theorem descend_ne_link (hlinks : tree.NoLinks) (purpose : Purpose) (here : Place) (names : List Text)
    (dir : Place) (target : Text) (rest : List Text) :
    tree.descend purpose here names ≠ .link dir target rest := by
  have hentry := hlinks
  unfold NoLinks at hentry
  fun_induction descend tree purpose here names <;> grind

theorem mem_lookedAt_of_descend {purpose : Purpose} {here : Place} {names : List Text}
    (h : tree.descend purpose here names = .at place) : place ∈ tree.lookedAt here names := by
  fun_induction descend tree purpose here names <;> grind [lookedAt]

theorem descend_congr (purpose : Purpose) {here : Place} {names : List Text}
    (h : ∀ place ∈ tree.lookedAt here names, tree'.entry? place = tree.entry? place) :
    tree'.descend purpose here names = tree.descend purpose here names := by
  fun_induction descend tree purpose here names <;> grind [descend, lookedAt]

theorem locateFor_of_not_refused {p : Path} (h : ¬Refused p) (tree : FileTree) (purpose : Purpose) :
    tree.locateFor purpose p = tree.follow purpose linkLimit (tree.startOf p.text) (steps p.text) := by
  simp only [Refused, not_or] at h
  rw [locateFor, if_neg h.1, if_neg h.2.1, if_neg h.2.2]

theorem locateFor_of_refused {p : Path} (h : Refused p) (tree : FileTree) (purpose : Purpose) :
    ∃ e, tree.locateFor purpose p = .error e ∧ ∀ tree' : FileTree, tree'.locateFor purpose p = .error e := by
  unfold locateFor
  split_ifs with hempty hnul hlong
  · exact ⟨_, rfl, fun _ => rfl⟩
  · exact ⟨_, rfl, fun _ => rfl⟩
  · exact ⟨_, rfl, fun _ => rfl⟩
  · rcases h with h | h | h <;> contradiction

section Congr

variable {p : Path} (hlinks : tree.NoLinks) (hworkDir : tree'.workDir = tree.workDir)
  (h : ∀ place ∈ tree.route p, tree'.entry? place = tree.entry? place)

include hlinks

theorem descend_of_locateFor {purpose : Purpose} (hplace : tree.locateFor purpose p = .ok place) :
    ¬Refused p ∧ tree.descend purpose (tree.startOf p.text) (steps p.text) = .at place := by
  by_cases hrefused : Refused p
  · obtain ⟨e, he, -⟩ := locateFor_of_refused hrefused tree purpose
    cases he.symm.trans hplace
  rw [locateFor_of_not_refused hrefused, follow] at hplace
  refine ⟨hrefused, ?_⟩
  split at hplace
  · next hat =>
    obtain rfl := Except.ok.inj hplace
    exact hat
  · cases hplace
  · next hlink => exact absurd hlink (descend_ne_link hlinks _ _ _ _ _ _)

theorem mem_route_of_locateFor {purpose : Purpose} (hplace : tree.locateFor purpose p = .ok place) :
    place ∈ tree.route p := by
  obtain ⟨hrefused, hat⟩ := descend_of_locateFor hlinks hplace
  rw [route, if_neg hrefused]
  exact mem_lookedAt_of_descend hat

include hworkDir h

theorem locateFor_congr (purpose : Purpose) : tree'.locateFor purpose p = tree.locateFor purpose p := by
  by_cases hrefused : Refused p
  · obtain ⟨e, he, hall⟩ := locateFor_of_refused hrefused tree purpose
    rw [he, hall]
  rw [route, if_neg hrefused] at h
  rw [locateFor_of_not_refused hrefused, locateFor_of_not_refused hrefused, startOf_congr hworkDir,
    follow, follow, descend_congr purpose h]
  split
  · rfl
  · rfl
  · next hlink => exact absurd hlink (descend_ne_link hlinks _ _ _ _ _ _)

theorem find_congr (followLast : Bool) : tree'.find p followLast = tree.find p followLast := by
  unfold find locate
  rw [locateFor_congr hlinks hworkDir h]
  cases hlocate : tree.locateFor (if followLast then .target else .itself) p with
  | error e => rfl
  | ok place =>
      have hentry := h place (mem_route_of_locateFor hlinks hlocate)
      simp only [bind, Except.bind, hentry]

theorem readText_congr : tree'.readText p = tree.readText p := by
  unfold readText read
  rw [find_congr hlinks hworkDir h]

end Congr

end CompileFail.FileTree
