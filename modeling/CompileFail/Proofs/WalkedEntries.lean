import CompileFail.Proofs.FileLookup
import CompileFail.Proofs.PathTitles
import Mathlib.Data.List.Nodup

/-! What stands below a directory: each entry once, by the names that lead to it from there. -/

namespace CompileFail

namespace FileTree

variable {tree : FileTree} {place : Place} {name : Text} {names : List Text} {entry : Entry}

/-- A tree in which all entries have proper names. -/
def Named (tree : FileTree) : Prop :=
  ∀ place entry, tree.entry? place = some entry → ∀ name ∈ place, name.IsName

theorem named_empty : empty.Named := by
  intro place entry h name hname
  rw [entry?_of_ne_nil (List.ne_nil_of_mem hname)] at h
  simp [empty] at h

theorem Named.insert (h : tree.Named) (hplace : ∀ name ∈ place, name.IsName) (entry : Entry) :
    (tree.insert place entry).Named := by
  intro other entry' hother name hname
  have hne := List.ne_nil_of_mem hname
  rw [entry?_of_ne_nil hne, getElem?_entries_insert] at hother
  split at hother
  · next heq => exact hplace name (heq ▸ hname)
  · exact h other entry' ((entry?_of_ne_nil hne).trans hother) name hname

theorem named_ofEntries {entries : List (Place × Entry)} (h : ∀ found ∈ entries, ∀ name ∈ found.1, name.IsName) :
    (ofEntries entries).Named :=
  List.foldlRecOn entries _ named_empty fun _ htree found hfound => htree.insert (h found hfound) found.2

/-! ### What stands in a directory -/

theorem child_eq_some_iff {other : Place} {entry' : Entry} :
    (match other.getLast? with
      | some name => if other.dropLast = place then some (name, entry) else none
      | none => none) = some (name, entry') ↔ other = place ++ [name] ∧ entry = entry' := by
  constructor
  · intro hchild
    split at hchild
    · next last hlast =>
      split at hchild
      · next hdir =>
        obtain ⟨rfl, rfl⟩ := Prod.mk.inj (Option.some.inj hchild)
        obtain ⟨front, rfl⟩ := List.getLast?_eq_some_iff.mp hlast
        rw [List.dropLast_concat] at hdir
        exact ⟨hdir ▸ rfl, rfl⟩
      · cases hchild
    · cases hchild
  · rintro ⟨rfl, rfl⟩
    simp

theorem mem_children_iff :
    (name, entry) ∈ tree.children place ↔ tree.entry? (place ++ [name]) = some entry := by
  have hne : place ++ [name] ≠ [] := by simp
  rw [entry?_of_ne_nil hne, ← Std.ExtTreeMap.mem_toList_iff_getElem?_eq_some, children, List.mem_filterMap]
  constructor
  · rintro ⟨⟨other, entry'⟩, hother, hchild⟩
    obtain ⟨rfl, rfl⟩ := child_eq_some_iff.mp hchild
    exact hother
  · intro hmem
    exact ⟨(place ++ [name], entry), hmem, child_eq_some_iff.mpr ⟨rfl, rfl⟩⟩

theorem nodup_children (tree : FileTree) (place : Place) : ((tree.children place).map (·.1)).Nodup := by
  rw [List.Nodup, List.pairwise_map, children]
  refine Std.ExtTreeMap.distinct_keys_toList.filterMap _ ?_
  rintro ⟨other, entry⟩ ⟨other', entry'⟩ hne ⟨name, _⟩ hchild ⟨name', _⟩ hchild' rfl
  obtain ⟨rfl, -⟩ := child_eq_some_iff.mp hchild
  obtain ⟨rfl, -⟩ := child_eq_some_iff.mp hchild'
  exact hne Std.compare_self

/-! ### What stands below a directory -/

/-- What stands below a place, each entry with the names that lead to it from there. -/
def below (tree : FileTree) : (levels : Nat) → Place → List (List Text × Entry)
  | 0, _ => []
  | levels + 1, place =>
    (tree.children place).flatMap fun (name, entry) =>
      ([name], entry) ::
        if entry.isDir then (tree.below levels (place ++ [name])).map fun found => (name :: found.1, found.2)
        else []

/-- The names lead from the place down to the entry, through directories and no links. -/
inductive LeadsTo (tree : FileTree) : Place → List Text → Entry → Prop
  | last {place : Place} {name : Text} {entry : Entry} (h : tree.entry? (place ++ [name]) = some entry) :
      LeadsTo tree place [name] entry
  | down {place : Place} {name : Text} {names : List Text} {entry : Entry}
      (h : tree.entry? (place ++ [name]) = some .dir) (hrest : LeadsTo tree (place ++ [name]) names entry) :
      LeadsTo tree place (name :: names) entry

theorem LeadsTo.ne_nil (h : tree.LeadsTo place names entry) : names ≠ [] := by
  cases h <;> exact List.cons_ne_nil _ _

theorem LeadsTo.entry? (h : tree.LeadsTo place names entry) : tree.entry? (place ++ names) = some entry := by
  induction h with
  | last h => exact h
  | down h hrest ih => rwa [List.append_assoc] at ih

theorem LeadsTo.isName (h : tree.LeadsTo place names entry) (hnamed : tree.Named) :
    ∀ name ∈ names, name.IsName :=
  fun name hname => hnamed _ _ h.entry? name (List.mem_append_right _ hname)

theorem Entry.eq_dir_of_isDir {entry : Entry} (h : entry.isDir = true) : entry = .dir := by
  cases entry <;> first | rfl | cases h

theorem leadsTo_of_mem_below {levels : Nat} {found : List Text × Entry} (h : found ∈ tree.below levels place) :
    tree.LeadsTo place found.1 found.2 := by
  induction levels generalizing place found with
  | zero => cases h
  | succ levels ih =>
      rw [below, List.mem_flatMap] at h
      obtain ⟨⟨name, entry⟩, hchild, hfound⟩ := h
      rw [mem_children_iff] at hchild
      rcases List.mem_cons.mp hfound with rfl | hfound
      · exact .last hchild
      · split at hfound
        · next hdir =>
          obtain ⟨found', hfound', rfl⟩ := List.mem_map.mp hfound
          obtain rfl := Entry.eq_dir_of_isDir hdir
          exact .down hchild (ih hfound')
        · cases hfound

theorem head?_of_mem_block {found : List Text × Entry} {rest : List (List Text × Entry)} {isDir : Bool}
    (h : found ∈ ([name], entry) :: if isDir then rest.map fun found => (name :: found.1, found.2) else []) :
    found.1.head? = some name := by
  rcases List.mem_cons.mp h with rfl | h
  · rfl
  · split at h
    · obtain ⟨found', -, rfl⟩ := List.mem_map.mp h
      rfl
    · cases h

/-- Nothing stands below a directory twice. -/
theorem nodup_below (levels : Nat) (place : Place) : ((tree.below levels place).map (·.1)).Nodup := by
  induction levels generalizing place with
  | zero => exact List.nodup_nil
  | succ levels ih =>
      rw [below, List.map_flatMap, List.nodup_flatMap]
      constructor
      · rintro ⟨name, entry⟩ -
        dsimp only
        rw [List.map_cons, List.nodup_cons]
        split
        · rw [List.map_map]
          constructor
          · intro hmem
            obtain ⟨found, hfound, hnames⟩ := List.mem_map.mp hmem
            exact (leadsTo_of_mem_below hfound).ne_nil (List.cons.inj hnames).2
          · have hcons := (ih (place ++ [name])).map (List.cons_injective (a := name))
            rwa [List.map_map] at hcons
        · simp
      · refine (List.pairwise_map.mp (nodup_children tree place)).imp fun {child child'} hne => ?_
        intro names hnames hnames'
        obtain ⟨found, hfound, rfl⟩ := List.mem_map.mp hnames
        obtain ⟨found', hfound', hsame⟩ := List.mem_map.mp hnames'
        have hhead := head?_of_mem_block hfound
        rw [← hsame, head?_of_mem_block hfound'] at hhead
        exact hne (Option.some.inj hhead).symm

theorem mem_below_of_leadsTo {levels : Nat} (h : tree.LeadsTo place names entry) (hlevels : names.length ≤ levels) :
    (names, entry) ∈ tree.below levels place := by
  induction h generalizing levels with
  | last h =>
      obtain ⟨levels, rfl⟩ := Nat.exists_eq_add_of_le' hlevels
      rw [List.length_singleton, below, List.mem_flatMap]
      exact ⟨_, mem_children_iff.mpr h, List.mem_cons_self⟩
  | down h hrest ih =>
      obtain ⟨levels, rfl⟩ := Nat.exists_eq_add_of_le' (Nat.le_of_add_left_le hlevels)
      rw [below, List.mem_flatMap]
      refine ⟨_, mem_children_iff.mpr h, List.mem_cons_of_mem _ ?_⟩
      exact List.mem_map.mpr ⟨_, ih (Nat.le_of_succ_le_succ hlevels), rfl⟩

theorem length_le_height (h : tree.entry? place = some entry) : place.length ≤ tree.height := by
  rcases eq_or_ne place [] with rfl | hne
  · exact Nat.zero_le _
  · rw [entry?_of_ne_nil hne, ← Std.ExtTreeMap.mem_toList_iff_getElem?_eq_some] at h
    rw [height, List.foldl_max]
    have hmem : place.length ∈ tree.toList.map fun found => found.1.length := List.mem_map_of_mem h
    exact (List.le_max?_getD_of_mem hmem).trans (Nat.le_max_right _ _)

/-- Exactly the entries that names lead to stand below a place. -/
theorem mem_below_iff : (names, entry) ∈ tree.below (tree.height + 1) place ↔ tree.LeadsTo place names entry := by
  constructor
  · exact leadsTo_of_mem_below
  · intro h
    have hheight := length_le_height h.entry?
    rw [List.length_append] at hheight
    exact mem_below_of_leadsTo h (by omega)

end FileTree

end CompileFail
