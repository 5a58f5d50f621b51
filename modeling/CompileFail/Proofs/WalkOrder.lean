import CompileFail.Proofs.WalkedEntries

/-! The order in which a walk goes through what is below a directory. The names in a directory come in the order of
their bytes; so the lists of names that lead to the entries come in the lexicographic order of the names. -/

namespace CompileFail

theorem Octets.lt_of_compare {s t : Octets} (h : compare s t = .lt) : s < t := by
  induction s generalizing t with
  | nil =>
      cases t with
      | nil => cases h
      | cons d t => exact List.nil_lt_cons _ _
  | cons c s ih =>
      cases t with
      | nil => cases h
      | cons d t =>
          rw [List.compare_eq_compareLex, List.compareLex_cons_cons, Ordering.then_eq_lt] at h
          rcases h with hlt | ⟨heq, hrest⟩
          · exact List.cons_lt_cons_iff.mpr (Or.inl (compareOfLessAndEq_eq_lt.mp hlt))
          · exact List.cons_lt_cons_iff.mpr (Or.inr ⟨Std.compare_eq_iff_eq.mp heq, ih hrest⟩)

namespace FileTree

variable {tree : FileTree} {place : Place} {name name' : Text} {names : List Text} {entry : Entry} {p : Path}

theorem compare_of_compare_append (h : compare (place ++ [name]) (place ++ [name']) = .lt) :
    compare name name' = .lt := by
  induction place with
  | nil =>
      rw [List.nil_append, List.nil_append, List.compare_eq_compareLex, List.compareLex_cons_cons,
        Ordering.then_eq_lt] at h
      rcases h with hlt | ⟨-, hnil⟩
      · exact hlt
      · cases hnil
  | cons first place ih =>
      rw [List.cons_append, List.cons_append, List.compare_eq_compareLex, List.compareLex_cons_cons,
        Std.compare_self] at h
      exact ih h

theorem pairwise_children (tree : FileTree) (place : Place) :
    ((tree.children place).map (·.1)).Pairwise fun name name' => name < name' := by
  rw [List.pairwise_map, children]
  refine Std.ExtTreeMap.ordered_keys_toList.filterMap _ ?_
  rintro ⟨other, entry⟩ ⟨other', entry'⟩ hlt ⟨name, _⟩ hchild ⟨name', _⟩ hchild'
  obtain ⟨rfl, -⟩ := child_eq_some_iff.mp hchild
  obtain ⟨rfl, -⟩ := child_eq_some_iff.mp hchild'
  exact Octets.lt_of_compare (compare_of_compare_append hlt)

/-- A directory comes before what is in it, and all of that before the next name. -/
theorem pairwise_below (tree : FileTree) (levels : Nat) (place : Place) :
    ((tree.below levels place).map (·.1)).Pairwise fun names names' => names < names' := by
  induction levels generalizing place with
  | zero => exact List.Pairwise.nil
  | succ levels ih =>
      rw [below, List.map_flatMap, List.pairwise_flatMap]
      constructor
      · rintro ⟨name, entry⟩ -
        dsimp only
        split
        · rw [List.map_cons, List.pairwise_cons, List.map_map]
          constructor
          · intro names hnames
            obtain ⟨found, hfound, rfl⟩ := List.mem_map.mp hnames
            obtain ⟨first, rest, hrest⟩ := List.exists_cons_of_ne_nil (leadsTo_of_mem_below hfound).ne_nil
            refine List.cons_lt_cons_iff.mpr (Or.inr ⟨rfl, ?_⟩)
            rw [hrest]
            exact List.nil_lt_cons _ _
          · have hrest := List.pairwise_map.mp (ih (place ++ [name]))
            exact List.pairwise_map.mpr (hrest.imp fun h => List.cons_lt_cons_iff.mpr (Or.inr ⟨rfl, h⟩))
        · exact List.pairwise_singleton _ _
      · refine (List.pairwise_map.mp (pairwise_children tree place)).imp fun {child child'} hlt => ?_
        intro names hnames names' hnames'
        obtain ⟨found, hfound, rfl⟩ := List.mem_map.mp hnames
        obtain ⟨found', hfound', rfl⟩ := List.mem_map.mp hnames'
        obtain ⟨rest, hrest⟩ := List.head?_eq_some_iff.mp (head?_of_mem_block hfound)
        obtain ⟨rest', hrest'⟩ := List.head?_eq_some_iff.mp (head?_of_mem_block hfound')
        rw [hrest, hrest']
        exact List.cons_lt_cons_iff.mpr (Or.inl hlt)

end FileTree

end CompileFail
