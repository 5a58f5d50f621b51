import CompileFail.Proofs.FileLookup
import CompileFail.Verifier

/-! The life of a copy. At a path where nothing stands a text can be written exactly if the path denotes
a place; then it can be read back, and when the copy is removed the tree is as it was before. -/

namespace CompileFail.FileTree

variable {tree tree' : FileTree} {place : Place} {p : Path} {content : Text}

/-- Nothing stands where a path leads, not even a link. -/
def Vacant (tree : FileTree) (p : Path) : Prop := ∀ place entry, tree.find p false ≠ .ok (place, entry)

theorem find_of_locateFor {entry : Entry} (h : tree.locateFor .itself p = .ok place)
    (hentry : tree.entry? place = some entry) : tree.find p false = .ok (place, entry) := by
  simp [find, locate, h, hentry, bind, Except.bind]

theorem vacant_of_find {e : OsError} (h : tree.find p false = .error e) : tree.Vacant p := by
  intro place entry hfind
  cases h.symm.trans hfind

theorem Vacant.locateFor_itself (hvacant : tree.Vacant p) (h : tree.locateFor .creation p = .ok place) :
    tree.locateFor .itself p = .ok place := by
  rcases locateFor_itself_of_target (locateFor_target_of_creation h) with hplace | ⟨other, target, hother, hlink⟩
  · exact hplace
  · exact absurd (find_of_locateFor hother hlink) (hvacant other _)

theorem Vacant.entry?_eq_none (hvacant : tree.Vacant p) (h : tree.locateFor .creation p = .ok place) :
    tree.entry? place = none := by
  cases hentry : tree.entry? place with
  | none => rfl
  | some entry => exact absurd (find_of_locateFor (hvacant.locateFor_itself h) hentry) (hvacant place entry)

/-! ### Writing, reading and removing -/

/-- What a text leaves at the place where it is written anew. -/
def written (tree : FileTree) (content : Text) : Entry := .file (.text content) false tree.clock

theorem write_of_locateFor (h : tree.locateFor .creation p = .ok place) (hfree : tree.entry? place = none) :
    tree.write p content = .ok (tree.insert place (tree.written content)) := by
  simp [write, store, h, hfree, written, bind, Except.bind]

theorem write_of_not_located {e : OsError} (h : tree.locateFor .creation p = .error e) :
    tree.write p content = .error e := by
  simp [write, store, h, bind, Except.bind]

theorem Vacant.write_eq_ok_iff (hvacant : tree.Vacant p) :
    tree.write p content = .ok tree' ↔
      ∃ place, tree.locateFor .creation p = .ok place ∧ tree' = tree.insert place (tree.written content) := by
  cases hplace : tree.locateFor .creation p with
  | error e => simp [write_of_not_located hplace]
  | ok place => simp [write_of_locateFor hplace (hvacant.entry?_eq_none hplace), eq_comm]

theorem readText_of_locateFor {base : FileTree} (h : tree.locateFor .target p = .ok place)
    (hentry : tree.entry? place = some (base.written content)) : tree.readText p = .ok content := by
  simp [readText, read, find, locate, h, hentry, written, bind, Except.bind]

theorem remove_of_locateFor {base : FileTree} (h : tree.locateFor .itself p = .ok place)
    (hentry : tree.entry? place = some (base.written content)) : tree.remove p = .ok (tree.erase place) := by
  simp [remove, find_of_locateFor h hentry, written, bind, Except.bind]

theorem Vacant.remove_eq (hvacant : tree.Vacant p) :
    ∃ e, tree.find p false = .error e ∧ tree.remove p = .error e := by
  cases hfind : tree.find p false with
  | error e => exact ⟨e, rfl, by simp [remove, hfind, bind, Except.bind]⟩
  | ok found => exact absurd hfind (hvacant found.1 found.2)

/-- A copy that was just written holds its text. -/
theorem Vacant.readText_insert (hvacant : tree.Vacant p) (h : tree.locateFor .creation p = .ok place) :
    (tree.insert place (tree.written content)).readText p = .ok content := by
  have hfree := hvacant.entry?_eq_none h
  have hgrown : Grown tree (tree.insert place (tree.written content)) := Grown.insert hfree
  exact readText_of_locateFor (hgrown.locateFor_iff.mpr (locateFor_target_of_creation h))
    (entry?_insert_self (ne_nil_of_absent hfree))

/-- Removing a copy that was just written restores the tree. -/
theorem Vacant.remove_insert (hvacant : tree.Vacant p) (h : tree.locateFor .creation p = .ok place) :
    (tree.insert place (tree.written content)).remove p = .ok tree := by
  have hfree := hvacant.entry?_eq_none h
  have hgrown : Grown tree (tree.insert place (tree.written content)) := Grown.insert hfree
  have hplace := hgrown.locateFor_iff.mpr (hvacant.locateFor_itself h)
  rw [remove_of_locateFor hplace (entry?_insert_self (ne_nil_of_absent hfree)), erase_insert hfree]

end CompileFail.FileTree
