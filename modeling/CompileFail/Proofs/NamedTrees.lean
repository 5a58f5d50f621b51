import CompileFail.Host
import CompileFail.Proofs.WalkedEntries

/-! Names in a file tree. A path asks for names without separators, and what names nothing in a directory
is passed over on the way. So whatever is made by way of paths has a proper name, and so has all that a host
puts into a tree. -/

namespace CompileFail

namespace FileTree

variable {tree tree' : FileTree} {place here : Place} {names : List Text} {entry : Entry} {p : Path}

theorem not_mem_of_mem_steps {text name : Text} (h : name ∈ steps text) : '/' ∉ name := by
  have hpieces : ∀ piece ∈ (Text.splitOn '/' text).filter (!·.isEmpty), '/' ∉ piece :=
    fun piece hpiece => Text.not_mem_of_mem_splitOn (List.mem_filter.mp hpiece).1
  simp only [steps] at h
  split at h
  · rcases List.mem_append.mp h with h | h
    · exact hpieces name h
    · obtain rfl := List.mem_singleton.mp h
      exact List.not_mem_nil
  · exact hpieces name h

theorem Named.erase (h : tree.Named) (place : Place) : FileTree.Named (tree.erase place) := by
  intro other entry hother name hname
  have hne := List.ne_nil_of_mem hname
  rw [entry?_of_ne_nil hne, getElem?_entries_erase] at hother
  split at hother
  · cases hother
  · exact h other entry ((entry?_of_ne_nil hne).trans hother) name hname

/-- A tree in which all entries have proper names and that is seen from a directory with such a name. -/
structure Proper (tree : FileTree) : Prop where
  named : tree.Named
  workDir : ∀ name ∈ tree.workDir, name.IsName

/-- A descent ends at a place with proper names, or at a link in one with names yet to look up. -/
def Arrival.Proper : Arrival → Prop
  | .at place => ∀ name ∈ place, name.IsName
  | .link dir _ rest => (∀ name ∈ dir, name.IsName) ∧ ∀ name ∈ rest, '/' ∉ name
  | .failed _ => True

theorem proper_descend {purpose : Purpose} (hhere : ∀ name ∈ here, name.IsName)
    (hnames : ∀ name ∈ names, '/' ∉ name) : (tree.descend purpose here names).Proper := by
  induction names generalizing here with
  | nil => exact hhere
  | cons name rest ih =>
      obtain ⟨hname, hrest⟩ := List.forall_mem_cons.mp hnames
      rw [descend]
      split
      · exact trivial
      split
      · exact ih hhere hrest
      next hfiller =>
      split
      · exact ih (fun name hmem => hhere name (List.dropLast_subset _ hmem)) hrest
      next hdots =>
      split
      · exact trivial
      -- Only such a name is looked up, in a directory that was reached by proper names.
      have hproper : name.IsName := ⟨fun h => hfiller (Or.inl h), hname, fun h => hfiller (Or.inr h), hdots⟩
      have hnext : ∀ other ∈ here ++ [name], other.IsName :=
        List.forall_mem_append.mpr ⟨hhere, List.forall_mem_singleton.mpr hproper⟩
      split
      · split_ifs
        · exact hnext
        · exact trivial
      · exact ih hnext hrest
      · split_ifs
        · exact hnext
        · exact trivial
      · split_ifs
        · exact hnext
        · exact trivial
      · split_ifs
        · exact hnext
        · exact ⟨hhere, hrest⟩

theorem follow_isName {purpose : Purpose} {links : Nat} (hhere : ∀ name ∈ here, name.IsName)
    (hnames : ∀ name ∈ names, '/' ∉ name) (h : tree.follow purpose links here names = .ok place) :
    ∀ name ∈ place, name.IsName := by
  fun_induction follow tree purpose links here names with
  | case1 links here names place' hat =>
      obtain rfl := Except.ok.inj h
      have harrival : (tree.descend purpose here names).Proper := proper_descend hhere hnames
      rwa [hat] at harrival
  | case2 => cases h
  | case3 => cases h
  | case4 => cases h
  | case5 here names dir target rest hlink links hne ih =>
      have harrival : (tree.descend purpose here names).Proper := proper_descend hhere hnames
      rw [hlink] at harrival
      obtain ⟨hdir, hrest⟩ := harrival
      refine ih ?_ ?_ h
      · split
        · exact List.forall_mem_nil _
        · exact hdir
      · rw [List.forall_mem_append]
        exact ⟨fun name => not_mem_of_mem_steps, hrest⟩

namespace Proper

theorem isName_of_locateFor {purpose : Purpose} (h : tree.Proper)
    (hplace : tree.locateFor purpose p = .ok place) :
    ∀ name ∈ place, name.IsName := by
  unfold locateFor at hplace
  split_ifs at hplace
  refine follow_isName ?_ (fun name => not_mem_of_mem_steps) hplace
  rw [startOf]
  split
  · exact List.forall_mem_nil _
  · exact h.workDir

theorem of_empty : empty.Proper :=
  ⟨named_empty, List.forall_mem_nil _⟩

theorem insert (h : tree.Proper) (hplace : ∀ name ∈ place, name.IsName) (entry : Entry) :
    (tree.insert place entry).Proper :=
  ⟨h.named.insert hplace entry, h.workDir⟩

theorem atDir_of_find {followLast : Bool} (h : tree.Proper)
    (hfind : tree.find p followLast = .ok (place, entry)) : (tree.atDir place).Proper :=
  ⟨h.named, h.isName_of_locateFor (find_eq_ok_iff.mp hfind).1⟩

/-- What each step keeps, a series of steps keeps. -/
theorem foldlM {α : Type} {xs : List α} {add : FileTree → α → Except OsError FileTree} (h : tree.Proper)
    (hadd : ∀ (tree tree' : FileTree) (x : α), tree.Proper → add tree x = .ok tree' → tree'.Proper)
    (hfold : xs.foldlM add tree = .ok tree') : tree'.Proper := by
  induction xs generalizing tree with
  | nil => exact Except.ok.inj hfold ▸ h
  | cons x xs ih =>
      rw [List.foldlM_cons] at hfold
      obtain ⟨next, hnext, hrest⟩ := bind_eq_ok hfold
      exact ih (hadd tree next x h hnext) hrest

theorem store {content : Content} (h : tree.Proper) (hstore : tree.store p content = .ok tree') :
    tree'.Proper := by
  obtain ⟨place, hplace, hput⟩ := bind_eq_ok hstore
  have hinsert := fun entry => h.insert (h.isName_of_locateFor hplace) entry
  split at hput
  · cases hput
  · exact Except.ok.inj hput ▸ h
  · exact Except.ok.inj hput ▸ hinsert _
  · exact Except.ok.inj hput ▸ hinsert _

theorem touch (h : tree.Proper) (htouch : tree.touch p = .ok tree') : tree'.Proper := by
  obtain ⟨⟨place, entry⟩, hfind, hput⟩ := bind_eq_ok htouch
  have hplace := h.isName_of_locateFor (find_eq_ok_iff.mp hfind).1
  split at hput
  · next heq =>
    obtain ⟨rfl, -⟩ := Prod.mk.inj heq
    split at hput
    · cases hput
    · exact Except.ok.inj hput ▸ h.insert hplace _
  · exact Except.ok.inj hput ▸ h

theorem remove (h : tree.Proper) (hremove : tree.remove p = .ok tree') : tree'.Proper := by
  obtain ⟨⟨place, entry⟩, hfind, htake⟩ := bind_eq_ok hremove
  split at htake
  · cases htake
  · exact Except.ok.inj htake ▸ ⟨h.named.erase _, h.workDir⟩

theorem makeDir (h : tree.Proper) (hmake : tree.makeDir p = .ok tree') : tree'.Proper := by
  unfold FileTree.makeDir at hmake
  split at hmake
  · exact Except.ok.inj hmake ▸ h
  · obtain ⟨place, hplace, hput⟩ := bind_eq_ok hmake
    split at hput
    · cases hput
    · exact Except.ok.inj hput ▸ h.insert (h.isName_of_locateFor hplace) _

theorem makeDirs (h : tree.Proper) (hmake : tree.makeDirs p = .ok tree') : tree'.Proper :=
  h.foldlM (fun _ _ _ h hdir => h.makeDir hdir) hmake

theorem addFile {content : Content} {executable : Bool} (h : tree.Proper)
    (hadd : tree.addFile p content executable = .ok tree') : tree'.Proper := by
  obtain ⟨tree₁, hparent, hadd⟩ := bind_eq_ok hadd
  obtain ⟨tree₂, hstore, hadd⟩ := bind_eq_ok hadd
  have h₂ : tree₂.Proper := (h.makeDirs hparent).store hstore
  split at hadd
  · obtain ⟨⟨place, entry⟩, hfind, hmark⟩ := bind_eq_ok hadd
    have hplace := h₂.isName_of_locateFor (find_eq_ok_iff.mp hfind).1
    split at hmark
    · next heq =>
      obtain ⟨rfl, -⟩ := Prod.mk.inj heq
      exact Except.ok.inj hmark ▸ h₂.insert hplace _
    · exact Except.ok.inj hmark ▸ h₂
  · exact Except.ok.inj hadd ▸ h₂

theorem addLink {target : Text} (h : tree.Proper) (hadd : tree.addLink p target = .ok tree') :
    tree'.Proper := by
  obtain ⟨tree₁, hparent, hadd⟩ := bind_eq_ok hadd
  obtain ⟨place, hplace, hput⟩ := bind_eq_ok hadd
  have h₁ : tree₁.Proper := h.makeDirs hparent
  exact Except.ok.inj hput ▸ h₁.insert (h₁.isName_of_locateFor hplace) _

end Proper

end FileTree

namespace Host

/-- What a host puts into a tree has proper names. -/
theorem proper_install {tree tree' : FileTree} (h : tree.Proper) (hinstall : install tree = .ok tree') :
    tree'.Proper := by
  obtain ⟨tree₁, hdirs, hinstall⟩ := FileTree.bind_eq_ok hinstall
  obtain ⟨tree₂, hprograms, hinstall⟩ := FileTree.bind_eq_ok hinstall
  obtain ⟨tree₃, hfiles, hinstall⟩ := FileTree.bind_eq_ok hinstall
  obtain ⟨tree₄, hsh, hinstall⟩ := FileTree.bind_eq_ok hinstall
  obtain ⟨tree₅, hawk, hinstall⟩ := FileTree.bind_eq_ok hinstall
  obtain ⟨tree₆, hbin, hinstall⟩ := FileTree.bind_eq_ok hinstall
  obtain ⟨tree₇, hsbin, hlib⟩ := FileTree.bind_eq_ok hinstall
  have h₁ : tree₁.Proper := h.foldlM (fun _ _ _ h hdir => h.makeDirs hdir) hdirs
  have h₂ : tree₂.Proper := h₁.foldlM (fun _ _ _ h hfile => h.addFile hfile) hprograms
  have hdev : Text.IsName "dev".toList := by decide
  have h₃ : tree₃.Proper := by
    refine FileTree.Proper.foldlM ?_ (fun _ _ _ h hfile => h.addFile hfile) hfiles
    refine List.foldlRecOn _ _ h₂ fun tree h name hname => h.insert ?_ _
    have hdevice : Text.IsName name.toList := by
      revert name
      decide
    exact List.forall_mem_cons.mpr ⟨hdev, List.forall_mem_singleton.mpr hdevice⟩
  exact ((((h₃.addLink hsh).addLink hawk).addLink hbin).addLink hsbin).addLink hlib

end Host

namespace FileTree

/-- The trees that are put together and changed by way of paths. -/
inductive Made : FileTree → Prop
  | empty : Made empty
  | host {tree tree' : FileTree} (h : Made tree) (hinstall : Host.install tree = .ok tree') : Made tree'
  | dirs {tree tree' : FileTree} {p : Path} (h : Made tree) (hmake : tree.makeDirs p = .ok tree') : Made tree'
  | file {tree tree' : FileTree} {p : Path} {content : Content} {executable : Bool} (h : Made tree)
    (hadd : tree.addFile p content executable = .ok tree') : Made tree'
  | link {tree tree' : FileTree} {p : Path} {target : Text} (h : Made tree)
    (hadd : tree.addLink p target = .ok tree') : Made tree'
  | written {tree tree' : FileTree} {p : Path} {content : Content} (h : Made tree)
    (hstore : tree.store p content = .ok tree') : Made tree'
  | touched {tree tree' : FileTree} {p : Path} (h : Made tree) (htouch : tree.touch p = .ok tree') : Made tree'
  | removed {tree tree' : FileTree} {p : Path} (h : Made tree) (hremove : tree.remove p = .ok tree') : Made tree'
  | seen {tree : FileTree} {p : Path} {place : Place} {entry : Entry} {followLast : Bool} (h : Made tree)
    (hfind : tree.find p followLast = .ok (place, entry)) : Made (tree.atDir place)

/-- Whatever is done by way of paths, all names in the tree are proper. -/
theorem Made.proper (h : Made tree) : tree.Proper := by
  induction h with
  | empty => exact .of_empty
  | host _ hinstall ih => exact Host.proper_install ih hinstall
  | dirs _ hmake ih => exact ih.makeDirs hmake
  | file _ hadd ih => exact ih.addFile hadd
  | link _ hadd ih => exact ih.addLink hadd
  | written _ hstore ih => exact ih.store hstore
  | touched _ htouch ih => exact ih.touch htouch
  | removed _ hremove ih => exact ih.remove hremove
  | seen _ hfind ih => exact ih.atDir_of_find hfind

end FileTree

end CompileFail
