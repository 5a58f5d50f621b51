import CompileFail.Proofs.CopyNames
import CompileFail.Settings

/-! Names behind a directory. However the directory is written, a name that is joined to it is one more component
and is the file name of the path; so what the path is said to be by its extension is said of the name. -/

namespace CompileFail

/-- The name ends in a dot and the extension, the case of the letters A to Z aside, and the dot is not in front. -/
def Text.HasExtension (name extension : Text) : Prop :=
  ∃ stem own, name = stem ++ '.' :: own ∧ stem ≠ [] ∧ '.' ∉ own ∧ Text.eqIgnoreCase own extension = true

theorem Text.intercalate_splitOn (s : Text) : ['/'].intercalate (splitOn '/' s) = s := by
  rw [splitOn_eq]
  exact List.intercalate_splitOn '/'

namespace Path

variable {p : Path} {name extension : Text} {names : List Text}

theorem hostPieces_ne_nil (p : Path) : p.hostPieces ≠ [] := by
  rw [hostPieces]
  split
  · next hlast =>
    obtain ⟨text, htext⟩ := List.getLast?_eq_some_iff.mp hlast
    rw [Text.splitOn_eq, htext, List.splitOn_append_cons_self, List.splitOn_nil, List.dropLast_concat]
    exact List.splitOn_ne_nil _ _
  · rw [Text.splitOn_eq]
    exact List.splitOn_ne_nil _ _

/-- The pieces of a path behind its start, without the empty one of a final separator. -/
theorem exists_hostPieces_eq (p : Path) :
    ∃ front, p.hostPieces = p.parts.1.pieces ++ front ∧ front <+: p.parts.2 ∧
      front.filter (!isFiller ·) = p.parts.2.filter (!isFiller ·) := by
  have hparts := (splitOn_eq_parts p).1
  by_cases hlast : p.text.getLast? = some '/'
  · have hsplit := splitOn_of_getLast? hlast
    rw [hparts] at hsplit
    rcases List.eq_nil_or_concat p.parts.2 with hnil | ⟨front, last, hconcat⟩
    · have hlength := congrArg List.length hsplit
      have hpos := List.length_pos_iff.mpr p.hostPieces_ne_nil
      rw [hnil, List.append_nil, List.length_append, List.length_singleton] at hlength
      have hlead : p.parts.1.pieces.length ≤ 1 := by cases p.parts.1 <;> decide
      omega
    · rw [hconcat, List.concat_eq_append, ← List.append_assoc] at hsplit
      obtain ⟨hfront, hfinal⟩ := List.append_inj' hsplit rfl
      rw [hconcat, List.concat_eq_append, List.singleton_inj.mp hfinal]
      exact ⟨front, hfront.symm, List.prefix_append _ _, by simp [isFiller]⟩
  · exact ⟨p.parts.2, by rw [hostPieces, if_neg hlast, hparts], List.prefix_rfl, rfl⟩

/-- A path without a start does not begin with a filler, unless it is empty. -/
theorem isFiller_head {piece : Text} (hp : p.text ≠ []) (hnone : p.parts.1 = .none)
    (hpiece : piece ∈ p.parts.2.head?) : isFiller piece = false := by
  by_contra hfiller
  obtain ⟨hsplit, hfirst⟩ := splitOn_eq_parts p
  have hall := hfirst hnone piece hpiece (Bool.not_eq_false _ ▸ hfiller)
  rw [hnone, hall] at hsplit
  have htext : p.text = piece := by
    have hjoined := Text.intercalate_splitOn p.text
    rw [hsplit] at hjoined
    simpa [Lead.pieces] using hjoined.symm
  have hdot : piece = ['.'] := by
    simpa [isFiller, htext ▸ hp] using hfiller
  have hhere : p.parts = (.here, []) := by
    simp only [parts, hsplit, Lead.pieces, hdot, List.nil_append, if_true]
  rw [hhere] at hnone
  cases hnone

theorem exists_parts_join (hp : p.text ≠ []) (hname : name.IsName) :
    ∃ front, (p.join name).parts = (p.parts.1, front ++ [name]) ∧
      front.filter (!isFiller ·) = p.parts.2.filter (!isFiller ·) := by
  obtain ⟨front, hhost, hprefix, hfilter⟩ := exists_hostPieces_eq p
  refine ⟨front, parts_of_splitOn ?_ (by simp) fun hnone piece hpiece => ?_, hfilter⟩
  · rw [splitOn_join hp hname.not_mem, hhost, List.append_assoc]
  · cases front with
    | nil =>
        obtain rfl := Option.some.inj hpiece
        exact hname.isFiller
    | cons first rest =>
        obtain rfl := Option.some.inj hpiece
        obtain ⟨more, hmore⟩ := hprefix
        exact isFiller_head hp hnone (by rw [← hmore]; rfl)

theorem components_join_name (hp : p.text ≠ []) (hname : name.IsName) :
    (p.join name).components = p.components ++ [.name name] := by
  obtain ⟨front, hparts, hfilter⟩ := exists_parts_join hp hname
  rw [components, hparts, List.filter_append, hfilter, List.map_append, components, List.append_assoc]
  simp [hname.isFiller, Component.ofPiece, hname.ne_dots]

theorem components_joinAll (hp : p.text ≠ []) (hnames : ∀ name ∈ names, name.IsName) :
    (p.joinAll names).components = p.components ++ names.map .name := by
  induction names generalizing p with
  | nil => exact (List.append_nil _).symm
  | cons name names ih =>
      rw [List.forall_mem_cons] at hnames
      have hrest := ih (join_text_ne_nil hp hnames.1.not_mem) hnames.2
      rw [components_join_name hp hnames.1, List.append_assoc] at hrest
      exact hrest

theorem fileName_joinAll (hp : p.text ≠ []) (hnames : ∀ name ∈ names, name.IsName)
    (hlast : names.getLast? = some name) : (p.joinAll names).fileName = some name := by
  rw [fileName, components_joinAll hp hnames, List.getLast?_append, List.getLast?_map, hlast]
  rfl

theorem hasExtension_iff (h : p.fileName = some name) :
    p.hasExtension extension = true ↔ name.HasExtension extension := by
  rw [hasExtension, Path.extension, h, Option.bind_some]
  rcases splitExtension_cases name with ⟨stem, own, hsplit, rfl, hstem, hdot⟩ | ⟨hnone, hdot⟩
  · rw [hsplit]
    constructor
    · intro hown
      exact ⟨stem, own, rfl, hstem, hdot, by simpa using hown⟩
    · rintro ⟨stem', own', heq, hstem', hdot', hown⟩
      obtain ⟨rfl, rfl⟩ := Text.cut_at_last hdot hdot' heq
      simpa using hown
  · rw [hnone]
    constructor
    · intro hown
      simp at hown
    · rintro ⟨stem, own, rfl, hstem, -⟩
      obtain ⟨first, rest, rfl⟩ := List.exists_cons_of_ne_nil hstem
      exact absurd (by simp) hdot

end Path

/-- Whether a file is a source file is told by its name. -/
theorem Settings.Check.isSourceFile_iff {settings : Settings.Check} {p : Path} {name : Text}
    (h : p.fileName = some name) :
    settings.isSourceFile p = true ↔ Text.HasExtension name (Octets.ofText settings.sourceExtension) :=
  Path.hasExtension_iff h

end CompileFail
