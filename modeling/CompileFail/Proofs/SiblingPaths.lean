import CompileFail.Proofs.PathAscent
import Mathlib.Data.List.DropRight

/-! Paths beside each other. A path with a file name is a start, the pieces of a directory and the name, whatever
fillers stand between and behind them. A path with another file name in place of it has the same start and the
same directory, also where the path is relative; so it has the same parent, spelled as before. -/

namespace CompileFail.Path

/-- The pieces with which a start is written. -/
def Lead.pieces : Lead → List Text
  | .root => [[]]
  | .here => [['.']]
  | .none => []

variable {p : Path} {lead : Lead} {pieces front : List Text} {name other : Text}

/-- A path without a start begins with a piece that does not count only if that is all of it. -/
theorem splitOn_eq_parts (p : Path) :
    Text.splitOn '/' p.text = p.parts.1.pieces ++ p.parts.2 ∧
      (p.parts.1 = .none → ∀ piece ∈ p.parts.2.head?, isFiller piece = true → p.parts.2 = [piece]) := by
  unfold parts
  split
  · next hsplit => exact ⟨hsplit, fun _ piece hpiece => by cases hpiece⟩
  · next piece hsplit =>
    by_cases hdot : piece = ['.']
    · rw [if_pos hdot]
      exact ⟨by rw [hsplit, hdot]; rfl, fun h => by cases h⟩
    · rw [if_neg hdot]
      refine ⟨hsplit, fun _ first hfirst _ => ?_⟩
      obtain rfl := Option.some.inj hfirst
      rfl
  · next piece rest hrest hsplit =>
    by_cases hnil : piece = []
    · rw [if_pos hnil]
      exact ⟨by rw [hsplit, hnil]; rfl, fun h => by cases h⟩
    rw [if_neg hnil]
    by_cases hdot : piece = ['.']
    · rw [if_pos hdot]
      exact ⟨by rw [hsplit, hdot]; rfl, fun h => by cases h⟩
    · rw [if_neg hdot]
      refine ⟨hsplit, fun _ first hfirst hfiller => ?_⟩
      obtain rfl := Option.some.inj hfirst
      simp [isFiller, hnil, hdot] at hfiller

theorem not_mem_of_mem_parts {piece : Text} (h : piece ∈ p.parts.2) : '/' ∉ piece := by
  refine Text.not_mem_of_mem_splitOn (s := p.text) ?_
  rw [(splitOn_eq_parts p).1]
  exact List.mem_append_right _ h

theorem parts_of_splitOn (h : Text.splitOn '/' p.text = lead.pieces ++ pieces) (hne : pieces ≠ [])
    (hfirst : lead = .none → ∀ piece ∈ pieces.head?, isFiller piece = false) : p.parts = (lead, pieces) := by
  obtain ⟨piece, rest, rfl⟩ := List.exists_cons_of_ne_nil hne
  cases lead with
  | root =>
      rw [parts, h]
      rfl
  | here =>
      rw [parts, h]
      rfl
  | none =>
      have hpiece := hfirst rfl piece rfl
      simp only [isFiller, Bool.or_eq_false_iff, beq_eq_false_iff_ne] at hpiece
      rw [parts, h]
      cases rest with
      | nil => simp [Lead.pieces, hpiece.2]
      | cons next rest => simp [Lead.pieces, hpiece.1, hpiece.2]

/-- The pieces of a directory behind a start. -/
structure IsFront (lead : Lead) (front : List Text) : Prop where
  not_mem : ∀ piece ∈ front, '/' ∉ piece
  last : ∀ piece ∈ front.getLast?, isFiller piece = false
  first : lead = .none → ∀ piece ∈ front.head?, isFiller piece = false

theorem IsFront.splitOn (h : IsFront lead front) (hne : front ≠ []) :
    Text.splitOn '/' (ofParts lead front).text = lead.pieces ++ front := by
  have hbody : Text.splitOn '/' (['/'].intercalate front) = front := by
    rw [Text.splitOn_eq, List.splitOn_intercalate '/' h.not_mem hne]
  obtain ⟨piece, rest, rfl⟩ := List.exists_cons_of_ne_nil hne
  cases lead with
  | root =>
      change Text.splitOn '/' ('/' :: ['/'].intercalate (piece :: rest)) = _
      rw [Text.splitOn, if_pos rfl, hbody]
      rfl
  | here =>
      change Text.splitOn '/' ('.' :: '/' :: ['/'].intercalate (piece :: rest)) = _
      rw [Text.splitOn, if_neg (by decide), Text.splitOn, if_pos rfl, hbody]
      rfl
  | none => exact hbody

/-- A directory has the components of its start and of its pieces. -/
theorem IsFront.components (h : IsFront lead front) :
    (ofParts lead front).components = lead.components ++ (front.filter (!isFiller ·)).map .ofPiece := by
  by_cases hne : front = []
  · subst hne
    cases lead <;> rfl
  · rw [Path.components, parts_of_splitOn (h.splitOn hne) hne h.first]

/-- A name that is joined to a directory comes behind its pieces. -/
theorem IsFront.splitOn_join (h : IsFront lead front) (hname : name.IsName) :
    Text.splitOn '/' ((ofParts lead front).join name).text = lead.pieces ++ (front ++ [name]) := by
  have hhead : name.head? ≠ some '/' := fun h => hname.not_mem (List.mem_of_mem_head? h)
  have hsingle : Text.splitOn '/' name = [name] := by
    rw [Text.splitOn_eq, List.splitOn_eq_singleton hname.not_mem]
  by_cases hne : front = []
  · subst hne
    cases lead with
    | none =>
        rw [join, if_neg hhead]
        exact hsingle
    | root =>
        rw [Path.splitOn_join (by decide) hname.not_mem]
        rfl
    | here =>
        rw [Path.splitOn_join (by decide) hname.not_mem]
        rfl
  · have hsplit := h.splitOn hne
    have hend : (Text.splitOn '/' (ofParts lead front).text).getLast? ≠ some [] := by
      rw [hsplit, List.getLast?_append_of_ne_nil _ hne]
      intro hlast
      exact absurd (h.last [] hlast) (by decide)
    have htext : (ofParts lead front).text ≠ [] := by
      intro hnil
      exact hend (by rw [hnil]; rfl)
    have hslash : (ofParts lead front).text.getLast? ≠ some '/' := by
      intro hlast
      exact hend (by rw [splitOn_of_getLast? hlast, List.getLast?_concat])
    rw [Path.splitOn_join htext hname.not_mem, hostPieces, if_neg hslash, hsplit, List.append_assoc]

/-- A path is a name in a directory. -/
structure StandsIn (p : Path) (lead : Lead) (front : List Text) (name : Text) : Prop where
  isFront : IsFront lead front
  isName : name.IsName
  parent : p.parent = some (ofParts lead front)
  components : p.components = (ofParts lead front).components ++ [.name name]

theorem dropEndFillers_prefix_self (pieces : List Text) : dropEndFillers pieces <+: pieces :=
  List.rdropWhile_prefix isFiller pieces

theorem dropEndFillers_of_getLast? (h : ∀ piece ∈ front.getLast?, isFiller piece = false) :
    dropEndFillers front = front := by
  refine List.rdropWhile_eq_self_iff.mpr fun hne => ?_
  simp [h _ (List.getLast?_eq_some_getLast hne)]

/-- A filler in front would be the whole path, but the path has a last piece behind it. -/
theorem isFiller_first {last piece : Text} (h : dropEndFillers p.parts.2 = front ++ [last])
    (hnone : p.parts.1 = .none) (hpiece : piece ∈ front.head?) : isFiller piece = false := by
  by_contra hfiller
  have hstart : front ++ [last] <+: p.parts.2 := h ▸ dropEndFillers_prefix_self p.parts.2
  obtain ⟨more, rfl⟩ := List.head?_eq_some_iff.mp hpiece
  have hfirst : p.parts.2.head? = some piece := by
    obtain ⟨tail, htail⟩ := hstart
    rw [← htail]
    rfl
  have hall := (splitOn_eq_parts p).2 hnone piece hfirst (by simpa using hfiller)
  have hlength := hstart.length_le
  rw [hall, List.length_append, List.length_cons, List.length_singleton, List.length_singleton] at hlength
  omega

theorem isFront_dropEndFillers {last : Text} (h : dropEndFillers p.parts.2 = front ++ [last]) :
    IsFront p.parts.1 (dropEndFillers front) := by
  refine ⟨fun piece hpiece => ?_, fun piece hpiece => ?_, fun hnone piece hpiece => ?_⟩
  · have hparts : piece ∈ dropEndFillers p.parts.2 := by
      rw [h]
      exact List.mem_append_left _ (dropEndFillers_subset front hpiece)
    exact not_mem_of_mem_parts (dropEndFillers_subset _ hparts)
  · obtain ⟨before, hbefore⟩ := List.getLast?_eq_some_iff.mp hpiece
    exact isFiller_of_dropEndFillers hbefore
  · obtain ⟨more, hmore⟩ := List.head?_eq_some_iff.mp hpiece
    obtain ⟨tail, htail⟩ := dropEndFillers_prefix_self front
    refine isFiller_first h hnone ?_
    rw [← htail, hmore]
    rfl

/-- A path with a file name ends in the name, fillers aside, and stands in what is written before it. -/
theorem exists_standsIn_pieces (h : p.fileName = some name) : ∃ before,
    dropEndFillers p.parts.2 = before ++ [name] ∧ StandsIn p p.parts.1 (dropEndFillers before) name := by
  rcases List.eq_nil_or_concat (dropEndFillers p.parts.2) with hnil | ⟨front, last, hlast⟩
  · have hcomponents : p.components = p.parts.1.components := by
      rw [Path.components, ← filter_dropEndFillers, hnil]
      simp
    rw [Path.fileName, hcomponents] at h
    cases hlead : p.parts.1 <;> rw [hlead] at h <;> cases h
  · rw [List.concat_eq_append] at hlast
    have hfront := isFront_dropEndFillers hlast
    have hfiller := isFiller_of_dropEndFillers hlast
    have hcomponents : p.components = (ofParts p.parts.1 (dropEndFillers front)).components ++ [.ofPiece last] := by
      rw [hfront.components, filter_dropEndFillers, Path.components, ← filter_dropEndFillers, hlast]
      simp [hfiller]
    have hmem : last ∈ p.parts.2 := dropEndFillers_subset _ (hlast ▸ List.mem_append_right _ List.mem_cons_self)
    simp only [isFiller, Bool.or_eq_false_iff, beq_eq_false_iff_ne] at hfiller
    rw [Path.fileName, hcomponents, List.getLast?_concat, Component.ofPiece] at h
    by_cases hdots : last = ['.', '.']
    · rw [if_pos hdots] at h
      cases h
    · rw [if_neg hdots] at h
      obtain rfl := Option.some.inj h
      refine ⟨front, hlast, hfront, ⟨hfiller.1, not_mem_of_mem_parts hmem, hfiller.2, hdots⟩,
        parent_of_dropEndFillers hlast, ?_⟩
      rw [hcomponents, Component.ofPiece, if_neg hdots]

/-- A path with a file name stands in the directory that its parent is. -/
theorem exists_standsIn (h : p.fileName = some name) : ∃ front, StandsIn p p.parts.1 front name := by
  obtain ⟨before, -, hstands⟩ := exists_standsIn_pieces h
  exact ⟨_, hstands⟩

theorem StandsIn.fileName (h : StandsIn p lead front name) : p.fileName = some name := by
  rw [Path.fileName, h.components, List.getLast?_concat]

/-- Another name in place of the file name stands in the same directory. -/
theorem StandsIn.withFileName (h : StandsIn p lead front name) (hother : other.IsName) :
    StandsIn (p.withFileName other) lead front other := by
  have hpath : p.withFileName other = (ofParts lead front).join other := by
    simp only [Path.withFileName, h.fileName, h.parent, Option.getD_some]
  have hparts : ((ofParts lead front).join other).parts = (lead, front ++ [other]) := by
    refine parts_of_splitOn (h.isFront.splitOn_join hother) (by simp) fun hnone piece hpiece => ?_
    cases front with
    | nil =>
        obtain rfl := Option.some.inj hpiece
        exact hother.isFiller
    | cons first rest => exact h.isFront.first hnone piece hpiece
  have hdrop : dropEndFillers ((ofParts lead front).join other).parts.2 = front ++ [other] := by
    rw [hparts, dropEndFillers_concat, hother.isFiller]
    rfl
  rw [hpath]
  refine ⟨h.isFront, hother, ?_, ?_⟩
  · rw [parent_of_dropEndFillers hdrop, hparts, dropEndFillers_of_getLast? h.isFront.last]
  · rw [h.isFront.components, Path.components, hparts]
    simp [hother.isFiller, Component.ofPiece, hother.ne_dots]

end CompileFail.Path
