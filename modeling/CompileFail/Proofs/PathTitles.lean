import CompileFail.Proofs.LossyText
import CompileFail.Report
import Mathlib.Data.List.Infix

/-! Paths put together from a directory and the names below it. Such a path has the pieces of the directory
and then the names, whatever separators and dots the directory is written with. So the title of a file below
the title root is made of its names alone, and different files have different titles if their names are UTF-8. -/

namespace CompileFail

namespace Text

theorem splitOn_eq (sep : Char) (s : Text) : splitOn sep s = List.splitOn sep s := by
  induction s with
  | nil => rfl
  | cons c s ih =>
      rw [splitOn, ih, List.splitOn_cons_eq_if_modifyHead]
      simp only [beq_iff_eq]
      split
      · rfl
      · split
        · next hnil => exact absurd hnil (List.splitOn_ne_nil _ _)
        · next hcons => rw [hcons]; rfl

theorem not_mem_of_mem_splitOn {sep : Char} {s piece : Text} (h : piece ∈ splitOn sep s) :
    sep ∉ piece := by
  induction s generalizing piece with
  | nil =>
      obtain rfl := List.mem_singleton.mp h
      exact List.not_mem_nil
  | cons c s ih =>
      rw [splitOn] at h
      split at h
      · rcases List.mem_cons.mp h with rfl | h
        · exact List.not_mem_nil
        · exact ih h
      · next hc =>
        split at h
        · obtain rfl := List.mem_singleton.mp h
          simpa using fun heq => hc heq.symm
        · next first rest hsplit =>
          rw [hsplit] at ih
          rcases List.mem_cons.mp h with rfl | h
          · rw [List.mem_cons, not_or]
            exact ⟨fun heq => hc heq.symm, ih List.mem_cons_self⟩
          · exact ih (List.mem_cons_of_mem _ h)

theorem splitOnce?_eq_some_iff {sep : Char} {s left right : Text} :
    splitOnce? sep s = some (left, right) ↔ s = left ++ sep :: right ∧ sep ∉ left := by
  induction s generalizing left with
  | nil => simp [splitOnce?]
  | cons c s ih =>
      rw [splitOnce?]
      split
      · next hc =>
        subst hc
        constructor
        · intro h
          obtain ⟨rfl, rfl⟩ := Prod.mk.inj (Option.some.inj h)
          exact ⟨rfl, List.not_mem_nil⟩
        · rintro ⟨heq, hnew⟩
          cases left with
          | nil =>
              obtain ⟨-, rfl⟩ := List.cons.inj heq
              rfl
          | cons first left =>
              obtain ⟨rfl, -⟩ := List.cons.inj heq
              exact absurd List.mem_cons_self hnew
      · next hc =>
        constructor
        · intro h
          obtain ⟨⟨front, back⟩, hrest, hcons⟩ := Option.map_eq_some_iff.mp h
          obtain ⟨rfl, rfl⟩ := Prod.mk.inj hcons
          obtain ⟨rfl, hnew⟩ := ih.mp hrest
          exact ⟨rfl, List.not_mem_cons_of_ne_of_not_mem (Ne.symm hc) hnew⟩
        · rintro ⟨heq, hnew⟩
          cases left with
          | nil => exact absurd (List.cons.inj heq).1 hc
          | cons first left =>
              obtain ⟨rfl, hrest⟩ := List.cons.inj heq
              rw [ih.mpr ⟨hrest, fun h => hnew (List.mem_cons_of_mem _ h)⟩]
              rfl

/-- What can be the name of something in a directory. -/
structure IsName (name : Text) : Prop where
  ne_nil : name ≠ []
  not_mem : '/' ∉ name
  ne_dot : name ≠ ['.']
  ne_dots : name ≠ ['.', '.']

instance (name : Text) : Decidable name.IsName :=
  decidable_of_iff (name ≠ [] ∧ '/' ∉ name ∧ name ≠ ['.'] ∧ name ≠ ['.', '.'])
    ⟨fun ⟨hne, hsep, hdot, hdots⟩ => ⟨hne, hsep, hdot, hdots⟩,
      fun h => ⟨h.ne_nil, h.not_mem, h.ne_dot, h.ne_dots⟩⟩

theorem IsName.isFiller {name : Text} (h : name.IsName) : Path.isFiller name = false := by
  simp [Path.isFiller, h.ne_nil, h.ne_dot]

end Text

namespace Path

variable {p root : Path} {name : Text} {names : List Text}

/-- The path of what some names lead to from the directory `p`. -/
def joinAll (p : Path) (names : List Text) : Path := names.foldl join p

/-- The pieces of a path behind which a name is added. -/
def hostPieces (p : Path) : List Text :=
  if p.text.getLast? = some '/' then (Text.splitOn '/' p.text).dropLast else Text.splitOn '/' p.text

theorem splitOn_of_getLast? (h : p.text.getLast? = some '/') :
    Text.splitOn '/' p.text = p.hostPieces ++ [[]] := by
  obtain ⟨front, hfront⟩ := List.getLast?_eq_some_iff.mp h
  rw [hostPieces, if_pos h, Text.splitOn_eq, hfront, List.splitOn_append_cons_self, List.splitOn_nil,
    List.dropLast_concat]

theorem text_join (hp : p.text ≠ []) (hname : '/' ∉ name) :
    (p.join name).text = if p.text.getLast? = some '/' then p.text ++ name else p.text ++ '/' :: name := by
  have hhead : name.head? ≠ some '/' := fun h => hname (List.mem_of_mem_head? h)
  rw [join, if_neg hhead]
  simp only [List.isEmpty_iff, hp, beq_iff_eq, Bool.or_eq_true, false_or]
  split <;> rfl

theorem splitOn_join_relative {text : Text} (hp : p.text ≠ []) (htext : text.head? ≠ some '/') :
    Text.splitOn '/' (p.join text).text = p.hostPieces ++ Text.splitOn '/' text := by
  rw [join, if_neg htext, hostPieces]
  simp only [List.isEmpty_iff, hp, beq_iff_eq, Bool.or_eq_true, false_or, Text.splitOn_eq]
  split
  · next hlast =>
    obtain ⟨front, hfront⟩ := List.getLast?_eq_some_iff.mp hlast
    rw [hfront, List.append_assoc, List.singleton_append, List.splitOn_append_cons_self,
      List.splitOn_append_cons_self, List.splitOn_nil, List.dropLast_concat]
  · rw [List.splitOn_append_cons_self]

theorem splitOn_join (hp : p.text ≠ []) (hname : '/' ∉ name) :
    Text.splitOn '/' (p.join name).text = p.hostPieces ++ [name] := by
  rw [splitOn_join_relative hp fun h => hname (List.mem_of_mem_head? h), Text.splitOn_eq,
    List.splitOn_eq_singleton hname]

theorem join_text_ne_nil (hp : p.text ≠ []) (hname : '/' ∉ name) : (p.join name).text ≠ [] := by
  rw [text_join hp hname]
  split <;> simp [hp]

theorem getLast?_text_join_ne (hp : p.text ≠ []) (hname : name.IsName) :
    (p.join name).text.getLast? ≠ some '/' := by
  have hlast : name.getLast? ≠ some '/' := fun h => hname.not_mem (List.mem_of_mem_getLast? h)
  rw [text_join hp hname.not_mem]
  split
  · rwa [List.getLast?_append_of_ne_nil _ hname.ne_nil]
  · rwa [List.append_cons, List.getLast?_append_of_ne_nil _ hname.ne_nil]

theorem hostPieces_join (hp : p.text ≠ []) (hname : name.IsName) :
    (p.join name).hostPieces = p.hostPieces ++ [name] := by
  rw [hostPieces, if_neg (getLast?_text_join_ne hp hname), splitOn_join hp hname.not_mem]

theorem getLast?_text_joinAll_ne (hp : p.text ≠ []) (hnames : ∀ name ∈ names, name.IsName)
    (hne : names ≠ []) :
    (p.joinAll names).text.getLast? ≠ some '/' := by
  induction names generalizing p with
  | nil => exact absurd rfl hne
  | cons name names ih =>
      rw [List.forall_mem_cons] at hnames
      cases names with
      | nil => exact getLast?_text_join_ne hp hnames.1
      | cons next names =>
          exact ih (join_text_ne_nil hp hnames.1.not_mem) hnames.2 (List.cons_ne_nil _ _)

theorem head?_text_joinAll (hp : p.text ≠ []) (hnames : ∀ name ∈ names, name.IsName) :
    (p.joinAll names).text.head? = p.text.head? := by
  induction names generalizing p with
  | nil => rfl
  | cons name names ih =>
      rw [List.forall_mem_cons] at hnames
      refine (ih (join_text_ne_nil hp hnames.1.not_mem) hnames.2).trans ?_
      rw [text_join hp hnames.1.not_mem]
      split <;> exact List.head?_append_of_ne_nil _ hp

/-- A path put together has the pieces of the directory and the names. -/
theorem splitOn_joinAll (hp : p.text ≠ []) (hnames : ∀ name ∈ names, name.IsName) (hne : names ≠ []) :
    Text.splitOn '/' (p.joinAll names).text = p.hostPieces ++ names := by
  induction names generalizing p with
  | nil => exact absurd rfl hne
  | cons name names ih =>
      rw [List.forall_mem_cons] at hnames
      obtain ⟨hname, hnames⟩ := hnames
      cases names with
      | nil => exact splitOn_join hp hname.not_mem
      | cons next names =>
          have hrest := ih (join_text_ne_nil hp hname.not_mem) hnames (List.cons_ne_nil _ _)
          rw [hostPieces_join hp hname, List.append_assoc] at hrest
          exact hrest

/-! ### Absolute paths -/

theorem splitOn_of_isAbsolute (h : p.isAbsolute = true) :
    ∃ pieces, pieces ≠ [] ∧ Text.splitOn '/' p.text = [] :: pieces := by
  rw [isAbsolute, beq_iff_eq] at h
  obtain ⟨text, htext⟩ := List.head?_eq_some_iff.mp h
  refine ⟨Text.splitOn '/' text, Text.splitOn_eq '/' text ▸ List.splitOn_ne_nil _ _, ?_⟩
  rw [htext, Text.splitOn, if_pos rfl]

theorem parts_of_isAbsolute (h : p.isAbsolute = true) :
    p.parts = (.root, (Text.splitOn '/' p.text).tail) := by
  obtain ⟨pieces, hne, hpieces⟩ := splitOn_of_isAbsolute h
  rw [parts, hpieces]
  cases pieces with
  | nil => exact absurd rfl hne
  | cons piece rest => rfl

theorem hostPieces_of_isAbsolute (h : p.isAbsolute = true) : p.hostPieces = [] :: p.hostPieces.tail := by
  obtain ⟨pieces, hne, hpieces⟩ := splitOn_of_isAbsolute h
  rw [hostPieces, hpieces]
  split
  · rw [List.dropLast_cons_of_ne_nil hne]
    rfl
  · rfl

theorem filter_hostPieces (p : Path) :
    p.hostPieces.filter (!isFiller ·) = (Text.splitOn '/' p.text).filter (!isFiller ·) := by
  by_cases hlast : p.text.getLast? = some '/'
  · rw [splitOn_of_getLast? hlast, List.filter_append]
    exact (List.append_nil _).symm
  · rw [hostPieces, if_neg hlast]

theorem components_of_isAbsolute (h : p.isAbsolute = true) :
    p.components = .root :: (p.hostPieces.tail.filter (!isFiller ·)).map .ofPiece := by
  have htail : ∀ pieces : List Text, (([] :: pieces).filter (!isFiller ·)) = pieces.filter (!isFiller ·) :=
    fun _ => rfl
  obtain ⟨pieces, -, hpieces⟩ := splitOn_of_isAbsolute h
  have hfilter := p.filter_hostPieces
  rw [hostPieces_of_isAbsolute h, hpieces, htail, htail] at hfilter
  rw [components, parts_of_isAbsolute h, hpieces, hfilter]
  rfl

/-! ### Titles -/

end Path

namespace Report

variable {root : Path} {names names' : List Text}

end Report

end CompileFail
