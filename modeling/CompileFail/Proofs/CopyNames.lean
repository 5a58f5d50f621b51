import CompileFail.Proofs.SiblingPaths
import CompileFail.Verifier

/-! The names of copies. A copy stands beside its file, and its name is made from the name of the file as it is
shown, the name of the tool and the number of the line. From the name of a copy the shown name of the file and
the line can be told, since an extension holds no dot, a number holds neither a dash nor a dot, and a file without
an extension has no dot behind its first character. So different lines have different copies, whatever the tool is
called, unless the names of the files are shown alike; names that are UTF-8 are so only if they are the same. -/

namespace CompileFail

/-! ### Names -/

namespace Text

variable {sep : Char} {left left' right right' : Text}

theorem ofNat_injective {n m : Nat} (h : ofNat n = ofNat m) : n = m :=
  calc n = Nat.ofDigitChars 10 (Nat.toDigits 10 n) 0 := Nat.ofDigitChars_ten_toDigits.symm
    _ = Nat.ofDigitChars 10 (Nat.toDigits 10 m) 0 := congrArg (Nat.ofDigitChars 10 · 0) h
    _ = m := Nat.ofDigitChars_ten_toDigits

theorem not_mem_ofNat {c : Char} (hc : c.isDigit = false) (n : Nat) : c ∉ ofNat n := by
  intro h
  rw [Nat.isDigit_of_mem_toDigits (by decide) (by decide) h] at hc
  cases hc

theorem splitOnce?_eq_none_iff {s : Text} : splitOnce? sep s = none ↔ sep ∉ s := by
  induction s with
  | nil => simp [splitOnce?]
  | cons c s ih =>
      rw [splitOnce?]
      by_cases hc : c = sep
      · simp [hc]
      · simp [hc, ih, Ne.symm hc]

/-- At its last separator a text is cut in one way. -/
theorem cut_at_last (h : sep ∉ right) (h' : sep ∉ right') (heq : left ++ sep :: right = left' ++ sep :: right') :
    left = left' ∧ right = right' := by
  have hreverse := congrArg List.reverse heq
  simp only [List.reverse_append, List.reverse_cons, List.append_assoc, List.singleton_append] at hreverse
  have hcut : splitOnce? sep (right.reverse ++ sep :: left.reverse) = some (right.reverse, left.reverse) :=
    splitOnce?_eq_some_iff.mpr ⟨rfl, by simpa using h⟩
  have hcut' : splitOnce? sep (right'.reverse ++ sep :: left'.reverse) = some (right'.reverse, left'.reverse) :=
    splitOnce?_eq_some_iff.mpr ⟨rfl, by simpa using h'⟩
  rw [hreverse, hcut', Option.some.injEq, Prod.mk.injEq, List.reverse_inj, List.reverse_inj] at hcut
  exact ⟨hcut.2.symm, hcut.1.symm⟩

theorem isName_of_dash {name : Text} (hdash : '-' ∈ name) (hslash : '/' ∉ name) : name.IsName where
  ne_nil h := by simp [h] at hdash
  not_mem := hslash
  ne_dot h := by simp [h] at hdash
  ne_dots h := by simp [h] at hdash

end Text

/-- What the name of a copy holds behind the stem: the name of the tool and the number of the line. -/
def copyMark (index : Nat) (toolName : Text) : Text := '.' :: (toolName ++ '-' :: Text.ofNat (index + 1))

/-- The name of the copy of a file that is shown by a given name. -/
def markedName (name : Text) (index : Nat) (toolName : Text) : Text :=
  match Path.splitExtension name with
  | (stem, some extension) => stem ++ copyMark index toolName ++ '.' :: extension
  | (stem, none) => stem ++ copyMark index toolName

section Names

variable {name name' stem extension toolName : Text} {i j : Nat}

theorem Path.splitExtension_append (hstem : stem ≠ []) (hextension : '.' ∉ extension) :
    Path.splitExtension (stem ++ '.' :: extension) = (stem, some extension) := by
  have hsplit : Text.splitOnce? '.' (stem ++ '.' :: extension).reverse =
      some (extension.reverse, stem.reverse) :=
    Text.splitOnce?_eq_some_iff.mpr ⟨by simp, by simpa using hextension⟩
  rw [Path.splitExtension, hsplit]
  simp [hstem]

/-- A name has a stem and an extension without dots, or it has no dot behind its first character. -/
theorem Path.splitExtension_cases (name : Text) :
    (∃ stem extension, splitExtension name = (stem, some extension) ∧ name = stem ++ '.' :: extension ∧
      stem ≠ [] ∧ '.' ∉ extension) ∨
    splitExtension name = (name, none) ∧ '.' ∉ name.tail := by
  cases hsplit : Text.splitOnce? '.' name.reverse with
  | none =>
      have hdot : '.' ∉ name := by simpa using Text.splitOnce?_eq_none_iff.mp hsplit
      exact Or.inr ⟨by rw [splitExtension, hsplit], fun h => hdot (List.mem_of_mem_tail h)⟩
  | some cut =>
      obtain ⟨back, front⟩ := cut
      obtain ⟨hreverse, hdot⟩ := Text.splitOnce?_eq_some_iff.mp hsplit
      have hname : name = front.reverse ++ '.' :: back.reverse := by
        simpa using congrArg List.reverse hreverse
      have hback : '.' ∉ back.reverse := by simpa using hdot
      by_cases hfront : front = []
      · subst hfront
        refine Or.inr ⟨by rw [splitExtension, hsplit]; rfl, ?_⟩
        rw [hname]
        exact hback
      · have hstem : front.reverse ≠ [] := by simpa using hfront
        refine Or.inl ⟨front.reverse, back.reverse, ?_, hname, hstem, hback⟩
        rw [hname]
        exact splitExtension_append hstem hback

theorem Path.splitExtension_of_tail (h : '.' ∉ name.tail) : splitExtension name = (name, none) := by
  rcases splitExtension_cases name with ⟨stem, extension, -, rfl, hstem, -⟩ | ⟨hnone, -⟩
  · obtain ⟨first, rest, rfl⟩ := List.exists_cons_of_ne_nil hstem
    exact absurd (by simp) h
  · exact hnone

theorem markedName_of_extension (hstem : stem ≠ []) (hextension : '.' ∉ extension) (i : Nat) (toolName : Text) :
    markedName (stem ++ '.' :: extension) i toolName = stem ++ copyMark i toolName ++ '.' :: extension := by
  rw [markedName, Path.splitExtension_append hstem hextension]

theorem markedName_of_not_mem (h : Path.splitExtension name = (name, none)) (i : Nat) (toolName : Text) :
    markedName name i toolName = name ++ copyMark i toolName := by
  rw [markedName, h]

theorem copyMark_inj (h : stem ++ copyMark i toolName = name ++ copyMark j toolName) : stem = name ∧ i = j := by
  have hmark : ∀ (s : Text) n, s ++ copyMark n toolName =
      (s ++ '.' :: toolName) ++ '-' :: Text.ofNat (n + 1) := by simp [copyMark]
  rw [hmark, hmark] at h
  have hdash : ∀ n, '-' ∉ Text.ofNat n := Text.not_mem_ofNat (by decide)
  obtain ⟨hfront, hnumber⟩ := Text.cut_at_last (hdash _) (hdash _) h
  exact ⟨List.append_cancel_right hfront, Nat.succ.inj (Text.ofNat_injective hnumber)⟩

theorem count_copyMark (i : Nat) (toolName : Text) :
    (copyMark i toolName).count '.' = toolName.count '.' + 1 := by
  have hnumber : (Text.ofNat (i + 1)).count '.' = 0 :=
    List.count_eq_zero.mpr (Text.not_mem_ofNat (by decide) _)
  simp [copyMark, hnumber]

/-- The copy of a file with an extension has a dot more than that of a file without one can have. -/
theorem markedName_ne (hstem : stem ≠ []) (hextension : '.' ∉ extension) (hname : '.' ∉ name.tail) :
    name ++ copyMark i toolName ≠ stem ++ copyMark j toolName ++ '.' :: extension := by
  intro h
  have hcount := congrArg (List.count '.') h
  have hnone : extension.count '.' = 0 := List.count_eq_zero.mpr hextension
  simp only [List.count_append, count_copyMark, List.count_cons_self, hnone] at hcount
  cases name with
  | nil =>
      rw [List.count_nil] at hcount
      omega
  | cons first rest =>
      have hrest : rest.count '.' = 0 := List.count_eq_zero.mpr hname
      obtain ⟨first', stem, rfl⟩ := List.exists_cons_of_ne_nil hstem
      obtain ⟨rfl, -⟩ := List.cons.inj h
      rw [List.count_cons, List.count_cons, hrest] at hcount
      omega

/-- The name of a copy tells the name of the file and the line. -/
theorem markedName_inj (h : markedName name i toolName = markedName name' j toolName) : name = name' ∧ i = j := by
  rcases Path.splitExtension_cases name with ⟨stem, extension, -, rfl, hstem, hextension⟩ | ⟨hnone, hdot⟩ <;>
    rcases Path.splitExtension_cases name' with
      ⟨stem', extension', -, rfl, hstem', hextension'⟩ | ⟨hnone', hdot'⟩
  · rw [markedName_of_extension hstem hextension, markedName_of_extension hstem' hextension'] at h
    obtain ⟨hmarked, rfl⟩ := Text.cut_at_last hextension hextension' h
    obtain ⟨rfl, rfl⟩ := copyMark_inj hmarked
    exact ⟨rfl, rfl⟩
  · rw [markedName_of_extension hstem hextension, markedName_of_not_mem hnone'] at h
    exact absurd h.symm (markedName_ne hstem hextension hdot')
  · rw [markedName_of_not_mem hnone, markedName_of_extension hstem' hextension'] at h
    exact absurd h (markedName_ne hstem' hextension' hdot)
  · rw [markedName_of_not_mem hnone, markedName_of_not_mem hnone'] at h
    exact copyMark_inj h

theorem markedName_ne_self (name : Text) (i : Nat) (toolName : Text) : markedName name i toolName ≠ name := by
  intro h
  have hlength := congrArg List.length h
  rcases Path.splitExtension_cases name with ⟨stem, extension, -, rfl, hstem, hextension⟩ | ⟨hnone, -⟩
  · rw [markedName_of_extension hstem hextension] at hlength
    simp [copyMark] at hlength
    omega
  · rw [markedName_of_not_mem hnone] at hlength
    simp [copyMark] at hlength

/-- A name is shown as its stem and its extension are. -/
theorem Path.splitExtension_toText (name : Octets) :
    splitExtension (Octets.toText name) =
      (Octets.toText (splitExtension name).1, (splitExtension name).2.map Octets.toText) := by
  have hshown : ∀ {s : Octets}, '.' ∉ s → '.' ∉ Octets.toText s := fun h hmem =>
    h (Octets.mem_of_mem_toText (by decide) (by decide) hmem)
  rcases splitExtension_cases name with ⟨stem, extension, hsplit, rfl, hstem, hdot⟩ | ⟨hnone, hdot⟩
  · rw [hsplit, Octets.toText_append_cons (by decide)]
    exact splitExtension_append (Octets.toText_ne_nil hstem) (hshown hdot)
  · rw [hnone]
    refine splitExtension_of_tail ?_
    cases name with
    | nil => exact hdot
    | cons first rest =>
        by_cases hfirst : first = '.'
        · subst hfirst
          have hcons := Octets.toText_append_cons (c := '.') (by decide) [] rest
          rw [List.nil_append] at hcons
          rw [hcons]
          exact hshown hdot
        · refine fun hmem => hshown (s := first :: rest) ?_ (List.mem_of_mem_tail hmem)
          rw [List.mem_cons, not_or]
          exact ⟨Ne.symm hfirst, hdot⟩

end Names

/-! ### Copies -/

section Copies

variable {p q : Path} {name name' : Octets} {toolName : Text} {i j : Nat}

theorem copyName_eq (h : p.fileName = some name) (i : Nat) (toolName : Text) :
    copyName p i toolName = markedName (Octets.toText name) i toolName := by
  have hstem : p.stem.getD [] = (Path.splitExtension name).1 := by rw [Path.stem, h]; rfl
  have hextension : p.extension = (Path.splitExtension name).2 := by rw [Path.extension, h]; rfl
  rw [copyName, hstem, hextension, markedName, Path.splitExtension_toText]
  cases (Path.splitExtension name).2 <;> simp [copyMark]

theorem isName_copyName (hname : '/' ∉ name) (htool : '/' ∉ toolName) (i : Nat) :
    (Octets.ofText (markedName (Octets.toText name) i toolName)).IsName := by
  have hshown : '/' ∉ Octets.toText name := fun h => hname (Octets.mem_of_mem_toText (by decide) (by decide) h)
  have hmark : '/' ∉ copyMark i toolName := by
    simp [copyMark, htool, Text.not_mem_ofNat (c := '/') (by decide)]
  have hdash : '-' ∈ copyMark i toolName := by simp [copyMark]
  refine Text.isName_of_dash ((Octets.mem_ofText_iff (by decide)).mpr ?_)
    (mt (Octets.mem_ofText_iff (by decide)).mp ?_)
  · rcases Path.splitExtension_cases (Octets.toText name) with ⟨stem, extension, -, heq, hstem, hdot⟩ | ⟨hnone, -⟩
    · rw [heq, markedName_of_extension hstem hdot]
      simp [hdash]
    · rw [markedName_of_not_mem hnone]
      simp [hdash]
  · rcases Path.splitExtension_cases (Octets.toText name) with ⟨stem, extension, -, heq, hstem, hdot⟩ | ⟨hnone, -⟩
    · rw [heq] at hshown
      rw [heq, markedName_of_extension hstem hdot]
      simp_all
    · rw [markedName_of_not_mem hnone]
      simp [hshown, hmark]

/-- The copy of a file that is a name in a directory is a name in the same directory. -/
theorem copyPath_standsIn {lead : Path.Lead} {front : List Octets} (h : Path.StandsIn p lead front name)
    (htool : '/' ∉ toolName) (i : Nat) :
    Path.StandsIn (copyPath p i toolName) lead front
      (Octets.ofText (markedName (Octets.toText name) i toolName)) := by
  rw [copyPath, copyName_eq h.fileName]
  exact h.withFileName (isName_copyName h.isName.not_mem htool i)

theorem extension_copyPath {extension : Octets} (htool : '/' ∉ toolName) (hp : p.fileName = some name)
    (hextension : p.extension = some extension) (i : Nat) :
    (copyPath p i toolName).extension = some (Octets.ofText (Octets.toText extension)) := by
  obtain ⟨front, hfront⟩ := Path.exists_standsIn hp
  rw [Path.extension, hp, Option.bind_some] at hextension
  rw [Path.extension, (copyPath_standsIn hfront htool i).fileName, Option.bind_some]
  rcases Path.splitExtension_cases name with ⟨stem, extension', hsplit, rfl, hstem, hdot⟩ | ⟨hnone, -⟩
  · rw [hsplit] at hextension
    obtain rfl := Option.some.inj hextension
    have hshown : '.' ∉ Octets.toText extension' := fun h =>
      hdot (Octets.mem_of_mem_toText (by decide) (by decide) h)
    rw [Octets.toText_append_cons (by decide), markedName_of_extension (Octets.toText_ne_nil hstem) hshown,
      Octets.ofText_append, Octets.ofText_cons_of_ascii (by decide), Octets.ofText_append,
      Path.splitExtension_append]
    · rw [copyMark, Octets.ofText_cons_of_ascii (by decide)]
      simp
    · exact mt (Octets.mem_ofText_iff (by decide)).mp hshown
  · rw [hnone] at hextension
    cases hextension

/-- Copies are at the same place exactly if they are copies for the same line of files in the same directory whose
names are shown alike; of names that are UTF-8 it is the same file. A copy stands beside its file, has the
extension of its file as it is shown, and is another file. -/
theorem copyPath_distinct (htool : '/' ∉ toolName) (hp : p.fileName = some name) (hq : q.fileName = some name')
    (i j : Nat) :
    ((copyPath p i toolName).same (copyPath q j toolName) = true ↔
      p.parent.map Path.components = q.parent.map Path.components ∧
        Octets.toText name = Octets.toText name' ∧ i = j) ∧
    (name.IsText → name'.IsText → (copyPath p i toolName).same (copyPath q j toolName) = true → name = name') ∧
    (copyPath p i toolName).parent = p.parent ∧
    (∀ extension, p.extension = some extension →
      (copyPath p i toolName).extension = some (Octets.ofText (Octets.toText extension)) ∧
        ((copyPath p i toolName).extension = some extension ↔ extension.IsText)) ∧
    (copyPath p i toolName).same p = false := by
  obtain ⟨front, hfront⟩ := Path.exists_standsIn hp
  obtain ⟨front', hfront'⟩ := Path.exists_standsIn hq
  have hcopy := copyPath_standsIn hfront htool i
  have hcopy' := copyPath_standsIn hfront' htool j
  have hclash : (copyPath p i toolName).same (copyPath q j toolName) = true ↔
      p.parent.map Path.components = q.parent.map Path.components ∧
        Octets.toText name = Octets.toText name' ∧ i = j := by
    rw [hfront.parent, hfront'.parent, Option.map_some, Option.map_some, Option.some.injEq, Path.same,
      beq_iff_eq, hcopy.components, hcopy'.components]
    constructor
    · intro hsame
      obtain ⟨hdir, hname⟩ := List.append_inj' hsame rfl
      have hmarked := Octets.ofText_injective (Path.Component.name.inj (List.singleton_inj.mp hname))
      exact ⟨hdir, markedName_inj hmarked⟩
    · rintro ⟨hdir, hname, rfl⟩
      rw [hdir, hname]
  refine ⟨hclash, fun htext htext' hsame => htext.eq_of_toText_eq htext' (hclash.mp hsame).2.1, ?_,
    fun extension hextension => ?_, ?_⟩
  · rw [hcopy.parent, hfront.parent]
  · have hshown := extension_copyPath htool hp hextension i
    refine ⟨hshown, ?_⟩
    rw [hshown, Option.some.injEq]
    exact ⟨fun heq => ⟨_, heq.symm⟩, Octets.IsText.ofText_toText⟩
  · rw [Path.same, beq_eq_false_iff_ne, hcopy.components, hfront.components]
    intro heq
    obtain ⟨-, hname⟩ := List.append_inj' heq rfl
    have hself := Path.Component.name.inj (List.singleton_inj.mp hname)
    have hshown := congrArg Octets.toText hself
    rw [Octets.toText_ofText] at hshown
    exact markedName_ne_self _ i toolName hshown

/-- Two spellings of a file whose name looks like that of a copy. -/
theorem copyPath_distinct_respelled :
    let p : Path := ⟨"./x//Foo.checkce-5"⟩
    let q : Path := ⟨"./x/./Foo.checkce-5/"⟩
    '/' ∉ ("checkce" : Text) ∧ p.fileName = some "Foo.checkce-5".toList ∧
      q.fileName = some "Foo.checkce-5".toList ∧
      (copyPath p 4 "checkce").same (copyPath q 4 "checkce") = true ∧
      p.parent.map Path.components = q.parent.map Path.components ∧
      (copyPath q 4 "checkce").parent = q.parent ∧ (copyPath q 4 "checkce").same q = false := by
  intro p q
  have htool : '/' ∉ ("checkce" : Text) := by decide
  have hp : p.fileName = some "Foo.checkce-5".toList := by decide
  have hq : q.fileName = some "Foo.checkce-5".toList := by decide
  have hparents : p.parent.map Path.components = q.parent.map Path.components := by decide
  obtain ⟨hclash, -⟩ := copyPath_distinct htool hp hq 4 4
  obtain ⟨-, -, hparent, -, hself⟩ := copyPath_distinct htool hq hp 4 4
  exact ⟨htool, hp, hq, hclash.mpr ⟨hparents, rfl, rfl⟩, hparents, hparent, hself⟩

/-- Two files in one directory whose names are no text have one copy between them, and a copy does not keep an
extension that is no text. -/
theorem copyPath_clash :
    let p : Path := ⟨"/t/\xfe.cpp"⟩
    let q : Path := ⟨"/t/\xff.cpp"⟩
    let r : Path := ⟨"/t/a.\xff"⟩
    p.fileName = some "\xfe.cpp".toList ∧ q.fileName = some "\xff.cpp".toList ∧
      p.fileName ≠ q.fileName ∧ copyPath p 0 "checkce" = copyPath q 0 "checkce" ∧
      r.extension = some "\xff".toList ∧ (copyPath r 0 "checkce").extension ≠ some "\xff".toList := by
  decide +kernel

end Copies

end CompileFail
