import CompileFail.Proofs.Activation
import Mathlib.Logic.Function.Iterate

/-! Lines that are activated again and again. Activation takes away nothing that a token could start with or end
in, so an activated line holds the one token that the line had, with the same text behind it. Read again, such a
line is either no comment any more, or it is a comment within the comment and names the same error. It gets
shorter each time, so in the end it is no comment. The copy of a file is tagged where the file is. -/

namespace CompileFail.Tag

/-- A line with its comment opened if its tag is well formed. -/
def opened (line : Text) : Text :=
  match scan line with
  | .occurrence o => o.activated
  | _ => line

variable {line text : Text} {o : Occurrence} {index : Nat}

theorem opened_of_scan (h : scan line = .occurrence o) : opened line = o.activated := by
  rw [opened, h]

theorem count_blanks_append {blanks : Text} (hblanks : ∀ c ∈ blanks, isBlank c = true) (s : Text) :
    count (blanks ++ s) = count s := by
  induction blanks with
  | nil => rfl
  | cons c blanks ih =>
      rw [List.forall_mem_cons] at hblanks
      have hc : c ≠ '[' := by
        rintro rfl
        exact absurd hblanks.1 (by decide)
      rw [List.cons_append, count_cons_of_ne hc, ih hblanks.2]

/-- No token starts in front of the code, neither with the opener nor without it. -/
theorem count_activated (hline : '\n' ∉ line.dropLast) (h : scan line = .occurrence o) :
    count o.activated = count line := by
  obtain ⟨indentation, first, rest, hblank, -, -, rfl, hactivated⟩ := exists_opener_of_scan hline h
  rw [hactivated, count_blanks_append hblank, count_blanks_append hblank, count_cons_of_ne (by decide),
    count_cons_of_ne (by decide)]
  split
  · next hspace => rw [hspace, count_cons_of_ne (by decide)]
  · rfl

theorem holdsTag_activated (hline : '\n' ∉ line.dropLast) (h : scan line = .occurrence o) :
    HoldsTag o.activated := by
  rw [HoldsTag, ← count_pos_iff, count_activated hline h, count_of_scan h]
  exact Nat.one_pos

theorem length_activated (hline : '\n' ∉ line.dropLast) (h : scan line = .occurrence o) :
    o.activated.length + 2 ≤ line.length := by
  obtain ⟨indentation, first, rest, -, -, -, rfl, hactivated⟩ := exists_opener_of_scan hline h
  rw [hactivated]
  split <;> simp only [List.length_append, List.length_cons] <;> omega

/-- A line that names the same error as another one. -/
def SameTag (o : Occurrence) (line : Text) : Prop :=
  ∃ again, scan line = .occurrence again ∧ again.configuration = o.configuration ∧ again.expected = o.expected

/-- With a token and a message, all that may be wrong with a line is what stands in front of the token. -/
theorem scanBody_of_around {body terminator before after expected : Text} {configuration : Option Text}
    (haround : around? body = some ⟨before, configuration, after⟩) (hexpected : expected? after = some expected)
    (hnamed : configuration ≠ some []) : scanBody body terminator = .malformed .incorrectFormat ∨
      ∃ again, scanBody body terminator = .occurrence again ∧ again.configuration = configuration ∧
        again.expected = expected := by
  rw [scanBody, haround]
  simp only [hexpected]
  split
  · next indentation first rest message hcomment hmessage =>
    obtain rfl := Option.some.inj hmessage
    by_cases hends : endsInComment rest = true
    · right
      simp only [hends, Bool.not_true, Bool.false_eq_true, if_false, if_neg hnamed]
      exact ⟨_, rfl, rfl, rfl⟩
    · left
      simp only [hends, Bool.not_false, if_true]
  · exact Or.inl rfl

theorem scan_activated (hline : '\n' ∉ line.dropLast) (h : scan line = .occurrence o) :
    scan o.activated = .malformed .incorrectFormat ∨ SameTag o o.activated := by
  have hcount : count o.activated = 1 := (count_activated hline h).trans (count_of_scan h)
  have hterminator := (activated_isLine hline h).2.2
  obtain ⟨parts, hparts, hnamed, rfl⟩ := exists_describes_of_scan hline h
  generalize (Text.splitTerminator line).2 = terminator at hcount hterminator ⊢
  have hactivated : (Text.splitTerminator (parts.activated ++ terminator)).1 = parts.activated := by
    have happend := Text.splitTerminator_append (parts.activated ++ terminator)
    rw [hterminator] at happend
    exact List.append_cancel_right happend
  have haround : around? parts.activated = some ⟨parts.indentation ++
      (if parts.first = ' ' then [] else [parts.first]) ++ parts.code, parts.configuration, parts.after⟩ :=
    (around?_eq_some_iff hcount).mpr ⟨hparts.1.nameable, rfl⟩
  rw [SameTag, scan_of_count_one hcount, hactivated]
  exact scanBody_of_around haround (hparts.expected (Text.not_mem_splitTerminator hline)) hnamed

/-- The induction is on the length of the line, which gets smaller by two each time. -/
theorem exists_iterate_opened (hline : '\n' ∉ line.dropLast) (h : scan line = .occurrence o) :
    ∃ n, 2 * n ≤ line.length ∧ scan (opened^[n] line) = .malformed .incorrectFormat ∧
      ∀ k < n, SameTag o (opened^[k] line) := by
  induction hlength : line.length using Nat.strong_induction_on generalizing line o with
  | h length ih =>
      have hshorter := length_activated hline h
      have hself : SameTag o line := ⟨o, h, rfl, rfl⟩
      rcases scan_activated hline h with hend | ⟨again, hagain, hconfiguration, hexpected⟩
      · refine ⟨1, by omega, ?_, fun k hk => ?_⟩
        · rw [Function.iterate_one, opened_of_scan h, hend]
        · obtain rfl : k = 0 := by omega
          exact hself
      · have hsingle := (activated_isLine hline h).1.feed_last
        obtain ⟨n, hn, hend, hbefore⟩ := ih o.activated.length (by omega) hsingle hagain rfl
        refine ⟨n + 1, by omega, ?_, fun k hk => ?_⟩
        · rw [Function.iterate_succ_apply, opened_of_scan h, hend]
        · cases k with
          | zero => exact hself
          | succ k =>
              rw [Function.iterate_succ_apply, opened_of_scan h]
              obtain ⟨other, hother, hconfiguration', hexpected'⟩ := hbefore k (by omega)
              exact ⟨other, hother, hconfiguration'.trans hconfiguration, hexpected'.trans hexpected⟩

/-! ### The copy of a file -/

theorem map_isTagged_activate (hline : (Text.splitLines text)[index]? = some line)
    (h : scan line = .occurrence o) :
    (Text.splitLines (activate (Text.splitLines text) index o)).map isTagged =
      (Text.splitLines text).map isTagged := by
  have hsingle := ((Text.areLines_splitLines text).isLine (List.mem_of_getElem? hline)).feed_last
  have hsame : isTagged o.activated = isTagged line := by
    rw [isTagged, count_activated hsingle h, isTagged]
  obtain ⟨hindex, rfl⟩ := List.getElem?_eq_some_iff.mp hline
  rw [splitLines_activate hline h, List.map_set, hsame, ← List.getElem_map isTagged (h := by simpa using hindex),
    List.set_getElem_self]

end CompileFail.Tag
