import CompileFail.Utility.Sorting
import Mathlib.Data.List.DropRight
import Mathlib.Data.List.SplitBy

/-! What the programs for lines make of a text. Cutting it into records, into groups of lines that are the same or into
pieces that fit a width loses nothing. Of two files in order the lines are told apart by how often each of them has
them. -/

namespace CompileFail.Utility

variable {ending : Char} {s body : Octets} {same : Octets → Octets → Bool} {a b line : Octets}
  {as bs lines group : List Octets} {rest : List (List Octets)} {fuel : Nat}

/-! ### Records -/

/-- The records are all of the text. -/
theorem flatten_records (s : Octets) (ending : Char) : (records s ending).flatten = s := by
  induction s with
  | nil => rfl
  | cons c s ih =>
      rw [records]
      split
      · rw [List.flatten_cons, ih, List.singleton_append]
      · split
        · next hrest =>
          rw [hrest] at ih
          rw [← ih]
          rfl
        · next hrest =>
          rw [hrest] at ih
          rw [← ih]
          rfl

/-- What has no end of a record in it is the last record. -/
theorem records_of_notMem (h : ending ∉ body) (hne : body ≠ []) : records body ending = [body] := by
  induction body with
  | nil => exact absurd rfl hne
  | cons c body ih =>
      obtain ⟨hc, hbody⟩ := not_or.mp (List.mem_cons.not.mp h)
      rw [records, if_neg (Ne.symm hc)]
      cases body with
      | nil => rfl
      | cons d body => rw [ih hbody (List.cons_ne_nil _ _)]

/-- A record reaches to its end, and there the next one starts. -/
theorem records_append (h : ending ∉ body) (s : Octets) :
    records (body ++ ending :: s) ending = (body ++ [ending]) :: records s ending := by
  induction body with
  | nil => rw [List.nil_append, records, if_pos rfl, List.nil_append]
  | cons c body ih =>
      obtain ⟨hc, hbody⟩ := not_or.mp (List.mem_cons.not.mp h)
      rw [List.cons_append, records, if_neg (Ne.symm hc), ih hbody, List.cons_append]

theorem endAll_splitOn (ending : Char) (s : Octets) : endAll ending (Text.splitOn ending s) = s ++ [ending] := by
  induction s with
  | nil => rfl
  | cons c s ih =>
      rw [Text.splitOn]
      split
      · next hc => rw [endAll, List.flatMap_cons, ← endAll, ih, hc]; rfl
      · split
        · next hnil => rw [hnil] at ih; cases s <;> cases ih
        · next hpieces =>
          rw [hpieces] at ih
          rw [List.cons_append, ← ih]
          rfl

/-- The lines with their ends are the text, to which an end was added if it had none. -/
theorem endAll_piecesOf (ending : Char) (s : Octets) :
    endAll ending (piecesOf ending s) = s ∨ endAll ending (piecesOf ending s) = s ++ [ending] := by
  have hall := endAll_splitOn ending s
  rw [piecesOf]
  split
  · next hlast =>
    obtain ⟨front, hfront⟩ := List.getLast?_eq_some_iff.mp hlast
    rw [hfront, endAll, List.flatMap_append] at hall
    rw [hfront, List.dropLast_concat]
    exact Or.inl (List.append_cancel_right hall)
  · exact Or.inr hall

/-! ### Groups -/

/-- Where a group starts does not matter for the groups behind it. -/
theorem groupsOf_cons_congr (h : ∀ c, same a c = same b c) (lines : List Octets) :
    ∃ group rest, groupsOf same (a :: lines) = (a :: group) :: rest ∧
      groupsOf same (b :: lines) = (b :: group) :: rest := by
  rw [groupsOf, groupsOf, List.foldr_cons, List.foldr_cons]
  split
  · next next group rest _ =>
    rw [h next]
    cases same b next with
    | true => exact ⟨next :: group, rest, rfl, rfl⟩
    | false => exact ⟨[], _, rfl, rfl⟩
  · exact ⟨[], _, rfl, rfl⟩

theorem groupsOf_cons_of_same (hsame : same a b = true) (hgroups : groupsOf same (b :: lines) = (b :: group) :: rest) :
    groupsOf same (a :: b :: lines) = (a :: b :: group) :: rest := by
  rw [groupsOf, List.foldr_cons, ← groupsOf, hgroups]
  exact if_pos hsame

theorem groupsOf_cons_of_not_same (hsame : same a b = false) (lines : List Octets) :
    groupsOf same (a :: b :: lines) = [a] :: groupsOf same (b :: lines) := by
  obtain ⟨group, rest, hgroups, -⟩ := groupsOf_cons_congr (fun c => (rfl : same b c = same b c)) lines
  rw [groupsOf, List.foldr_cons, ← groupsOf, hgroups]
  exact if_neg (by rw [hsame]; nofun)

/-- The groups are the longest runs of lines of which each is the same as the one before. -/
theorem splitBy_eq_groupsOf (same : Octets → Octets → Bool) (lines : List Octets) :
    lines.splitBy same = groupsOf same lines := by
  induction lines with
  | nil => rfl
  | cons a lines ih =>
      cases lines with
      | nil => rfl
      | cons b lines =>
          cases hsame : same a b with
          | false =>
              rw [groupsOf_cons_of_not_same hsame, ← ih]
              exact List.splitBy_append_cons (l := [a]) lines (by simpa using hsame)
          | true =>
              obtain ⟨group, rest, hgroups, -⟩ := groupsOf_cons_congr (fun c => (rfl : same b c = same b c)) lines
              rw [groupsOf_cons_of_same hsame hgroups, List.splitBy_eq_iff]
              rw [hgroups, List.splitBy_eq_iff] at ih
              obtain ⟨hflatten, hne, hchains, hends⟩ := ih
              refine ⟨?_, ?_, ?_, ?_⟩
              · rw [hflatten]
                rfl
              · simpa using hne
              · rintro group' hgroup'
                rcases List.mem_cons.mp hgroup' with rfl | hrest
                · exact List.isChain_cons_cons.mpr ⟨hsame, hchains _ List.mem_cons_self⟩
                · exact hchains group' (List.mem_cons_of_mem _ hrest)
              · rw [List.isChain_cons] at hends ⊢
                refine ⟨fun next hnext => ?_, hends.2⟩
                obtain ⟨hgroup, hnext', hdiffer⟩ := hends.1 next hnext
                exact ⟨List.cons_ne_nil _ _, hnext', by rwa [List.getLast_cons hgroup]⟩

/-- Dropping the lines that are the same as the one before leaves the first line of each group. -/
theorem dropRepeated_eq_heads (hsame : ∀ a b, same a b = true → ∀ c, same a c = same b c) (lines : List Octets) :
    dropRepeated same lines = (groupsOf same lines).filterMap List.head? := by
  induction lines using dropRepeated.induct same with
  | case1 a b lines hab ih =>
      obtain ⟨group, rest, ha, hb⟩ := groupsOf_cons_congr (hsame a b hab) lines
      rw [dropRepeated, if_pos hab, ih, groupsOf_cons_of_same hab hb, ha]
      rfl
  | case2 a b lines hab ih =>
      rw [dropRepeated, if_neg hab, ih, groupsOf_cons_of_not_same (by simpa using hab)]
      rfl
  | case3 lines h =>
      rw [dropRepeated]
      · cases lines with
        | nil => rfl
        | cons a lines =>
            cases lines with
            | nil => rfl
            | cons b lines => exact absurd rfl (h a b lines)
      · exact h

/-! ### Two files in order -/

/-- Two files are gone through side by side. A line goes to one of them alone if the other one is behind it there. -/
inductive Merged : List Octets → List Octets → List (Side × Octets) → Prop
  | done : Merged [] [] []
  | first {a : Octets} {as bs : List Octets} {sides : List (Side × Octets)} (h : ∀ b ∈ bs.head?, a < b)
    (hrest : Merged as bs sides) : Merged (a :: as) bs ((.first, a) :: sides)
  | second {b : Octets} {as bs : List Octets} {sides : List (Side × Octets)} (h : ∀ a ∈ as.head?, b < a)
    (hrest : Merged as bs sides) : Merged as (b :: bs) ((.second, b) :: sides)
  | both {a : Octets} {as bs : List Octets} {sides : List (Side × Octets)} (hrest : Merged as bs sides) :
    Merged (a :: as) (a :: bs) ((.both, a) :: sides)

variable {sides : List (Side × Octets)}

theorem merged_first (as : List Octets) : Merged as [] (as.map (Side.first, ·)) := by
  induction as with
  | nil => exact .done
  | cons a as ih => exact .first nofun ih

theorem merged_second (bs : List Octets) : Merged [] bs (bs.map (Side.second, ·)) := by
  induction bs with
  | nil => exact .done
  | cons b bs ih => exact .second nofun ih

theorem merged_sidesOf (hfuel : as.length + bs.length < fuel) : Merged as bs (sidesOf fuel as bs) := by
  induction fuel generalizing as bs with
  | zero => exact absurd hfuel (Nat.not_lt_zero _)
  | succ fuel ih =>
      cases bs with
      | nil =>
          rw [sidesOf]
          · exact merged_first as
          · nofun
      | cons b bs =>
          cases as with
          | nil =>
              rw [sidesOf]
              · exact merged_second (b :: bs)
              · nofun
              · nofun
          | cons a as =>
              simp only [List.length_cons] at hfuel
              rw [sidesOf]
              split
              · next hlt => exact .first (by simpa using hlt) (ih (by simp only [List.length_cons]; omega))
              · next hnot =>
                split
                · next hlt => exact .second (by simpa using hlt) (ih (by simp only [List.length_cons]; omega))
                · next hnot' =>
                  obtain rfl : a = b := List.le_antisymm (List.not_lt.mp hnot') (List.not_lt.mp hnot)
                  exact .both (ih (by omega))

/-- No line of a file is lost or put in another place. -/
theorem Merged.files (h : Merged as bs sides) :
    (sides.filter (·.1 ≠ .second)).map (·.2) = as ∧ (sides.filter (·.1 ≠ .first)).map (·.2) = bs := by
  induction h with
  | done => exact ⟨rfl, rfl⟩
  | first _ _ ih => simpa using ih
  | second _ _ ih => simpa using ih
  | both _ ih => simpa using ih

theorem notMem_of_lt_head (hsorted : as.Pairwise fun a b => ¬b < a) (h : ∀ a ∈ as.head?, line < a) : line ∉ as := by
  cases as with
  | nil => exact List.not_mem_nil
  | cons a as =>
      have hlt : line < a := h a rfl
      intro hmem
      rcases List.mem_cons.mp hmem with rfl | hlater
      · exact List.lt_irrefl _ hlt
      · exact List.rel_of_pairwise_cons hsorted hlater hlt

/-- Of files in order a line is in both as often as it is in the one that has it less often. -/
theorem Merged.count_both (h : Merged as bs sides) (has : as.Pairwise fun a b => ¬b < a)
    (hbs : bs.Pairwise fun a b => ¬b < a) (line : Octets) :
    sides.count (.both, line) = min (as.count line) (bs.count line) := by
  induction h with
  | done => rfl
  | @first a as bs sides hlt _ ih =>
      rw [List.count_cons_of_ne (by simp), ih has.of_cons hbs, List.count_cons]
      split
      · next heq =>
        rw [beq_iff_eq] at heq
        subst heq
        rw [List.count_eq_zero.mpr (notMem_of_lt_head hbs hlt), Nat.min_zero, Nat.min_zero]
      · rfl
  | @second b as bs sides hlt _ ih =>
      rw [List.count_cons_of_ne (by simp), ih has hbs.of_cons, List.count_cons]
      split
      · next heq =>
        rw [beq_iff_eq] at heq
        subst heq
        rw [List.count_eq_zero.mpr (notMem_of_lt_head has hlt), Nat.zero_min, Nat.zero_min]
      · rfl
  | @both a as bs sides _ ih =>
      rw [List.count_cons, ih has.of_cons hbs.of_cons, List.count_cons, List.count_cons, Nat.add_min_add_right]
      simp

/-! ### Lines that are too long -/

section Folding

variable {bytes atBlanks : Bool} {width column : Nat} {front piece : Octets}

/-- No part of a text from its start on is wider than a width. -/
def Fits (bytes : Bool) (width : Nat) (s : Octets) : Prop :=
  ∀ front, front <+: s → front ≠ [] → front.foldl (columnAfter bytes) 0 ≤ width

theorem Fits.of_prefix (h : Fits bytes width s) (hfront : front <+: s) : Fits bytes width front :=
  fun part hpart => h part (hpart.trans hfront)

theorem prefix_fitting (bytes : Bool) (width column : Nat) (s : Octets) :
    fold.fitting bytes width column s <+: s := by
  induction s generalizing column with
  | nil => exact List.prefix_rfl
  | cons c s ih =>
      rw [fold.fitting]
      split
      · exact List.nil_prefix
      · exact (List.prefix_cons_inj c).mpr (ih _)

theorem column_le_of_fitting (h : front <+: fold.fitting bytes width column s) (hne : front ≠ []) :
    front.foldl (columnAfter bytes) column ≤ width := by
  induction s generalizing column front with
  | nil => exact absurd (List.prefix_nil.mp h) hne
  | cons c s ih =>
      rw [fold.fitting] at h
      split at h
      · exact absurd (List.prefix_nil.mp h) hne
      · next hle =>
        rcases List.prefix_cons_iff.mp h with rfl | ⟨later, rfl, hlater⟩
        · exact absurd rfl hne
        · rw [List.foldl_cons]
          by_cases hempty : later = []
          · subst hempty
            exact Nat.le_of_not_lt hle
          · exact ih hlater hempty

theorem fits_fitting (bytes : Bool) (width : Nat) (s : Octets) : Fits bytes width (fold.fitting bytes width 0 s) :=
  fun _ hfront hne => column_le_of_fitting hfront hne

/-- A start of a text that can be a line of its own: not empty, and it fits unless it is a single character. -/
structure Start (bytes : Bool) (width : Nat) (s piece : Octets) : Prop where
  front : piece <+: s
  ne_nil : piece ≠ []
  fits : piece.length = 1 ∨ Fits bytes width piece

theorem Start.of_prefix (h : Start bytes width s piece) (hfront : front <+: piece) (hne : front ≠ []) :
    Start bytes width s front := by
  refine ⟨hfront.trans h.front, hne, h.fits.imp (fun hone => ?_) fun hfits => hfits.of_prefix hfront⟩
  have hle := hfront.length_le
  have hpos := List.length_pos_iff.mpr hne
  omega

theorem start_fitting (bytes : Bool) (width : Nat) (hne : s ≠ []) :
    Start bytes width s
      (if (fold.fitting bytes width 0 s).isEmpty then s.take 1 else fold.fitting bytes width 0 s) := by
  split
  · have hlength : (s.take 1).length = 1 := by
      rw [List.length_take]
      exact Nat.min_eq_left (List.length_pos_iff.mpr hne)
    exact ⟨List.take_prefix 1 s, List.ne_nil_of_length_eq_add_one hlength, Or.inl hlength⟩
  · next hempty =>
    exact ⟨prefix_fitting bytes width 0 s, by simpa using hempty, Or.inr (fits_fitting bytes width s)⟩

/-- What is left fits as a whole, or a start of it is cut off. -/
theorem pieces_succ (bytes atBlanks : Bool) (width fuel : Nat) (s : Octets) :
    Fits bytes width s ∧ fold.pieces bytes atBlanks width (fuel + 1) s = [s] ∨
      ∃ piece, Start bytes width s piece ∧ fold.pieces bytes atBlanks width (fuel + 1) s =
        piece :: fold.pieces bytes atBlanks width fuel (s.drop piece.length) := by
  have hprefix := prefix_fitting bytes width 0 s
  rw [fold.pieces]
  split
  · next hlength =>
    refine Or.inl ⟨?_, rfl⟩
    rw [← hprefix.eq_of_length hlength]
    exact fits_fitting bytes width s
  · next hlength =>
    have hne : s ≠ [] := by
      rintro rfl
      exact hlength rfl
    have hstart := start_fitting bytes width hne
    refine Or.inr ⟨_, ?_, rfl⟩
    generalize (if (fold.fitting bytes width 0 s).isEmpty then s.take 1 else fold.fitting bytes width 0 s) = first
      at hstart ⊢
    split
    · next hblank =>
      rw [Bool.and_eq_true, Bool.not_eq_true', List.isEmpty_eq_false_iff] at hblank
      exact hstart.of_prefix (List.rdropWhile_prefix _ first) hblank.2
    · exact hstart

/-- Breaking a line loses nothing of it. -/
theorem flatten_pieces (bytes atBlanks : Bool) (width fuel : Nat) (s : Octets) :
    (fold.pieces bytes atBlanks width fuel s).flatten = s := by
  induction fuel generalizing s with
  | zero => exact List.append_nil s
  | succ fuel ih =>
      rcases pieces_succ bytes atBlanks width fuel s with ⟨-, hwhole⟩ | ⟨piece, hstart, hpieces⟩
      · rw [hwhole]
        exact List.append_nil s
      · rw [hpieces, List.flatten_cons, ih]
        exact List.prefix_iff_eq_append.mp hstart.front

/-- Each piece fits, unless it is a character that is too wide by itself. -/
theorem fits_of_mem_pieces (hfuel : s.length < fuel) (h : piece ∈ fold.pieces bytes atBlanks width fuel s) :
    piece.length = 1 ∨ Fits bytes width piece := by
  induction fuel generalizing s with
  | zero => exact absurd hfuel (Nat.not_lt_zero _)
  | succ fuel ih =>
      rcases pieces_succ bytes atBlanks width fuel s with ⟨hfits, hwhole⟩ | ⟨first, hstart, hpieces⟩
      · rw [hwhole] at h
        obtain rfl := List.mem_singleton.mp h
        exact Or.inr hfits
      · rw [hpieces] at h
        rcases List.mem_cons.mp h with rfl | hlater
        · exact hstart.fits
        · refine ih ?_ hlater
          have hpos := List.length_pos_iff.mpr hstart.ne_nil
          have hle := hstart.front.length_le
          rw [List.length_drop]
          omega

end Folding

end CompileFail.Utility
