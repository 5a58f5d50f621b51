import CompileFail.Text.Blank
import Mathlib.Data.List.Basic
import Mathlib.Data.List.DropRight
import Mathlib.Data.List.TakeWhile

/-! Runs of characters of one class, and what trimming leaves of a text. A run ends at the first
character outside the class, so a text can be cut there in one way only. -/

namespace CompileFail.Text

section Runs

variable {p : Char → Bool} {run rest s : Text} {stop : Char}

theorem takeWhile_run (hrun : ∀ c ∈ run, p c = true) (hstop : p stop = false) :
    (run ++ stop :: rest).takeWhile p = run := by
  rw [List.takeWhile_append_of_pos hrun, List.takeWhile_cons_of_neg (by simp [hstop]), List.append_nil]

theorem dropWhile_run (hrun : ∀ c ∈ run, p c = true) (hstop : p stop = false) :
    (run ++ stop :: rest).dropWhile p = stop :: rest := by
  rw [List.dropWhile_append_of_pos hrun, List.dropWhile_cons_of_neg (by simp [hstop])]

theorem eq_run_of_dropWhile (h : s.dropWhile p = stop :: rest) :
    s = s.takeWhile p ++ stop :: rest ∧ p stop = false := by
  refine ⟨by rw [← h, List.takeWhile_append_dropWhile], ?_⟩
  have hhead := List.head_dropWhile_not p (by rw [h]; simp)
  simpa [h] using hhead

end Runs

/-! ### Characters -/

theorem toLower_eq_self {c : Char} (hc : ¬c.toNat < 0x80) : c.toLower = c := by
  refine dif_neg ?_
  rintro ⟨-, hle⟩
  have hsmall : c.toNat ≤ 90 := UInt32.le_iff_toNat_le.mp hle
  omega

theorem forall_of_ascii {p : Char → Prop} (h : ∀ code < 0x80, p (Char.ofNat code)) {c : Char}
    (hc : c.toNat < 0x80) : p c := by
  have hcode := h c.toNat hc
  rwa [Char.ofNat_toNat] at hcode

theorem isBlank_toLower (c : Char) : isBlank c.toLower = isBlank c := by
  by_cases hc : c.toNat < 0x80
  · exact forall_of_ascii (p := fun c => isBlank c.toLower = isBlank c) (by decide) hc
  · rw [toLower_eq_self hc]

/-! ### Trimming -/

theorem trimEnd_subset (s : Text) : trimEnd s ⊆ s := (List.rdropWhile_prefix isBlank s).subset

theorem getLast?_trimEnd (s : Text) : ∀ c ∈ (trimEnd s).getLast?, isBlank c = false := by
  intro c hc
  have hhead := List.head?_dropWhile_not isBlank s.reverse
  rw [trimEnd, List.getLast?_reverse] at hc
  rw [Option.mem_def.mp hc] at hhead
  simpa using hhead

theorem trimEnd_of_getLast? {s : Text} (h : ∀ c ∈ s.getLast?, isBlank c = false) : trimEnd s = s := by
  refine List.rdropWhile_eq_self_iff.mpr fun hne => ?_
  simp [h _ (List.getLast?_eq_some_getLast hne)]

theorem trim_subset (s : Text) : trim s ⊆ s := by
  intro c hc
  rw [trim, trimEnd, List.mem_reverse] at hc
  have hstart : c ∈ trimStart s := by simpa using List.dropWhile_subset _ hc
  exact List.dropWhile_subset _ hstart

theorem trim_eq_nil_iff {s : Text} : trim s = [] ↔ ∀ c ∈ s, isBlank c = true := by
  rw [trim, trimEnd, List.reverse_eq_nil_iff, List.dropWhile_eq_nil_iff]
  constructor
  · intro h c hc
    rw [← List.takeWhile_append_dropWhile (p := isBlank) (l := s), List.mem_append] at hc
    rcases hc with hc | hc
    · exact List.mem_takeWhile_imp hc
    · exact h c (List.mem_reverse.mpr hc)
  · intro h c hc
    exact h c (List.dropWhile_subset _ (List.mem_reverse.mp hc))

theorem trim_eq_self_iff {s : Text} :
    trim s = s ↔ (∀ c ∈ s.head?, isBlank c = false) ∧ ∀ c ∈ s.getLast?, isBlank c = false := by
  constructor
  · intro htrim
    constructor
    · intro c hc
      by_contra hblank
      obtain ⟨tail, rfl⟩ := List.head?_eq_some_iff.mp hc
      have hstart : trimStart (c :: tail) = trimStart tail :=
        List.dropWhile_cons_of_pos (Bool.of_not_eq_false hblank)
      have hprefix : c :: tail <+: trimStart tail := by
        rw [← htrim, trim, hstart]
        exact List.rdropWhile_prefix isBlank _
      have hlong := hprefix.length_le.trans (List.dropWhile_suffix isBlank).length_le
      rw [List.length_cons] at hlong
      omega
    · intro c hc
      rw [← htrim] at hc
      exact getLast?_trimEnd _ c hc
  · rintro ⟨hhead, hlast⟩
    have hstart : trimStart s = s := by
      cases s with
      | nil => rfl
      | cons c tail => exact List.dropWhile_cons_of_neg (by simp [hhead c rfl])
    rw [trim, hstart]
    exact trimEnd_of_getLast? hlast

theorem trim_ne_nil_iff {s : Text} : trim s ≠ [] ↔ ∃ c ∈ s, isBlank c = false := by
  simp [trim_eq_nil_iff]

/-- Trimming takes away blanks and nothing between them. -/
theorem exists_eq_append_trim (s : Text) :
    ∃ left right, s = left ++ (trim s ++ right) ∧ (∀ c ∈ left, isBlank c = true) ∧
      ∀ c ∈ right, isBlank c = true := by
  refine ⟨s.takeWhile isBlank, ((trimStart s).reverse.takeWhile isBlank).reverse, ?_, ?_, ?_⟩
  · rw [trim, trimEnd, ← List.reverse_append, List.takeWhile_append_dropWhile, List.reverse_reverse, trimStart,
      List.takeWhile_append_dropWhile]
  · exact fun c => List.mem_takeWhile_imp
  · exact fun c hc => List.mem_takeWhile_imp (List.mem_reverse.mp hc)

theorem trim_trim (s : Text) : trim (trim s) = trim s := by
  have hstart : trimStart (trim s) = trim s := by
    obtain ⟨tail, htail⟩ : trim s <+: trimStart s := List.rdropWhile_prefix isBlank _
    cases htrim : trim s with
    | nil => rfl
    | cons c front =>
        rw [htrim, List.cons_append] at htail
        exact List.dropWhile_cons_of_neg (by simp [(eq_run_of_dropWhile htail.symm).2])
  calc trim (trim s) = trimEnd (trim s) := by rw [trim, hstart]
    _ = trim s := List.rdropWhile_idempotent isBlank _

/-- Blanks around a text that neither starts nor ends with one are all that trimming takes away. -/
theorem trim_padded {left core right : Text} (hleft : ∀ c ∈ left, isBlank c = true)
    (hright : ∀ c ∈ right, isBlank c = true) (hcore : trim core = core) :
    trim (left ++ (core ++ right)) = core := by
  obtain ⟨hhead, hlast⟩ := trim_eq_self_iff.mp hcore
  have hend : trimEnd (core ++ right) = core := by
    have hright' : ∀ c ∈ right.reverse, isBlank c = true := fun c hc => hright c (List.mem_reverse.mp hc)
    rw [trimEnd, List.reverse_append, List.dropWhile_append_of_pos hright']
    exact trimEnd_of_getLast? hlast
  rw [trim, trimStart, List.dropWhile_append_of_pos hleft]
  cases core with
  | nil =>
      rw [List.nil_append, List.dropWhile_eq_nil_iff.mpr hright]
      rfl
  | cons c tail =>
      rw [List.cons_append, List.dropWhile_cons_of_neg (by simp [hhead c rfl]), ← List.cons_append]
      exact hend

theorem trim_append_blank {s right : Text} (hright : ∀ c ∈ right, isBlank c = true) :
    trim (s ++ right) = trim s := by
  obtain ⟨before, after, hs, hbefore, hafter⟩ := exists_eq_append_trim s
  have hall : ∀ c ∈ after ++ right, isBlank c = true := by
    intro c hc
    rcases List.mem_append.mp hc with hc | hc
    · exact hafter c hc
    · exact hright c hc
  conv => lhs; rw [hs]
  rw [List.append_assoc, List.append_assoc]
  exact trim_padded hbefore hall (trim_trim s)

/-- What starts and ends with no blank is not cut by trimming. -/
theorem exists_trim_eq {s before core after : Text} (hs : s = before ++ (core ++ after)) (hne : core ≠ [])
    (hcore : ∀ c ∈ core, isBlank c = false) :
    ∃ before' after', trim s = before' ++ (core ++ after') ∧ before' <:+ before ∧ after' <+: after := by
  obtain ⟨left, right, htrim, hleft, hright⟩ := exists_eq_append_trim s
  have hstart : ∃ before', before = left ++ before' ∧ trim s ++ right = before' ++ (core ++ after) := by
    rcases List.append_eq_append_iff.mp (htrim.symm.trans hs) with h | ⟨cut, hcut, hrest⟩
    · exact h
    · cases cut with
      | nil => exact ⟨[], by simpa using hcut.symm, hrest.symm⟩
      | cons c cut =>
          obtain ⟨first, core, rfl⟩ := List.exists_cons_of_ne_nil hne
          obtain ⟨rfl, -⟩ := List.cons.inj hrest
          have hblank := hleft first (hcut ▸ List.mem_append_right _ List.mem_cons_self)
          exact absurd hblank (by simp [hcore first List.mem_cons_self])
  obtain ⟨before', rfl, hend⟩ := hstart
  rw [← List.append_assoc before'] at hend
  rcases List.append_eq_append_iff.mp hend with ⟨cut, hcut, hrest⟩ | ⟨after', hafter', rfl⟩
  · rcases List.eq_nil_or_concat cut with rfl | ⟨front, last, rfl⟩
    · exact ⟨before', [], by simpa using hcut.symm, List.suffix_append _ _, List.nil_prefix⟩
    · have hlast : core.getLast? = some last := by
        rw [← List.getLast?_append_of_ne_nil before' hne, hcut, List.concat_eq_append, ← List.append_assoc,
          List.getLast?_concat]
      have hblank := hright last (by simp [hrest])
      exact absurd hblank (by simp [hcore last (List.mem_of_mem_getLast? hlast)])
  · exact ⟨before', after', by rw [hafter', List.append_assoc], List.suffix_append _ _, List.prefix_append _ _⟩

end CompileFail.Text
