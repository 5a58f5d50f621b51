import CompileFail.Proofs.Blank
import CompileFail.Tag

/-! Tag tokens and the positions at which they stand. A token is read back from its written form,
the count of a line is above zero or one exactly if one or two positions start a token, and a text
with a single token can be cut around it in one way only. -/

namespace CompileFail.Tag

/-- A token as it is written. -/
def tokenText : Option Text → Text
  | none => opening ++ [']']
  | some name => opening ++ '-' :: name ++ [']']

/-- A configuration that a token can name: none at all, or a possibly empty run of word characters. -/
def IsNameable (configuration : Option Text) : Prop :=
  ∀ name, configuration = some name → ∀ c ∈ name, isWordChar c = true

/-- Whether a text starts with a token. -/
def StartsToken (s : Text) : Prop :=
  ∃ configuration rest, IsNameable configuration ∧ s = tokenText configuration ++ rest

theorem isNameable_none : IsNameable none := by simp [IsNameable]

theorem isNameable_some {name : Text} : IsNameable (some name) ↔ ∀ c ∈ name, isWordChar c = true := by
  simp [IsNameable]

theorem isWordChar_closing : isWordChar ']' = false := by decide

/-- A token is read exactly where its written form stands. -/
theorem token?_eq_some_iff {s rest : Text} {configuration : Option Text} :
    token? s = some (configuration, rest) ↔
      IsNameable configuration ∧ s = tokenText configuration ++ rest := by
  constructor
  · intro h
    rw [token?] at h
    split at h
    · next hopening =>
      obtain ⟨tail, rfl⟩ := List.isPrefixOf_iff_prefix.mp hopening
      rw [List.drop_left] at h
      split at h
      · next rest' =>
        obtain ⟨rfl, rfl⟩ : none = configuration ∧ rest' = rest := by simpa using h
        exact ⟨isNameable_none, by simp [tokenText]⟩
      · next named =>
        split at h
        · next rest' hdrop =>
          obtain ⟨rfl, rfl⟩ : some (named.takeWhile isWordChar) = configuration ∧ rest' = rest := by
            simpa using h
          refine ⟨isNameable_some.mpr fun c hc => List.mem_takeWhile_imp hc, ?_⟩
          rw [(Text.eq_run_of_dropWhile hdrop).1]
          simp [tokenText, Text.takeWhile_run (fun c hc => List.mem_takeWhile_imp hc) isWordChar_closing]
        · cases h
      · cases h
    · cases h
  · rintro ⟨hname, rfl⟩
    rw [token?]
    cases configuration with
    | none =>
        rw [if_pos (by simp [tokenText, List.isPrefixOf_iff_prefix])]
        simp [tokenText]
    | some name =>
        have hrun := isNameable_some.mp hname
        rw [if_pos (by simp [tokenText, List.isPrefixOf_iff_prefix])]
        simp [tokenText, Text.takeWhile_run hrun isWordChar_closing,
          Text.dropWhile_run hrun isWordChar_closing]

theorem isSome_token?_iff {s : Text} : (token? s).isSome = true ↔ StartsToken s := by
  rw [Option.isSome_iff_exists]
  constructor
  · rintro ⟨⟨configuration, rest⟩, h⟩
    exact ⟨configuration, rest, token?_eq_some_iff.mp h⟩
  · rintro ⟨configuration, rest, h⟩
    exact ⟨(configuration, rest), token?_eq_some_iff.mpr h⟩

theorem not_startsToken_nil : ¬StartsToken [] := by
  rintro ⟨configuration, rest, -, h⟩
  have hne : tokenText configuration ≠ [] := by cases configuration <;> simp [tokenText]
  exact hne (List.append_eq_nil_iff.mp h.symm).1

theorem count_cons (c : Char) (s : Text) [Decidable (StartsToken (c :: s))] :
    count (c :: s) = if StartsToken (c :: s) then count s + 1 else count s := by
  simp only [count, isSome_token?_iff]

theorem count_cons_of_ne {c : Char} (hc : c ≠ '[') (s : Text) : count (c :: s) = count s := by
  have hopening : opening = '[' :: opening.tail := by decide
  have hnone : token? (c :: s) = none := by
    rw [token?, hopening, List.isPrefixOf_cons_cons, if_neg]
    simp [Ne.symm hc]
  rw [count, hnone]
  rfl

theorem exists_drop_cons {P : Text → Prop} (c : Char) (s : Text) :
    (∃ i, P ((c :: s).drop i)) ↔ P (c :: s) ∨ ∃ i, P (s.drop i) := by
  constructor
  · rintro ⟨i, h⟩
    cases i with
    | zero => exact Or.inl h
    | succ i => exact Or.inr ⟨i, h⟩
  · rintro (h | ⟨i, h⟩)
    · exact ⟨0, h⟩
    · exact ⟨i + 1, h⟩

theorem count_pos_iff {s : Text} : 0 < count s ↔ ∃ i, StartsToken (s.drop i) := by
  classical
  induction s with
  | nil => simp [count, not_startsToken_nil]
  | cons c s ih =>
      rw [count_cons, exists_drop_cons, ← ih]
      split
      · next h => exact iff_of_true (Nat.succ_pos _) (Or.inl h)
      · next h => simp only [h, false_or]

theorem count_eq_zero_iff {s : Text} : count s = 0 ↔ ∀ i, ¬StartsToken (s.drop i) := by
  rw [← not_exists, ← count_pos_iff, Nat.pos_iff_ne_zero, not_not]

theorem two_le_count_iff {s : Text} :
    2 ≤ count s ↔ ∃ i j, i < j ∧ StartsToken (s.drop i) ∧ StartsToken (s.drop j) := by
  classical
  induction s with
  | nil => simp [count, not_startsToken_nil]
  | cons c s ih =>
      rw [count_cons]
      split
      · next hfirst =>
        rw [Nat.succ_le_succ_iff, Nat.one_le_iff_ne_zero, ← Nat.pos_iff_ne_zero, count_pos_iff]
        constructor
        · rintro ⟨j, hj⟩
          exact ⟨0, j + 1, Nat.succ_pos j, hfirst, hj⟩
        · rintro ⟨i, j, hij, -, hj⟩
          obtain ⟨j, rfl⟩ := Nat.exists_eq_succ_of_ne_zero (Nat.ne_zero_of_lt hij)
          exact ⟨j, hj⟩
      · next hfirst =>
        rw [ih]
        constructor
        · rintro ⟨i, j, hij, hi, hj⟩
          exact ⟨i + 1, j + 1, Nat.succ_lt_succ hij, hi, hj⟩
        · rintro ⟨i, j, hij, hi, hj⟩
          cases i with
          | zero => exact absurd hi hfirst
          | succ i =>
              obtain ⟨j, rfl⟩ := Nat.exists_eq_succ_of_ne_zero (Nat.ne_zero_of_lt hij)
              exact ⟨i, j, Nat.lt_of_succ_lt_succ hij, hi, hj⟩

theorem count_eq_one_iff {s : Text} : count s = 1 ↔ ∃! i, StartsToken (s.drop i) := by
  constructor
  · intro h
    have hfew : ¬2 ≤ count s := by omega
    obtain ⟨i, hi⟩ := count_pos_iff.mp (h ▸ Nat.one_pos)
    refine ⟨i, hi, fun j hj => ?_⟩
    rcases Nat.lt_trichotomy i j with hlt | heq | hgt
    · exact absurd (two_le_count_iff.mpr ⟨i, j, hlt, hi, hj⟩) hfew
    · exact heq.symm
    · exact absurd (two_le_count_iff.mpr ⟨j, i, hgt, hj, hi⟩) hfew
  · rintro ⟨i, hi, honly⟩
    have hpos : 0 < count s := count_pos_iff.mpr ⟨i, hi⟩
    have hfew : ¬2 ≤ count s := by
      rw [two_le_count_iff]
      rintro ⟨j, k, hjk, hj, hk⟩
      rw [honly j hj, honly k hk] at hjk
      exact Nat.lt_irrefl i hjk
    omega

/-! ### Cutting a text around its token -/

theorem startsToken_drop (before after : Text) {configuration : Option Text}
    (hname : IsNameable configuration) :
    StartsToken ((before ++ tokenText configuration ++ after).drop before.length) :=
  ⟨configuration, after, hname, by rw [List.append_assoc, List.drop_left]⟩

/-- Around its only token a text can be cut in one way. -/
theorem cut_unique {before before' after after' : Text} {configuration configuration' : Option Text}
    (hcount : count (before ++ tokenText configuration ++ after) = 1)
    (hname : IsNameable configuration) (hname' : IsNameable configuration')
    (h : before ++ tokenText configuration ++ after = before' ++ tokenText configuration' ++ after') :
    before = before' ∧ configuration = configuration' ∧ after = after' := by
  have hstart := startsToken_drop before after hname
  have hstart' := startsToken_drop before' after' hname'
  rw [← h] at hstart'
  have hlength : before.length = before'.length := (count_eq_one_iff.mp hcount).unique hstart hstart'
  rw [List.append_assoc, List.append_assoc] at h
  obtain ⟨rfl, hrest⟩ := List.append_inj h hlength
  have hread : token? (tokenText configuration ++ after) = some (configuration, after) :=
    token?_eq_some_iff.mpr ⟨hname, rfl⟩
  have hread' := token?_eq_some_iff.mpr ⟨hname', hrest⟩
  rw [hread, Option.some.injEq, Prod.mk.injEq] at hread'
  exact ⟨rfl, hread'⟩

theorem around?_spec {s : Text} {a : Around} (h : around? s = some a) :
    IsNameable a.configuration ∧ s = a.before ++ tokenText a.configuration ++ a.after := by
  induction s generalizing a with
  | nil => cases h
  | cons c s ih =>
      rw [around?] at h
      split at h
      · next configuration after htoken =>
        obtain rfl : ⟨[], configuration, after⟩ = a := by simpa using h
        exact token?_eq_some_iff.mp htoken
      · obtain ⟨a', ha', rfl⟩ := Option.map_eq_some_iff.mp h
        obtain ⟨hname, hs⟩ := ih ha'
        exact ⟨hname, by rw [hs]; rfl⟩

/-- A line that holds a tag: some position of it starts a token. -/
def HoldsTag (line : Text) : Prop := ∃ i, StartsToken (line.drop i)

theorem isTagged_iff {line : Text} : isTagged line = true ↔ HoldsTag line := by
  rw [isTagged, bne_iff_ne, ← Nat.pos_iff_ne_zero, count_pos_iff, HoldsTag]

theorem mem_taggedIndices_iff {lines : List Text} {index : Nat} :
    index ∈ taggedIndices lines ↔ ∃ line, lines[index]? = some line ∧ HoldsTag line := by
  simp only [taggedIndices, List.mem_filterMap, Prod.exists, List.mem_zipIdx_iff_getElem?, ← isTagged_iff]
  constructor
  · rintro ⟨line, index', hline, htagged⟩
    split at htagged
    · next hline' =>
      obtain rfl := Option.some.inj htagged
      exact ⟨line, hline, hline'⟩
    · cases htagged
  · rintro ⟨line, hline, htagged⟩
    exact ⟨line, index, hline, if_pos htagged⟩

theorem exists_around? {s : Text} (h : 0 < count s) : ∃ a, around? s = some a := by
  induction s with
  | nil => cases h
  | cons c s ih =>
      rw [around?]
      cases htoken : token? (c :: s) with
      | some token => exact ⟨_, rfl⟩
      | none =>
          rw [count, htoken] at h
          obtain ⟨a, ha⟩ := ih h
          exact ⟨_, by rw [ha]; rfl⟩

end CompileFail.Tag
