import CompileFail.Proofs.Blank
import CompileFail.Proofs.Numerals
import CompileFail.Settings

/-! The number of workers as it is given on the command line. Around it there may be blanks, in front of it a
plus, and at its front any number of zeros. A number that fits into a word is taken or refused by its value, and
all else is no number; no digits, however many, are taken for a smaller number. -/

namespace CompileFail.Options

/-- A number as it can be written: digits, and in front of them a plus or nothing. -/
inductive Numeral : Text → Nat → Prop
  | digits {s : Text} (h : s.IsDigits) : Numeral s s.value
  | plus {s : Text} (h : s.IsDigits) : Numeral ('+' :: s) s.value

/-- A text holds a number and nothing else but blanks around it. -/
def Spells (raw : Text) (n : Nat) : Prop :=
  ∃ left numeral right, raw = left ++ (numeral ++ right) ∧ (∀ c ∈ left, isBlank c = true) ∧
    (∀ c ∈ right, isBlank c = true) ∧ Numeral numeral n

variable {raw s : Text} {n m : Nat}

theorem isBlank_of_isDigit {c : Char} (hc : c.isDigit = true) : isBlank c = false := by
  have hcode : c.toNat < 0x80 := by
    have hle : c.toNat ≤ '9'.toNat := by
      simp only [Char.isDigit, Bool.and_eq_true, decide_eq_true_eq] at hc
      exact UInt32.le_iff_toNat_le.mp hc.2
    exact hle.trans_lt (by decide)
  revert hc
  exact Text.forall_of_ascii (p := fun c => c.isDigit = true → isBlank c = false) (by decide) hcode

theorem Numeral.not_blank (h : Numeral s n) : ∀ c ∈ s, isBlank c = false := by
  cases h with
  | digits h => exact fun c hc => isBlank_of_isDigit (h.2 c hc)
  | plus h =>
      rw [List.forall_mem_cons]
      exact ⟨by decide, fun c hc => isBlank_of_isDigit (h.2 c hc)⟩

theorem spells_iff : Spells raw n ↔ Numeral (Text.trim raw) n := by
  constructor
  · rintro ⟨left, numeral, right, rfl, hleft, hright, hnumeral⟩
    have hcore : Text.trim numeral = numeral := by
      rw [Text.trim_eq_self_iff]
      exact ⟨fun c hc => hnumeral.not_blank c (List.mem_of_mem_head? hc),
        fun c hc => hnumeral.not_blank c (List.mem_of_mem_getLast? hc)⟩
    rwa [Text.trim_padded hleft hright hcore]
  · intro h
    obtain ⟨left, right, hraw, hleft, hright⟩ := Text.exists_eq_append_trim raw
    exact ⟨left, Text.trim raw, right, hraw, hleft, hright, h⟩

theorem not_isDigits_plus (s : Text) : ¬Text.IsDigits ('+' :: s) := by
  intro h
  exact absurd (h.2 '+' List.mem_cons_self) (by decide)

theorem number?_eq_some_iff : number? s = some n ↔ Numeral s n ∧ n < numberLimit := by
  have hfilter : ∀ digits, (Text.toNat? digits).filter (· < numberLimit) = some n ↔
      digits.IsDigits ∧ digits.value = n ∧ n < numberLimit := by
    intro digits
    rw [Option.filter_eq_some_iff, Text.toNat?_eq_some_iff, and_assoc, decide_eq_true_iff]
  unfold number?
  split
  · next digits =>
    rw [hfilter]
    constructor
    · rintro ⟨hdigits, rfl, hlt⟩
      exact ⟨.plus hdigits, hlt⟩
    · rintro ⟨hnumeral, hlt⟩
      cases hnumeral with
      | digits h => exact absurd h (not_isDigits_plus digits)
      | plus h => exact ⟨h, rfl, hlt⟩
  · next hplus =>
    rw [hfilter]
    constructor
    · rintro ⟨hdigits, rfl, hlt⟩
      exact ⟨.digits hdigits, hlt⟩
    · rintro ⟨hnumeral, hlt⟩
      cases hnumeral with
      | digits h => exact ⟨h, rfl, hlt⟩
      | plus h => exact absurd rfl (hplus _)

/-- Reading the digits in words gives the same numbers. -/
theorem number?_of_isDigits (h : s.IsDigits) : number? s = s.wordValue? 64 := by
  rw [Text.wordValue?_eq]
  apply Option.ext
  intro n
  rw [number?_eq_some_iff, fit?_eq_some_iff]
  constructor
  · rintro ⟨hnumeral, hlt⟩
    cases hnumeral with
    | digits => exact ⟨hlt, rfl⟩
    | plus => exact absurd h (not_isDigits_plus _)
  · rintro ⟨hlt, rfl⟩
    exact ⟨.digits h, hlt⟩

theorem number?_trim_eq_some_iff : number? (Text.trim raw) = some n ↔ Spells raw n ∧ n < 2 ^ 64 := by
  rw [number?_eq_some_iff, spells_iff]
  rfl

/-! ### The number of workers -/

theorem readWorkers_of_number? (h : number? (Text.trim raw) = some n) :
    readWorkers raw = if 1 ≤ n ∧ n ≤ 20 then .ok n else .error (.workersOutOfRange n) := by
  rw [readWorkers, h]
  rfl

theorem readWorkers_of_none (h : number? (Text.trim raw) = none) :
    readWorkers raw = .error (.workersNotAnInteger raw) := by
  rw [readWorkers, h]

/-- Any other answer than that there is no number is the judgement on one that is spelled. -/
theorem exists_spells_of_readWorkers {result : Except Fault Nat} (h : readWorkers raw = result)
    (hresult : result ≠ .error (.workersNotAnInteger raw)) : ∃ n, Spells raw n ∧ n < 2 ^ 64 ∧
      (if 1 ≤ n ∧ n ≤ 20 then .ok n else .error (.workersOutOfRange n)) = result := by
  cases hnumber : number? (Text.trim raw) with
  | none => exact absurd (h.symm.trans (readWorkers_of_none hnumber)) hresult
  | some n =>
      obtain ⟨hspells, hlt⟩ := number?_trim_eq_some_iff.mp hnumber
      exact ⟨n, hspells, hlt, (readWorkers_of_number? hnumber).symm.trans h⟩

theorem readWorkers_eq_ok_iff : readWorkers raw = .ok n ↔ Spells raw n ∧ 1 ≤ n ∧ n ≤ 20 := by
  constructor
  · intro h
    obtain ⟨m, hspells, -, hjudged⟩ := exists_spells_of_readWorkers h (by rintro ⟨⟩)
    split at hjudged
    · next hrange =>
      cases hjudged
      exact ⟨hspells, hrange⟩
    · cases hjudged
  · rintro ⟨hspells, hrange⟩
    have hnumber := number?_trim_eq_some_iff.mpr ⟨hspells, by omega⟩
    rw [readWorkers_of_number? hnumber, if_pos hrange]

theorem readWorkers_eq_outOfRange_iff : readWorkers raw = .error (.workersOutOfRange n) ↔
    Spells raw n ∧ ¬(1 ≤ n ∧ n ≤ 20) ∧ n < 2 ^ 64 := by
  constructor
  · intro h
    obtain ⟨m, hspells, hlt, hjudged⟩ := exists_spells_of_readWorkers h (by rintro ⟨⟩)
    split at hjudged
    · cases hjudged
    · next hrange =>
      cases hjudged
      exact ⟨hspells, hrange, hlt⟩
  · rintro ⟨hspells, hrange, hlt⟩
    have hnumber := number?_trim_eq_some_iff.mpr ⟨hspells, hlt⟩
    rw [readWorkers_of_number? hnumber, if_neg hrange]

theorem readWorkers_eq_notAnInteger_iff : readWorkers raw = .error (.workersNotAnInteger raw) ↔
    ¬∃ n, Spells raw n ∧ n < 2 ^ 64 := by
  constructor
  · rintro h ⟨n, hn⟩
    rw [readWorkers_of_number? (number?_trim_eq_some_iff.mpr hn)] at h
    split at h <;> cases h
  · intro h
    apply readWorkers_of_none
    rw [Option.eq_none_iff_forall_ne_some]
    exact fun n hn => h ⟨n, number?_trim_eq_some_iff.mp hn⟩

theorem message_workersOutOfRange (n : Nat) : (Fault.workersOutOfRange n).message =
    ("The given number of worker threads " : Text) ++ (['\''] ++ Text.ofNat n ++ ['\'']) ++
      (" is out of range. Should be between " : Text) ++ Text.ofNat minWorkers ++ ['-'] ++
      Text.ofNat maxWorkers ++ ['.'] := rfl

/-- The number of workers is taken exactly if it is spelled in full and lies between 1 and 20. If it is spelled
and fits into a word but lies elsewhere it is refused by its value, and every other text is refused as it was
given. The messages name the value and the text. However many digits there are, reading them in words with a
check on every product and sum gives the same. -/
theorem readWorkers_by_value (raw : Text) :
    (∀ n, readWorkers raw = .ok n ↔ Spells raw n ∧ 1 ≤ n ∧ n ≤ 20) ∧
    (∀ n, readWorkers raw = .error (.workersOutOfRange n) ↔
      Spells raw n ∧ ¬(1 ≤ n ∧ n ≤ 20) ∧ n < 2 ^ 64) ∧
    (readWorkers raw = .error (.workersNotAnInteger raw) ↔ ¬∃ n, Spells raw n ∧ n < 2 ^ 64) ∧
    (∀ digits : Text, digits.IsDigits → number? digits = digits.wordValue? 64) ∧
    (∀ n, ['\''] ++ Text.ofNat n ++ ['\''] <:+: (Fault.workersOutOfRange n).message) ∧
    ['\''] ++ raw ++ ['\''] <:+: (Fault.workersNotAnInteger raw).message := by
  refine ⟨fun n => readWorkers_eq_ok_iff, fun n => readWorkers_eq_outOfRange_iff,
    readWorkers_eq_notAnInteger_iff, fun digits => number?_of_isDigits, fun n => ?_, ?_⟩
  · refine ⟨"The given number of worker threads ", (" is out of range. Should be between " : Text) ++
      Text.ofNat minWorkers ++ ['-'] ++ Text.ofNat maxWorkers ++ ['.'], ?_⟩
    rw [message_workersOutOfRange]
    simp only [List.append_assoc]
  · exact List.infix_append _ _ _

/-- A value that is taken, one that is refused, and one that is larger than a word by the number of workers. -/
theorem readWorkers_by_value_wide :
    readWorkers "\u3000+00020\t" = .ok 20 ∧
      readWorkers "18446744073709551615" = .error (.workersOutOfRange 18446744073709551615) ∧
      Text.IsDigits "18446744073709551636" ∧ number? "18446744073709551636" = none := by
  have hspelled : Spells "\u3000+00020\t" 20 :=
    ⟨"\u3000", "+00020", "\t", by decide, List.all_eq_true.mp (by decide), List.all_eq_true.mp (by decide),
      .plus ⟨by decide, List.all_eq_true.mp (by decide)⟩⟩
  have hlargest : Spells "18446744073709551615" 18446744073709551615 :=
    ⟨[], "18446744073709551615", [], by decide, by simp, by simp,
      .digits ⟨by decide, List.all_eq_true.mp (by decide)⟩⟩
  have hwide : Text.IsDigits "18446744073709551636" := ⟨by decide, List.all_eq_true.mp (by decide)⟩
  obtain ⟨htaken, -, -, hwords, -⟩ := readWorkers_by_value "\u3000+00020\t"
  obtain ⟨-, hrefused, -⟩ := readWorkers_by_value "18446744073709551615"
  exact ⟨(htaken 20).mpr ⟨hspelled, by decide, by decide⟩,
    (hrefused _).mpr ⟨hlargest, by decide, by decide⟩, hwide, (hwords _ hwide).trans (by decide)⟩

end CompileFail.Options
