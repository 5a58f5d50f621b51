import CompileFail.Text.Basic
import Mathlib.Data.List.Induction
import Mathlib.Data.Nat.Digits.Defs

/-! Numbers in decimal digits. A digit counts ten times as much as the one behind it, however many digits there
are; reading a number gives this value, and writing it gives digits of this value. In words of some bits the
digits can be read one after another with a check on each product and each sum, and then a value that is too
large is refused and never taken for a smaller one. -/

namespace CompileFail

/-- A number, unless it takes more bits than a word has. -/
def fit? (bits n : Nat) : Option Nat := if n < 2 ^ bits then some n else none

theorem fit?_of_lt {bits n : Nat} (h : n < 2 ^ bits) : fit? bits n = some n := if_pos h

theorem fit?_eq_some_iff {bits n m : Nat} : fit? bits n = some m ↔ n < 2 ^ bits ∧ n = m := by
  rw [fit?]
  split <;> simp_all

namespace Text

def digit (c : Char) : Nat := c.toNat - '0'.toNat

/-- The number that digits stand for. -/
def value (digits : Text) : Nat := Nat.ofDigits 10 (digits.reverse.map digit)

def IsDigits (s : Text) : Prop := s ≠ [] ∧ ∀ c ∈ s, c.isDigit = true

/-- The value of digits read one after another in words of so many bits. -/
def wordValue? (bits : Nat) (digits : Text) : Option Nat :=
  digits.foldlM (fun n c => do fit? bits ((← fit? bits (10 * n)) + digit c)) 0

variable {s : Text} {n : Nat}

theorem value_concat (s : Text) (c : Char) : value (s ++ [c]) = 10 * value s + digit c := by
  simp [value, Nat.ofDigits_cons, Nat.add_comm]

theorem value_eq_ofDigitChars (s : Text) : value s = Nat.ofDigitChars 10 s 0 := by
  induction s using List.reverseRecOn with
  | nil => rfl
  | append_singleton s c ih =>
      rw [value_concat, ih, Nat.ofDigitChars_append, Nat.ofDigitChars_cons, Nat.ofDigitChars_nil]
      rfl

theorem value_zero_cons (s : Text) : value ('0' :: s) = value s := by
  rw [value_eq_ofDigitChars, value_eq_ofDigitChars, Nat.ofDigitChars_cons]
  rfl

/-! ### Reading and writing -/

theorem toNat?_concat (s : Text) (c : Char) :
    toNat? (s ++ [c]) = (if s = [] then some 0 else toNat? s).bind fun n =>
      if c.isDigit then some (10 * n + digit c) else none := by
  have hne : (s ++ [c]).isEmpty = false := by simp
  rw [toNat?, hne, List.foldl_append]
  cases s with
  | nil => rfl
  | cons d s => rfl

theorem toNat?_eq_some_iff : toNat? s = some n ↔ IsDigits s ∧ value s = n := by
  induction s using List.reverseRecOn generalizing n with
  | nil => simp [toNat?, IsDigits]
  | append_singleton s c ih =>
      have hdigits : IsDigits (s ++ [c]) ↔ (s = [] ∨ IsDigits s) ∧ c.isDigit = true := by
        simp only [IsDigits, List.forall_mem_append, List.forall_mem_singleton]
        by_cases hs : s = [] <;> simp [hs]
      rw [toNat?_concat, hdigits, value_concat, Option.bind_eq_some_iff]
      by_cases hs : s = []
      · subst hs
        by_cases hc : c.isDigit = true <;> simp [hc, value]
      · simp only [hs, if_false, false_or, ih]
        by_cases hc : c.isDigit = true <;> simp [hc]

theorem isDigits_ofNat (n : Nat) : IsDigits (ofNat n) :=
  ⟨Nat.toDigits_ne_nil, fun _ hc => Nat.isDigit_of_mem_toDigits (by decide) (by decide) hc⟩

theorem value_ofNat (n : Nat) : value (ofNat n) = n := by
  rw [value_eq_ofDigitChars]
  exact Nat.ofDigitChars_ten_toDigits

theorem toNat?_twoDigits (n : Nat) : toNat? (twoDigits n) = some n := by
  rw [toNat?_eq_some_iff, twoDigits]
  split
  · refine ⟨⟨by simp, ?_⟩, ?_⟩
    · rw [List.forall_mem_cons]
      exact ⟨rfl, (isDigits_ofNat n).2⟩
    · exact (value_zero_cons (ofNat n)).trans (value_ofNat n)
  · exact ⟨isDigits_ofNat n, value_ofNat n⟩

theorem two_le_length_twoDigits (n : Nat) : 2 ≤ (twoDigits n).length := by
  rw [twoDigits]
  split
  · have hpos : 0 < (ofNat n).length := Nat.length_toDigits_pos
    rw [List.length_cons]
    omega
  · by_contra hshort
    have hlength : (ofNat n).length ≤ 1 := by omega
    rw [ofNat, Nat.length_toDigits_le_iff (by decide) (by decide)] at hlength
    omega

theorem length_twoDigits (h : n < 100) : (twoDigits n).length = 2 := by
  apply Nat.le_antisymm _ (two_le_length_twoDigits n)
  rw [twoDigits]
  split
  · next hsmall =>
    have hlength : (ofNat n).length ≤ 1 := (Nat.length_toDigits_le_iff (by decide) (by decide)).mpr hsmall
    rw [List.length_cons]
    omega
  · exact (Nat.length_toDigits_le_iff (by decide) (by decide)).mpr h

/-! ### Reading in words -/

/-- The value of the digits read so far only grows, so if it fits in the end it has always fitted. -/
theorem wordValue?_eq (bits : Nat) (s : Text) : wordValue? bits s = fit? bits (value s) := by
  induction s using List.reverseRecOn with
  | nil =>
      have hfits : value [] < 2 ^ bits := Nat.two_pow_pos bits
      exact (fit?_of_lt hfits).symm
  | append_singleton s c ih =>
      have hstep : wordValue? bits (s ++ [c]) =
          (wordValue? bits s).bind fun n => (fit? bits (10 * n)).bind fun m => fit? bits (m + digit c) := by
        rw [wordValue?, List.foldlM_append]
        simp only [List.foldlM_cons, List.foldlM_nil, bind_pure]
        rfl
      rw [hstep, ih, value_concat]
      by_cases hfits : 10 * value s + digit c < 2 ^ bits
      · rw [fit?_of_lt (by omega), Option.bind_some, fit?_of_lt (by omega), Option.bind_some]
      · have hrefused : fit? bits (10 * value s + digit c) = none := if_neg hfits
        rw [hrefused, Option.bind_eq_none_iff]
        intro n hn
        obtain ⟨-, rfl⟩ := fit?_eq_some_iff.mp hn
        rw [Option.bind_eq_none_iff]
        intro m hm
        obtain ⟨-, rfl⟩ := fit?_eq_some_iff.mp hm
        exact hrefused

end Text

end CompileFail
