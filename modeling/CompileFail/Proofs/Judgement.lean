import CompileFail.Verifier
import Mathlib.Data.List.Infix

/-! The judgement of a compilation. It passes exactly if the compilation failed, its first diagnostic is an
error and the message of that contains the expected text; it gets nowhere exactly if the compilation
failed without a first diagnostic that can be read. -/

namespace CompileFail

theorem Text.contains_iff {needle s : Text} : Text.contains needle s = true ↔ needle <:+: s := by
  induction s with
  | nil => rw [contains, List.isEmpty_iff, List.infix_nil]
  | cons c s ih => rw [contains, Bool.or_eq_true, ih, List.isPrefixOf_iff_prefix, List.infix_cons_iff]

namespace Diagnostic

/-- The first diagnostic in the output on a file of a given name. -/
def first? (output sourceName : Text) : Option Diagnostic := (firstLine? output sourceName).bind ofLine?

theorem ofLine?_firstLine? (output sourceName : Text) :
    ofLine? ((firstLine? output sourceName).getD []) = first? output sourceName := by
  rw [first?]
  cases firstLine? output sourceName with
  | none => rfl
  | some line => rfl

end Diagnostic

namespace Verifier

variable {file copy : Path} {expected : Text} {compilation : Compilation}

/-- A compilation failed with an error of the expected text as its first diagnostic. -/
def FailsAsExpected (copy : Path) (expected : Text) (compilation : Compilation) : Prop :=
  compilation.success = false ∧ ∃ diagnostic,
    Diagnostic.first? compilation.output copy.shownName = some diagnostic ∧
    diagnostic.kind = .error ∧ expected <:+: diagnostic.message

/-- A compilation failed, and its first diagnostic cannot be read. -/
def FailsUnreadably (copy : Path) (compilation : Compilation) : Prop :=
  compilation.success = false ∧ Diagnostic.first? compilation.output copy.shownName = none

section First

variable {diagnostic : Diagnostic} (hfailed : compilation.success = false)
  (hfirst : Diagnostic.first? compilation.output copy.shownName = some diagnostic)

include hfirst

theorem not_failsUnreadably : ¬FailsUnreadably copy compilation := by
  rintro ⟨-, hnone⟩
  cases hfirst.symm.trans hnone

include hfailed

theorem failsAsExpected_iff :
    FailsAsExpected copy expected compilation ↔
      diagnostic.kind = .error ∧ expected <:+: diagnostic.message := by
  constructor
  · rintro ⟨-, other, hother, hexpected⟩
    obtain rfl := Option.some.inj (hfirst.symm.trans hother)
    exact hexpected
  · exact fun hexpected => ⟨hfailed, diagnostic, hfirst, hexpected⟩

end First

/-- The three judgements and when they are passed. -/
theorem judge_cases (file copy : Path) (expected : Text) (compilation : Compilation) :
    (FailsAsExpected copy expected compilation ∧ judge file copy expected compilation = .ok .pass) ∨
    (FailsUnreadably copy compilation ∧ ∃ fault, judge file copy expected compilation = .error fault) ∨
    (¬FailsAsExpected copy expected compilation ∧ ¬FailsUnreadably copy compilation ∧
      ∃ lines, judge file copy expected compilation = .ok (.fail lines)) := by
  unfold judge
  by_cases hsuccess : compilation.success = true
  · rw [if_pos hsuccess]
    exact Or.inr (Or.inr ⟨by simp [FailsAsExpected, hsuccess], by simp [FailsUnreadably, hsuccess], _, rfl⟩)
  have hfailed : compilation.success = false := by simpa using hsuccess
  rw [if_neg hsuccess]
  dsimp only
  rw [Diagnostic.ofLine?_firstLine?]
  split
  · next hfirst => exact Or.inr (Or.inl ⟨⟨hfailed, hfirst⟩, _, rfl⟩)
  · next diagnostic hfirst =>
    have hnot := not_failsUnreadably hfirst
    rw [failsAsExpected_iff hfailed hfirst, ← Text.contains_iff]
    by_cases hkind : diagnostic.kind = .error
    · rw [if_neg (not_not.mpr hkind)]
      by_cases hmessage : Text.contains expected diagnostic.message = true
      · rw [hmessage]
        exact Or.inl ⟨⟨hkind, rfl⟩, rfl⟩
      · rw [if_pos (by simpa using hmessage)]
        exact Or.inr (Or.inr ⟨fun hexpected => hmessage hexpected.2, hnot, _, rfl⟩)
    · rw [if_pos hkind]
      exact Or.inr (Or.inr ⟨fun hexpected => hkind hexpected.1, hnot, _, rfl⟩)

theorem judge_eq_pass_iff :
    judge file copy expected compilation = .ok .pass ↔ FailsAsExpected copy expected compilation := by
  obtain ⟨hexpected, hjudge⟩ | ⟨⟨-, hfirst⟩, fault, hjudge⟩ | ⟨hexpected, -, lines, hjudge⟩ :=
    judge_cases file copy expected compilation
  · exact iff_of_true hjudge hexpected
  · refine iff_of_false (by rw [hjudge]; rintro ⟨⟩) ?_
    rintro ⟨-, diagnostic, hother, -⟩
    cases hfirst.symm.trans hother
  · exact iff_of_false (by rw [hjudge]; rintro ⟨⟩) hexpected

theorem judge_ne_skip : judge file copy expected compilation ≠ .ok .skip := by
  obtain ⟨-, hjudge⟩ | ⟨-, fault, hjudge⟩ | ⟨-, -, lines, hjudge⟩ :=
    judge_cases file copy expected compilation
  all_goals
    rw [hjudge]
    rintro ⟨⟩

end Verifier

end CompileFail
