import CompileFail.Report
import Mathlib.Data.List.Perm.Basic

/-! A report as a function of its steps. The outcome is the worst of the steps' own outcomes, and the
error stream holds the blocks that the steps wrote, one after another. The order of the steps shows only
in the order of what is written: permuted steps give the same outcome and the same counts. -/

namespace CompileFail

namespace Outcome

theorem worse_eq_passed_iff {a b : Outcome} : a.worse b = passed ↔ a = passed ∧ b = passed := by
  cases a <;> cases b <;> decide

theorem worse_eq_technicalError_iff {a b : Outcome} :
    a.worse b = technicalError ↔ a = technicalError ∨ b = technicalError := by
  cases a <;> cases b <;> decide

theorem worse_right_comm (a b c : Outcome) : (a.worse b).worse c = (a.worse c).worse b := by
  cases a <;> cases b <;> cases c <;> rfl

theorem worse_passed (a : Outcome) : a.worse passed = a := by
  cases a <;> rfl

end Outcome

namespace Report

/-- What a step alone makes of a report that was fine. -/
def Step.outcome : Step → Outcome
  | .failure .. => .failed
  | .technical _ => .technicalError
  | _ => .passed

/-- What a step adds to the counts if it is no announcement. -/
def Step.tally (counts : Counts) : Step → Counts
  | .pass => { counts with passed := counts.passed + 1 }
  | .skip => { counts with skipped := counts.skipped + 1 }
  | .failure .. => { counts with failed := counts.failed + 1 }
  | _ => counts

/-- What a step writes to the output stream if it is no announcement. -/
def Step.line? : Step → Option Text
  | .print text => some (text ++ ['\n'])
  | _ => none

/-- What a step writes to the error stream. -/
def Step.block? : Step → Option Text
  | .failure file lineIndex lines => some (lines.map (Line.render file lineIndex)).flatten
  | .technical fault => some (("ERROR: " : Text) ++ fault.message ++ ['\n'])
  | _ => none

variable {r r' : Report} {steps steps' : List Step}

theorem addAll_append (r : Report) (before after : List Step) :
    r.addAll (before ++ after) = (r.addAll before).addAll after := List.foldl_append

theorem addAll_cons (r : Report) (step : Step) (steps : List Step) :
    r.addAll (step :: steps) = (r.add step).addAll steps := rfl

theorem add_announce_of_mem {file : Path} (h : title r.titleRoot file ∈ r.announced) :
    r.add (.announce file) = r := if_pos h

theorem add_announce_of_not_mem {file : Path} (h : title r.titleRoot file ∉ r.announced) :
    r.add (.announce file) =
      { r with
        announced := r.announced ++ [title r.titleRoot file]
        counts := { r.counts with files := r.counts.files + 1 }
        out := r.out ++ [announcement (title r.titleRoot file)] } := if_neg h

/-- A step that is no announcement takes no notice of what was announced before. -/
theorem add_of_not_announce (r : Report) {step : Step} (hstep : ∀ file, step ≠ .announce file) :
    r.add step =
      { r with
        outcome := r.outcome.worse step.outcome
        counts := step.tally r.counts
        out := r.out ++ step.line?.toList
        err := r.err ++ step.block?.toList } := by
  cases step with
  | announce file => exact absurd rfl (hstep file)
  | _ => simp [add, Step.outcome, Step.tally, Step.line?, Step.block?, Outcome.worse_passed]

theorem outcome_add (r : Report) (step : Step) : (r.add step).outcome = r.outcome.worse step.outcome := by
  cases step with
  | announce file =>
      refine Eq.trans ?_ (Outcome.worse_passed _).symm
      simp only [add]
      split <;> rfl
  | _ => rw [add_of_not_announce r (by rintro _ ⟨⟩)]

theorem outcome_addAll_eq_passed_iff :
    (r.addAll steps).outcome = .passed ↔ r.outcome = .passed ∧ ∀ step ∈ steps, step.outcome = .passed := by
  induction steps generalizing r with
  | nil => simp [addAll]
  | cons step steps ih =>
      rw [addAll_cons, ih, outcome_add, Outcome.worse_eq_passed_iff, List.forall_mem_cons, and_assoc]

theorem outcome_addAll_eq_technicalError_iff :
    (r.addAll steps).outcome = .technicalError ↔
      r.outcome = .technicalError ∨ ∃ step ∈ steps, step.outcome = .technicalError := by
  induction steps generalizing r with
  | nil => simp [addAll]
  | cons step steps ih =>
      rw [addAll_cons, ih, outcome_add, Outcome.worse_eq_technicalError_iff, or_assoc]
      simp only [List.mem_cons, exists_eq_or_imp]

theorem err_add (r : Report) (step : Step) : (r.add step).err = r.err ++ step.block?.toList := by
  cases step with
  | announce file =>
      refine Eq.trans ?_ (List.append_nil _).symm
      simp only [add]
      split <;> rfl
  | _ => rw [add_of_not_announce r (by rintro _ ⟨⟩)]

/-- Each step writes what it writes in one piece, behind all that was written before. -/
theorem err_addAll (r : Report) (steps : List Step) :
    (r.addAll steps).err = r.err ++ steps.filterMap Step.block? := by
  induction steps generalizing r with
  | nil => exact (List.append_nil _).symm
  | cons step steps ih =>
      rw [addAll_cons, ih, err_add, List.append_assoc, List.filterMap_cons]
      cases step.block? <;> rfl

/-! ### Announcements -/

theorem titleRoot_add (r : Report) (step : Step) : (r.add step).titleRoot = r.titleRoot := by
  cases step with
  | announce file =>
      simp only [add]
      split <;> rfl
  | _ => rfl

theorem titleRoot_addAll (r : Report) (steps : List Step) : (r.addAll steps).titleRoot = r.titleRoot := by
  induction steps generalizing r with
  | nil => rfl
  | cons step steps ih => rw [addAll_cons, ih, titleRoot_add]

theorem announced_subset_add (r : Report) (step : Step) : r.announced ⊆ (r.add step).announced := by
  cases step with
  | announce file =>
      simp only [add]
      split
      · exact List.Subset.refl _
      · exact List.subset_append_left _ _
  | _ => exact List.Subset.refl _

theorem announced_subset_addAll (r : Report) (steps : List Step) :
    r.announced ⊆ (r.addAll steps).announced := by
  induction steps generalizing r with
  | nil => exact List.Subset.refl _
  | cons step steps ih => exact List.Subset.trans (announced_subset_add r step) (ih (r.add step))

theorem title_mem_announced_add (r : Report) (file : Path) :
    title r.titleRoot file ∈ (r.add (.announce file)).announced := by
  simp only [add]
  split
  · next h => exact h
  · exact List.mem_append_right _ (List.mem_singleton_self _)

theorem title_mem_announced {file : Path} (h : .announce file ∈ steps) :
    title r.titleRoot file ∈ (r.addAll steps).announced := by
  obtain ⟨before, after, rfl⟩ := List.append_of_mem h
  rw [addAll_append, addAll_cons, ← titleRoot_addAll r before]
  exact announced_subset_addAll _ _ (title_mem_announced_add _ _)

/-- Every announced title has its line on the output stream. -/
def Announces (r : Report) : Prop := ∀ t ∈ r.announced, announcement t ∈ r.out

theorem Announces.add (h : r.Announces) (step : Step) : (r.add step).Announces := by
  cases step with
  | announce file =>
      simp only [Report.add]
      split
      · exact h
      · intro t ht
        rcases List.mem_append.mp ht with hold | hnew
        · exact List.mem_append_left _ (h t hold)
        · exact List.mem_append_right _ (by simp_all)
  | print text => exact fun t ht => List.mem_append_left _ (h t ht)
  | _ => exact h

theorem Announces.addAll (h : r.Announces) (steps : List Step) : (r.addAll steps).Announces := by
  induction steps generalizing r with
  | nil => exact h
  | cons step steps ih => exact ih (h.add step)

theorem announces_start (titleRoot : Path) : (start titleRoot).Announces := by
  intro t ht
  cases ht

/-! ### The order of the steps -/

/-- Two reports that differ at most in the order of what they hold. -/
structure Same (r r' : Report) : Prop where
  titleRoot : r.titleRoot = r'.titleRoot
  outcome : r.outcome = r'.outcome
  counts : r.counts = r'.counts
  announced : r.announced.Perm r'.announced
  out : r.out.Perm r'.out
  err : r.err.Perm r'.err

namespace Same

theorem refl (r : Report) : Same r r := ⟨rfl, rfl, rfl, .refl _, .refl _, .refl _⟩

theorem trans {r'' : Report} (h : Same r r') (h' : Same r' r'') : Same r r'' :=
  ⟨h.titleRoot.trans h'.titleRoot, h.outcome.trans h'.outcome, h.counts.trans h'.counts,
    h.announced.trans h'.announced, h.out.trans h'.out, h.err.trans h'.err⟩

theorem symm (h : Same r r') : Same r' r :=
  ⟨h.titleRoot.symm, h.outcome.symm, h.counts.symm, h.announced.symm, h.out.symm, h.err.symm⟩

theorem add (h : Same r r') (step : Step) : Same (r.add step) (r'.add step) := by
  obtain ⟨hroot, houtcome, hcounts, hannounced, hout, herr⟩ := h
  cases step with
  | announce file =>
      simp only [Report.add, hroot, hcounts, hannounced.mem_iff]
      split
      · exact ⟨hroot, houtcome, hcounts, hannounced, hout, herr⟩
      · exact ⟨rfl, houtcome, rfl, hannounced.append_right _, hout.append_right _, herr⟩
  | _ =>
      rw [add_of_not_announce r (by rintro _ ⟨⟩), add_of_not_announce r' (by rintro _ ⟨⟩), houtcome, hcounts]
      exact ⟨hroot, rfl, rfl, hannounced, hout.append_right _, herr.append_right _⟩

theorem addAll (h : Same r r') (steps : List Step) : Same (r.addAll steps) (r'.addAll steps) := by
  induction steps generalizing r r' with
  | nil => exact h
  | cons step steps ih => exact ih (h.add step)

end Same

theorem append_right_comm {α : Type} (xs ys zs : List α) : (xs ++ ys ++ zs).Perm (xs ++ zs ++ ys) := by
  rw [List.append_assoc, List.append_assoc]
  exact List.perm_append_comm.append_left xs

theorem tally_right_comm (counts : Counts) (a b : Step) :
    b.tally (a.tally counts) = a.tally (b.tally counts) := by
  cases a <;> cases b <;> rfl

theorem announced_add {step : Step} (hstep : ∀ file, step ≠ .announce file) :
    (r.add step).announced = r.announced := by
  rw [add_of_not_announce r hstep]

theorem add_announce_right_comm (r : Report) (file : Path) {step : Step}
    (hstep : ∀ other, step ≠ .announce other) :
    Same ((r.add (.announce file)).add step) ((r.add step).add (.announce file)) := by
  have hafter : title (r.add step).titleRoot file ∈ (r.add step).announced ↔
      title r.titleRoot file ∈ r.announced := by
    rw [titleRoot_add, announced_add hstep]
  by_cases h : title r.titleRoot file ∈ r.announced
  · rw [add_announce_of_mem h, add_announce_of_mem (hafter.mpr h)]
    exact Same.refl _
  · rw [add_announce_of_not_mem h, add_announce_of_not_mem (mt hafter.mp h), add_of_not_announce _ hstep,
      add_of_not_announce _ hstep]
    refine ⟨rfl, rfl, ?_, .refl _, append_right_comm _ _ _, .refl _⟩
    cases step <;> rfl

theorem add_announce_comm (r : Report) (file file' : Path) :
    Same ((r.add (.announce file)).add (.announce file'))
      ((r.add (.announce file')).add (.announce file)) := by
  by_cases h : title r.titleRoot file ∈ r.announced
  · have hafter : title (r.add (.announce file')).titleRoot file ∈ (r.add (.announce file')).announced := by
      rw [titleRoot_add]
      exact announced_subset_add _ _ h
    rw [add_announce_of_mem h, add_announce_of_mem hafter]
    exact Same.refl _
  by_cases h' : title r.titleRoot file' ∈ r.announced
  · have hafter : title (r.add (.announce file)).titleRoot file' ∈ (r.add (.announce file)).announced := by
      rw [titleRoot_add]
      exact announced_subset_add _ _ h'
    rw [add_announce_of_mem h', add_announce_of_mem hafter]
    exact Same.refl _
  by_cases htitle : title r.titleRoot file = title r.titleRoot file'
  · rw [add_announce_of_not_mem h, add_announce_of_not_mem h', htitle]
    simp only [add, htitle]
    exact Same.refl _
  · rw [add_announce_of_not_mem h, add_announce_of_not_mem h', add_announce_of_not_mem,
      add_announce_of_not_mem]
    · exact ⟨rfl, rfl, rfl, append_right_comm _ _ _, append_right_comm _ _ _, .refl _⟩
    · simp [h, htitle]
    · simp [h', Ne.symm htitle]

theorem add_comm (r : Report) (a b : Step) : Same ((r.add a).add b) ((r.add b).add a) := by
  by_cases ha : ∃ file, a = .announce file <;> by_cases hb : ∃ file, b = .announce file
  · obtain ⟨file, rfl⟩ := ha
    obtain ⟨file', rfl⟩ := hb
    exact add_announce_comm r file file'
  · obtain ⟨file, rfl⟩ := ha
    exact add_announce_right_comm r file (not_exists.mp hb)
  · obtain ⟨file, rfl⟩ := hb
    exact (add_announce_right_comm r file (not_exists.mp ha)).symm
  · simp only [add_of_not_announce _ (not_exists.mp ha), add_of_not_announce _ (not_exists.mp hb)]
    exact ⟨rfl, Outcome.worse_right_comm _ _ _, tally_right_comm _ _ _, .refl _, append_right_comm _ _ _,
      append_right_comm _ _ _⟩

theorem same_addAll_of_perm (r : Report) (h : steps.Perm steps') :
    Same (r.addAll steps) (r.addAll steps') := by
  induction h generalizing r with
  | nil => exact Same.refl _
  | cons step _ ih => exact ih (r.add step)
  | swap a b steps => exact (add_comm r b a).addAll steps
  | trans _ _ ih ih' => exact (ih r).trans (ih' r)

/-! ### Causes -/

variable {select : Path → Bool}

end Report

end CompileFail
