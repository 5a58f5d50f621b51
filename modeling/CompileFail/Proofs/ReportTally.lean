import CompileFail.Proofs.ReportSteps
import Mathlib.Data.List.Dedup

/-! What a report comes to. Its outcome only ever gets worse, its counters count steps, and the files it
counts are the titles that were announced, each of which was printed when it came up first. The order of
the steps matters for none of this, so the report of a run does not depend on how its units took turns. -/

namespace CompileFail

theorem Outcome.exitCode_le_worse (a b : Outcome) : a.exitCode ≤ (a.worse b).exitCode := by
  cases a <;> cases b <;> decide

theorem Outcome.exitCode_eq_zero_iff {a : Outcome} : a.exitCode = 0 ↔ a = passed := by
  cases a <;> decide

namespace Report

def Step.isFailure : Step → Bool
  | .failure .. => true
  | _ => false

def Step.isAnnounce : Step → Bool
  | .announce _ => true
  | _ => false

/-- The titles that some steps announce, one for each announcement. -/
def titles (root : Path) (steps : List Step) : List Text :=
  steps.filterMap fun
    | .announce file => some (title root file)
    | _ => none

variable {r : Report} {steps : List Step}

theorem titles_cons_announce (root file : Path) (steps : List Step) :
    titles root (.announce file :: steps) = title root file :: titles root steps := rfl

theorem titles_cons_of_not_announce (root : Path) {step : Step} (hstep : ∀ file, step ≠ .announce file)
    (steps : List Step) : titles root (step :: steps) = titles root steps := by
  cases step with
  | announce file => exact absurd rfl (hstep file)
  | _ => rfl

theorem exitCode_le_addAll (r : Report) (steps : List Step) :
    r.outcome.exitCode ≤ (r.addAll steps).outcome.exitCode := by
  induction steps generalizing r with
  | nil => exact Nat.le_refl _
  | cons step steps ih =>
      calc r.outcome.exitCode
          ≤ (r.add step).outcome.exitCode := by
            rw [outcome_add]
            exact Outcome.exitCode_le_worse _ _
        _ ≤ (r.addAll (step :: steps)).outcome.exitCode := ih (r.add step)

theorem Step.outcome_eq_technicalError_iff {step : Step} :
    step.outcome = .technicalError ↔ ∃ fault, step = .technical fault := by
  cases step <;> simp [outcome]

theorem Step.outcome_eq_passed_iff {step : Step} :
    step.outcome = .passed ↔ step.isFailure = false ∧ ∀ fault, step ≠ .technical fault := by
  cases step <;> simp [outcome, isFailure]

theorem outcome_start_eq_technicalError_iff (root : Path) (steps : List Step) :
    ((start root).addAll steps).outcome = .technicalError ↔ ∃ fault, .technical fault ∈ steps := by
  rw [outcome_addAll_eq_technicalError_iff, or_iff_right (by rintro ⟨⟩)]
  constructor
  · rintro ⟨step, hstep, houtcome⟩
    obtain ⟨fault, rfl⟩ := Step.outcome_eq_technicalError_iff.mp houtcome
    exact ⟨fault, hstep⟩
  · rintro ⟨fault, hstep⟩
    exact ⟨_, hstep, rfl⟩

theorem outcome_start_eq_passed_iff (root : Path) (steps : List Step) :
    ((start root).addAll steps).outcome = .passed ↔
      (∀ step ∈ steps, step.isFailure = false) ∧ ¬∃ fault, .technical fault ∈ steps := by
  rw [outcome_addAll_eq_passed_iff, and_iff_right (a := (start root).outcome = .passed) rfl]
  simp only [Step.outcome_eq_passed_iff]
  constructor
  · intro h
    refine ⟨fun step hstep => (h step hstep).1, ?_⟩
    rintro ⟨fault, hfault⟩
    exact (h _ hfault).2 fault rfl
  · rintro ⟨hfailure, htechnical⟩ step hstep
    refine ⟨hfailure step hstep, ?_⟩
    rintro fault rfl
    exact htechnical ⟨fault, hstep⟩

/-! ### The counts -/

/-- A counter other than that of the files counts the steps at which it goes up. -/
theorem counter_addAll {counter : Counts → Nat} {p : Step → Bool}
    (hfiles : ∀ counts files, counter { counts with files := files } = counter counts)
    (htally : ∀ counts step, counter (Step.tally counts step) = counter counts + (p step).toNat)
    (r : Report) (steps : List Step) :
    counter (r.addAll steps).counts = counter r.counts + steps.countP p := by
  have hadd : ∀ (r : Report) step, counter (r.add step).counts = counter r.counts + (p step).toNat := by
    intro r step
    rw [← htally]
    by_cases hstep : ∃ file, step = .announce file
    · obtain ⟨file, rfl⟩ := hstep
      by_cases hmem : title r.titleRoot file ∈ r.announced
      · rw [add_announce_of_mem hmem]
        rfl
      · rw [add_announce_of_not_mem hmem]
        exact hfiles _ _
    · rw [add_of_not_announce r (not_exists.mp hstep)]
  induction steps generalizing r with
  | nil => rfl
  | cons step steps ih =>
      rw [addAll_cons, ih, hadd, List.countP_cons, Nat.add_assoc, Nat.add_comm (List.countP p steps)]
      cases p step <;> rfl

theorem failed_addAll (r : Report) (steps : List Step) :
    (r.addAll steps).counts.failed = r.counts.failed + steps.countP Step.isFailure :=
  counter_addAll (fun _ _ => rfl) (by rintro counts (_ | _ | _ | _ | _ | _) <;> rfl) r steps

theorem passed_addAll (r : Report) (steps : List Step) :
    (r.addAll steps).counts.passed = r.counts.passed + steps.count .pass :=
  counter_addAll (fun _ _ => rfl) (by rintro counts (_ | _ | _ | _ | _ | _) <;> rfl) r steps

theorem skipped_addAll (r : Report) (steps : List Step) :
    (r.addAll steps).counts.skipped = r.counts.skipped + steps.count .skip :=
  counter_addAll (fun _ _ => rfl) (by rintro counts (_ | _ | _ | _ | _ | _) <;> rfl) r steps

/-! ### The announcements -/

/-- The announced titles are different, and they are the files that are counted. -/
structure Counted (r : Report) : Prop where
  nodup : r.announced.Nodup
  files : r.counts.files = r.announced.length

theorem counted_start (root : Path) : (start root).Counted := ⟨List.nodup_nil, rfl⟩

theorem Counted.add (h : r.Counted) (step : Step) : (r.add step).Counted := by
  cases step with
  | announce file =>
      by_cases hmem : title r.titleRoot file ∈ r.announced
      · rw [add_announce_of_mem hmem]
        exact h
      · rw [add_announce_of_not_mem hmem]
        refine ⟨?_, ?_⟩
        · exact h.nodup.append (List.nodup_singleton _) (by simpa using hmem)
        · simp [h.files]
  | _ => exact ⟨h.nodup, h.files⟩

theorem Counted.addAll (h : r.Counted) (steps : List Step) : (r.addAll steps).Counted := by
  induction steps generalizing r with
  | nil => exact h
  | cons step steps ih => exact ih (h.add step)

theorem mem_announced_addAll_iff {t : Text} :
    t ∈ (r.addAll steps).announced ↔ t ∈ r.announced ∨ t ∈ titles r.titleRoot steps := by
  induction steps generalizing r with
  | nil => simp [addAll, titles]
  | cons step steps ih =>
      rw [addAll_cons, ih, titleRoot_add]
      by_cases hstep : ∃ file, step = .announce file
      · obtain ⟨file, rfl⟩ := hstep
        rw [titles_cons_announce, List.mem_cons, ← or_assoc]
        by_cases hmem : title r.titleRoot file ∈ r.announced
        · rw [add_announce_of_mem hmem]
          have hold : t = title r.titleRoot file → t ∈ r.announced := fun ht => ht ▸ hmem
          rw [or_iff_left_of_imp hold]
        · rw [add_announce_of_not_mem hmem, List.mem_append, List.mem_singleton]
      · rw [announced_add (not_exists.mp hstep), titles_cons_of_not_announce _ (not_exists.mp hstep)]

/-- The announced titles are those of the announcements, each of them once. -/
theorem announced_start_perm (root : Path) (steps : List Step) :
    ((start root).addAll steps).announced.Perm (titles root steps).dedup := by
  refine (List.perm_ext_iff_of_nodup ((counted_start root).addAll steps).nodup (List.nodup_dedup _)).mpr ?_
  intro t
  rw [mem_announced_addAll_iff, List.mem_dedup]
  simp [start]

theorem files_start (root : Path) (steps : List Step) :
    ((start root).addAll steps).counts.files = (titles root steps).dedup.length := by
  rw [((counted_start root).addAll steps).files, (announced_start_perm root steps).length_eq]

/-- An announcement is printed unless its title was announced before. -/
theorem out_add_announce (root : Path) (before : List Step) (file : Path) :
    ((start root).addAll (before ++ [.announce file])).out = ((start root).addAll before).out ++
      if title root file ∈ titles root before then [] else [announcement (title root file)] := by
  have hroot : ((start root).addAll before).titleRoot = root := titleRoot_addAll _ _
  have hmem : title root file ∈ ((start root).addAll before).announced ↔
      title root file ∈ titles root before := by
    rw [mem_announced_addAll_iff]
    simp [start]
  rw [addAll_append, addAll_cons]
  by_cases h : title root file ∈ titles root before
  · rw [if_pos h, List.append_nil, add_announce_of_mem (by rw [hroot, hmem]; exact h)]
    rfl
  · rw [if_neg h, add_announce_of_not_mem (by rw [hroot, hmem]; exact h), hroot]
    rfl

theorem out_add_of_not_announce (r : Report) {step : Step} (hstep : ∀ file, step ≠ .announce file) :
    (r.add step).out = r.out ++ step.line?.toList := by
  rw [add_of_not_announce r hstep]

theorem exitCode_take_le (r : Report) (steps : List Step) {i j : Nat} (hij : i ≤ j) :
    (r.addAll (steps.take i)).outcome.exitCode ≤ (r.addAll (steps.take j)).outcome.exitCode := by
  have htake : steps.take j = steps.take i ++ (steps.drop i).take (j - i) := by
    rw [← List.take_add, Nat.add_sub_cancel' hij]
  rw [htake, addAll_append]
  exact exitCode_le_addAll _ _

theorem countP_isFailure_eq_zero_iff :
    steps.countP Step.isFailure = 0 ↔ ¬∃ file index lines, .failure file index lines ∈ steps := by
  rw [List.countP_eq_zero]
  constructor
  · rintro hnone ⟨file, index, lines, hmem⟩
    exact hnone _ hmem rfl
  · intro hnone step hstep hfails
    cases step with
    | failure file index lines => exact hnone ⟨file, index, lines, hstep⟩
    | _ => cases hfails

/-- The report that some steps make from a fresh one. Its outcome never gets better on the way and is that
of the gravest step; the counters are the numbers of the respective steps, and the files those of the
different titles. Only the first announcement of a title is printed. Permuted steps give the same outcome
and counts, and the same blocks on both streams up to order. -/
theorem report_of_steps (root : Path) (steps : List Step) :
    let r := (start root).addAll steps
    (∀ i j, i ≤ j → ((start root).addAll (steps.take i)).outcome.exitCode ≤
      ((start root).addAll (steps.take j)).outcome.exitCode) ∧
    (r.outcome = .technicalError ↔ ∃ fault, .technical fault ∈ steps) ∧
    (r.outcome = .failed ↔
      (∃ file index lines, .failure file index lines ∈ steps) ∧ ¬∃ fault, .technical fault ∈ steps) ∧
    (r.outcome = .passed ↔ r.counts.failed = 0 ∧ ¬∃ fault, .technical fault ∈ steps) ∧
    r.counts.failed = steps.countP Step.isFailure ∧
    r.counts.passed = steps.count .pass ∧
    r.counts.skipped = steps.count .skip ∧
    r.counts.files = (titles root steps).dedup.length ∧
    (∀ before step after, steps = before ++ step :: after →
      (∀ file, step = .announce file →
        ((start root).addAll (before ++ [step])).out = ((start root).addAll before).out ++
          if title root file ∈ titles root before then [] else [announcement (title root file)]) ∧
      ((∀ file, step ≠ .announce file) →
        ((start root).addAll (before ++ [step])).out =
          ((start root).addAll before).out ++ step.line?.toList)) ∧
    ∀ steps', steps.Perm steps' →
      let r' := (start root).addAll steps'
      r.outcome = r'.outcome ∧ r.counts = r'.counts ∧ r.out.Perm r'.out ∧ r.err.Perm r'.err := by
  intro r
  have hfailed : r.counts.failed = steps.countP Step.isFailure := by
    rw [failed_addAll]
    exact Nat.zero_add _
  have htechnical : r.outcome = .technicalError ↔ ∃ fault, .technical fault ∈ steps :=
    outcome_start_eq_technicalError_iff root steps
  have hpassed : r.outcome = .passed ↔ r.counts.failed = 0 ∧ ¬∃ fault, .technical fault ∈ steps := by
    rw [outcome_start_eq_passed_iff, hfailed, List.countP_eq_zero]
    simp only [Bool.not_eq_true]
  have hfailure : r.counts.failed = 0 ↔ ¬∃ file index lines, .failure file index lines ∈ steps := by
    rw [hfailed, countP_isFailure_eq_zero_iff]
  refine ⟨fun _ _ => exitCode_take_le _ steps, htechnical, ?_, hpassed, hfailed, ?_, ?_, files_start root steps,
    ?_, ?_⟩
  · have hworst : r.outcome = .failed ↔ r.outcome ≠ .passed ∧ r.outcome ≠ .technicalError := by
      cases r.outcome <;> decide
    rw [hworst, Ne, Ne, hpassed, hfailure, htechnical, not_and_not_right]
    constructor
    · rintro ⟨himplies, htechnical⟩
      refine ⟨?_, htechnical⟩
      by_contra hnone
      exact htechnical (himplies hnone)
    · rintro ⟨hsome, htechnical⟩
      exact ⟨fun hnone => absurd hsome hnone, htechnical⟩
  · rw [passed_addAll]
    exact Nat.zero_add _
  · rw [skipped_addAll]
    exact Nat.zero_add _
  · rintro before step after -
    refine ⟨?_, fun hstep => ?_⟩
    · rintro file rfl
      exact out_add_announce root before file
    · rw [addAll_append]
      exact out_add_of_not_announce _ hstep
  · intro steps' hperm
    have hsame := same_addAll_of_perm (start root) hperm
    exact ⟨hsame.outcome, hsame.counts, hsame.out, hsame.err⟩

end Report

end CompileFail
