import CompileFail.Utility.Difference
import Mathlib.Data.List.Forall2

/-! How two files differ. The lengths of the longest common parts are those that a table of all ends of the two files
is filled with, and along the table a way is found from one file to the other that keeps as many lines as can be
kept. So no change is shown exactly if the files have the same lines, and the changes that are shown, made to the
first file, give the second one. -/

namespace CompileFail.Utility

variable {same : Octets → Octets → Bool} {a b : Octets} {as bs cs : List Octets} {way rest : List (Fate × Octets)}

/-! ### The first difference -/

/-- Two texts have a first difference exactly if they differ. Up to there they are the same, and the line is told by the
line feeds that they have in common. -/
theorem firstDifference_cases (offset line : Nat) (s t : Octets) :
    firstDifference offset line s t = none ∧ s = t ∨
      ∃ common rest rest', s = common ++ rest ∧ t = common ++ rest' ∧ rest.head? ≠ rest'.head? ∧
        firstDifference offset line s t = some (offset + common.length, line + common.count '\n') := by
  induction s generalizing offset line t with
  | nil =>
      cases t with
      | nil => exact Or.inl ⟨by rw [firstDifference], rfl⟩
      | cons d t => exact Or.inr ⟨[], [], d :: t, rfl, rfl, by nofun, by rw [firstDifference] <;> simp⟩
  | cons c s ih =>
      cases t with
      | nil => exact Or.inr ⟨[], c :: s, [], rfl, rfl, by nofun, by rw [firstDifference] <;> simp⟩
      | cons d t =>
          rw [firstDifference]
          split
          · next heq =>
            subst heq
            rcases ih (offset + 1) (if c = '\n' then line + 1 else line) t with
              ⟨hnone, rfl⟩ | ⟨common, rest, rest', rfl, rfl, hne, hsome⟩
            · exact Or.inl ⟨hnone, rfl⟩
            · refine Or.inr ⟨c :: common, rest, rest', rfl, rfl, hne, ?_⟩
              have hline : (if c = '\n' then line + 1 else line) + common.count '\n' =
                  line + (c :: common).count '\n' := by
                simp only [List.count_cons, beq_iff_eq]
                split <;> omega
              rw [hsome, hline, List.length_cons, Nat.add_right_comm, Nat.add_assoc]
          · next hne => exact Or.inr ⟨[], c :: s, d :: t, rfl, rfl, by simpa using hne, by simp⟩

/-! ### Longest common parts -/

/-- The length of the longest common part of two lists of lines. -/
def longest (same : Octets → Octets → Bool) : List Octets → List Octets → Nat
  | [], _ => 0
  | _ :: _, [] => 0
  | a :: as, b :: bs =>
    if same a b then longest same as bs + 1
    else max (longest same as (b :: bs)) (longest same (a :: as) bs)

theorem longest_nil (as : List Octets) : longest same as [] = 0 := by
  cases as <;> rw [longest]

/-- One line more in the first list adds at most one line to the common part, if one line more in the second does. -/
theorem longest_cons_left (h : ∀ bs b, longest same as bs ≤ longest same as (b :: bs) ∧
      longest same as (b :: bs) ≤ longest same as bs + 1) (a : Octets) (bs : List Octets) :
    longest same as bs ≤ longest same (a :: as) bs ∧ longest same (a :: as) bs ≤ longest same as bs + 1 := by
  induction bs with
  | nil => simp [longest_nil]
  | cons b bs ih =>
      rw [longest]
      have hmore := h bs b
      split <;> omega

theorem longest_cons_right (as bs : List Octets) (b : Octets) :
    longest same as bs ≤ longest same as (b :: bs) ∧ longest same as (b :: bs) ≤ longest same as bs + 1 := by
  induction as generalizing bs b with
  | nil => simp [longest]
  | cons a as ih =>
      rw [longest]
      have hleft := longest_cons_left ih a bs
      have hright := ih bs b
      split <;> omega

/-! ### Ways from one file to another -/

/-- A way from one list of lines to another one. A line that is kept is the same in both. -/
inductive Way (same : Octets → Octets → Bool) : List Octets → List Octets → List (Fate × Octets) → Prop
  | done : Way same [] [] []
  | kept {a b : Octets} {as bs : List Octets} {rest : List (Fate × Octets)} (h : same a b = true)
    (hrest : Way same as bs rest) : Way same (a :: as) (b :: bs) ((.kept, a) :: rest)
  | dropped {a : Octets} {as bs : List Octets} {rest : List (Fate × Octets)} (hrest : Way same as bs rest) :
    Way same (a :: as) bs ((.dropped, a) :: rest)
  | added {b : Octets} {as bs : List Octets} {rest : List (Fate × Octets)} (hrest : Way same as bs rest) :
    Way same as (b :: bs) ((.added, b) :: rest)

/-- How many lines are kept. -/
def keptCount (way : List (Fate × Octets)) : Nat := way.countP (·.1 = .kept)

/-- No way keeps more lines than the longest common part has. -/
theorem Way.keptCount_le (h : Way same as bs way) : keptCount way ≤ longest same as bs := by
  induction h with
  | done => simp [keptCount]
  | @kept a b as bs rest hsame _ ih =>
      rw [longest, if_pos hsame]
      simpa [keptCount] using ih
  | @dropped a as bs rest _ ih =>
      simpa [keptCount] using Nat.le_trans ih (longest_cons_left (longest_cons_right as) a bs).1
  | @added b as bs rest _ ih =>
      simpa [keptCount] using Nat.le_trans ih (longest_cons_right as bs b).1

/-! ### The table -/

/-- The lengths of the longest common parts with all ends of the second list. -/
def rowOf (same : Octets → Octets → Bool) (as : List Octets) : List Octets → List Nat
  | [] => [0]
  | b :: bs => longest same as (b :: bs) :: rowOf same as bs

/-- The rows for all ends of the first list. -/
def tableOf (same : Octets → Octets → Bool) (bs : List Octets) : List Octets → List (List Nat)
  | [] => [rowOf same [] bs]
  | a :: as => rowOf same (a :: as) bs :: tableOf same bs as

theorem headD_rowOf : (rowOf same as bs).headD 0 = longest same as bs := by
  cases bs with
  | nil => exact (longest_nil as).symm
  | cons b bs => rfl

theorem length_rowOf : (rowOf same as bs).length = bs.length + 1 := by
  induction bs with
  | nil => rfl
  | cons b bs ih => rw [rowOf, List.length_cons, ih, List.length_cons]

theorem rowOf_nil_left : rowOf same [] bs = List.replicate (bs.length + 1) 0 := by
  induction bs with
  | nil => rfl
  | cons b bs ih => rw [rowOf, ih, longest, List.length_cons, ← List.replicate_succ]

/-- Each row is made from the one below it. -/
theorem commonRow_rowOf (a : Octets) (as bs : List Octets) :
    commonRow same a bs (rowOf same as bs) = rowOf same (a :: as) bs := by
  induction bs with
  | nil => rw [rowOf, commonRow, rowOf]; nofun
  | cons b bs ih => rw [rowOf, commonRow, ih, headD_rowOf, headD_rowOf, rowOf, longest]

theorem exists_tableOf (same : Octets → Octets → Bool) (as bs : List Octets) :
    ∃ rows, tableOf same bs as = rowOf same as bs :: rows := by
  cases as with
  | nil => exact ⟨[], rfl⟩
  | cons a as => exact ⟨tableOf same bs as, rfl⟩

theorem foldr_eq_tableOf (as bs : List Octets) :
    as.foldr (fun a rows => commonRow same a bs (rows.headD (List.replicate (bs.length + 1) 0)) :: rows)
      [List.replicate (bs.length + 1) 0] = tableOf same bs as := by
  induction as with
  | nil => rw [List.foldr_nil, ← rowOf_nil_left, tableOf]
  | cons a as ih =>
      obtain ⟨rows, hrows⟩ := exists_tableOf same as bs
      rw [List.foldr_cons, ih, tableOf, hrows, List.headD_cons, commonRow_rowOf]

/-- The end of a row that belongs to an end of the second list. -/
theorem drop_rowOf (front bs : List Octets) :
    (rowOf same as (front ++ bs)).drop ((rowOf same as (front ++ bs)).length - (bs.length + 1)) =
      rowOf same as bs := by
  have hlength : (rowOf same as (front ++ bs)).length - (bs.length + 1) = front.length := by
    rw [length_rowOf, List.length_append]
    omega
  rw [hlength]
  induction front with
  | nil => rfl
  | cons c front ih =>
      refine ih ?_
      rw [length_rowOf, List.length_append]
      omega

/-! ### The way that is found -/

/-- A way keeps as many lines as can be kept. -/
def Best (same : Octets → Octets → Bool) (as bs : List Octets) (way : List (Fate × Octets)) : Prop :=
  Way same as bs way ∧ keptCount way = longest same as bs

theorem Best.dropped (h : Best same as bs rest) (hlongest : longest same (a :: as) bs = longest same as bs) :
    Best same (a :: as) bs ((.dropped, a) :: rest) :=
  ⟨h.1.dropped, by rw [hlongest, ← h.2]; simp [keptCount]⟩

theorem Best.added (h : Best same as bs rest) (hlongest : longest same as (b :: bs) = longest same as bs) :
    Best same as (b :: bs) ((.added, b) :: rest) :=
  ⟨h.1.added, by rw [hlongest, ← h.2]; simp [keptCount]⟩

theorem Best.kept (h : Best same as bs rest) (hsame : same a b = true) :
    Best same (a :: as) (b :: bs) ((.kept, a) :: rest) :=
  ⟨h.1.kept hsame, by rw [longest, if_pos hsame, ← h.2]; simp [keptCount]⟩

/-- One line of the first list is dealt with, by way of the rows for it and for the lines below. -/
theorem best_across {next : List Octets → List (Fate × Octets)} (a : Octets) (front bs : List Octets)
    (hnext : ∀ bs', bs' <:+ bs → Best same as bs' (next bs')) :
    Best same (a :: as) bs (fates.across same (rowOf same (a :: as) (front ++ bs))
      (rowOf same as (front ++ bs)) a bs next) := by
  induction bs generalizing front with
  | nil =>
      rw [fates.across]
      exact (hnext [] List.suffix_rfl).dropped (by rw [longest_nil, longest_nil])
  | cons b bs ih =>
      rw [fates.across]
      simp only [drop_rowOf]
      split
      · next hsame => exact (hnext bs (List.suffix_cons b bs)).kept hsame
      · next hsame =>
        have hlongest : longest same (a :: as) (b :: bs) =
            max (longest same as (b :: bs)) (longest same (a :: as) bs) := by
          rw [longest, if_neg hsame]
        split
        · next hle =>
          rw [rowOf, List.drop_one, List.tail_cons, headD_rowOf, headD_rowOf] at hle
          exact (hnext (b :: bs) List.suffix_rfl).dropped (hlongest.trans (Nat.max_eq_left hle))
        · next hnot =>
          rw [rowOf, List.drop_one, List.tail_cons, headD_rowOf, headD_rowOf] at hnot
          refine Best.added ?_ (hlongest.trans (Nat.max_eq_right (Nat.le_of_not_le hnot)))
          exact ih [b] fun bs' hbs' => hnext bs' (hbs'.trans (List.suffix_cons b bs))

theorem best_added (bs : List Octets) : Best same [] bs (bs.map (Fate.added, ·)) := by
  induction bs with
  | nil => exact ⟨.done, by rw [longest]; rfl⟩
  | cons b bs ih => exact ih.added (by rw [longest, longest])

theorem best_go (as front bs : List Octets) :
    Best same as bs (fates.go same (tableOf same (front ++ bs) as) as bs) := by
  induction as generalizing front bs with
  | nil =>
      rw [tableOf, fates.go, List.map_nil, List.nil_append]
      · exact best_added bs
      · nofun
  | cons a as ih =>
      obtain ⟨rows, hrows⟩ := exists_tableOf same as (front ++ bs)
      rw [tableOf, hrows, fates.go, ← hrows]
      refine best_across a front bs fun bs' hbs' => ?_
      obtain ⟨middle, rfl⟩ := hbs'
      have hrest := ih (front ++ middle) bs'
      rwa [List.append_assoc] at hrest

/-- A way is found that keeps as many lines as can be kept. -/
theorem best_fates (same : Octets → Octets → Bool) (as bs : List Octets) : Best same as bs (fates same as bs) := by
  have hgo : Best same as bs (fates.go same (tableOf same ([] ++ bs) as) as bs) := best_go as [] bs
  rwa [List.nil_append, ← foldr_eq_tableOf] at hgo

/-- No way keeps more lines than the one that is found. -/
theorem keptCount_le_fates (h : Way same as bs way) : keptCount way ≤ keptCount (fates same as bs) :=
  (best_fates same as bs).2 ▸ h.keptCount_le

/-! ### Changes -/

theorem join_ne_nil (h : Hunk) (hs : List Hunk) : hunks.join h hs ≠ [] := by
  unfold hunks.join
  split
  · split <;> exact List.cons_ne_nil _ _
  · exact List.cons_ne_nil _ _

/-- A way has no change exactly if it keeps each line. -/
theorem hunks_eq_nil_iff {i j : Nat} : hunks i j way = [] ↔ ∀ step ∈ way, step.1 = .kept := by
  induction way generalizing i j with
  | nil => simp [hunks]
  | cons step way ih =>
      obtain ⟨fate, line⟩ := step
      cases fate with
      | kept => simp [hunks, ih]
      | dropped => simp [hunks, join_ne_nil]
      | added => simp [hunks, join_ne_nil]

theorem Way.forall₂_of_kept (h : Way same as bs way) (hkept : ∀ step ∈ way, step.1 = .kept) :
    List.Forall₂ (same · · = true) as bs := by
  induction h with
  | done => exact .nil
  | kept hsame _ ih => exact .cons hsame (ih (List.forall_mem_cons.mp hkept).2)
  | dropped => exact absurd (List.forall_mem_cons.mp hkept).1 (by nofun)
  | added => exact absurd (List.forall_mem_cons.mp hkept).1 (by nofun)

theorem Way.length_add (h : Way same as bs way) : as.length + bs.length = way.length + keptCount way := by
  induction h with
  | done => rfl
  | kept _ _ ih => simp [keptCount] at ih ⊢; omega
  | dropped _ ih => simp [keptCount] at ih ⊢; omega
  | added _ ih => simp [keptCount] at ih ⊢; omega

theorem exists_way_of_forall₂ (h : List.Forall₂ (same · · = true) as bs) :
    ∃ way, Way same as bs way ∧ keptCount way = as.length := by
  induction h with
  | nil => exact ⟨[], .done, rfl⟩
  | @cons a b as bs hsame _ ih =>
      obtain ⟨way, hway, hall⟩ := ih
      exact ⟨(.kept, a) :: way, hway.kept hsame, by simpa [keptCount] using hall⟩

/-- No change is found exactly if the files have the same lines. -/
theorem hunks_fates_eq_nil_iff :
    hunks 0 0 (fates same as bs) = [] ↔ List.Forall₂ (same · · = true) as bs := by
  rw [hunks_eq_nil_iff]
  have hway := (best_fates same as bs).1
  refine ⟨hway.forall₂_of_kept, fun h => ?_⟩
  obtain ⟨way, hkeeps, hall⟩ := exists_way_of_forall₂ h
  -- Where a way keeps all lines, the way that is found drops and adds none.
  have hcount : keptCount (fates same as bs) = (fates same as bs).length := by
    have hmost := keptCount_le_fates hkeeps
    have hlength := hway.length_add
    have hsame := h.length_eq
    have hle : keptCount (fates same as bs) ≤ (fates same as bs).length := List.countP_le_length
    omega
  simpa using List.countP_eq_length.mp hcount

/-- Makes changes to a list of lines, of which the first `i` are left behind. -/
def patched (i : Nat) : List Hunk → List Octets → List Octets
  | [], as => as
  | h :: hs, as =>
    as.take (h.first - i) ++ h.added ++
      patched (h.first + h.dropped.length) hs (as.drop (h.first - i + h.dropped.length))

variable {i j : Nat} {h : Hunk} {hs : List Hunk}

/-- Changes that follow at once are the same as one. -/
theorem patched_join (i : Nat) (h : Hunk) (hs : List Hunk) (as : List Octets) :
    patched i (hunks.join h hs) as = patched i (h :: hs) as := by
  unfold hunks.join
  split
  · next next more =>
    split
    · next hjoin =>
      obtain ⟨hfirst, -⟩ := hjoin
      simp only [patched, hfirst, Nat.sub_self, List.take_zero, List.nil_append, Nat.zero_add, List.drop_drop,
        List.length_append, List.append_assoc, Nat.add_assoc]
    · rfl
  · rfl

theorem first_join : ∀ h' ∈ (hunks.join h hs).head?, h'.first = h.first := by
  unfold hunks.join
  split
  · split
    · rintro _ ⟨⟩
      rfl
    · rintro _ ⟨⟩
      rfl
  · rintro _ ⟨⟩
    rfl

/-- Changes start where the way does, or later. -/
theorem le_first_hunks : ∀ h ∈ (hunks i j way).head?, i ≤ h.first := by
  induction way generalizing i j with
  | nil => nofun
  | cons step way ih =>
      obtain ⟨fate, line⟩ := step
      cases fate with
      | kept => exact fun h hh => Nat.le_of_succ_le (ih h hh)
      | dropped => exact fun h hh => Nat.le_of_eq (first_join h hh).symm
      | added => exact fun h hh => Nat.le_of_eq (first_join h hh).symm

/-- A line in front of all changes stays. -/
theorem patched_cons (hfirst : ∀ h ∈ hs.head?, i + 1 ≤ h.first) :
    patched i hs (a :: as) = a :: patched (i + 1) hs as := by
  cases hs with
  | nil => rfl
  | cons h hs =>
      have hle := hfirst h rfl
      rw [patched, patched, show h.first - i = h.first - (i + 1) + 1 by omega, List.take_succ_cons,
        Nat.add_right_comm, List.drop_succ_cons]
      rfl

/-- The changes of a way, made to the lines that it starts from, give those that it leads to. -/
theorem patched_hunks (hsame : ∀ a b, same a b = true → a = b) (hway : Way same as bs way) :
    patched i (hunks i j way) as = bs := by
  induction hway generalizing i j with
  | done => rfl
  | kept hab _ ih => rw [hunks, patched_cons le_first_hunks, ih, hsame _ _ hab]
  | dropped _ ih =>
      rw [hunks, patched_join, patched]
      simp [ih]
  | added _ ih =>
      rw [hunks, patched_join, patched]
      simp [ih]

/-- The changes that are found lead from the first file to the second one. -/
theorem patched_fates (hsame : ∀ a b, same a b = true → a = b) (as bs : List Octets) :
    patched 0 (hunks 0 0 (fates same as bs)) as = bs :=
  patched_hunks hsame (best_fates same as bs).1

end CompileFail.Utility
