import CompileFail.Script.Pattern

/-! Which texts fit a pattern of a shell. The fuel of the search is enough for any pattern and any text, since what is
left of the two gets shorter with each step; so fitting obeys the equations by which it is read, and a star stands
for any text in front of one that fits the rest. A quoted text fits itself alone. -/

namespace CompileFail.Script.Pattern

variable {style : PatternStyle} {g : Glyph} {p rest after : Pattern} {s t : Text} {fuel : Nat}

/-! ### What is left of a pattern -/

theorem length_of_members? {first : Bool} {ranges : List (Char × Char)}
    (h : members? fuel first p = some (ranges, after)) : after.length < p.length := by
  induction fuel generalizing first p ranges with
  | zero => simp [members?] at h
  | succ fuel ih =>
      cases p with
      | nil => simp [members?] at h
      | cons g rest =>
          unfold members? at h
          have hcons : ∀ {first : Bool} {rest' : Pattern} {ranges : List (Char × Char)},
              members? fuel first rest' = some (ranges, after) → rest'.length ≤ rest.length →
              after.length < (g :: rest).length := fun hfound hle =>
            Nat.lt_succ_of_lt (Nat.lt_of_lt_of_le (ih hfound) hle)
          split at h
          · cases h
            exact Nat.lt_succ_self _
          · split at h
            · simp only [Option.map_eq_some_iff, Prod.exists, Prod.mk.injEq] at h
              obtain ⟨_, _, hfound, -, rfl⟩ := h
              exact hcons hfound (List.length_drop ▸ Nat.sub_le _ _)
            · split at h
              · split at h
                · simp only [Option.map_eq_some_iff, Prod.exists, Prod.mk.injEq] at h
                  obtain ⟨_, _, hfound, -, rfl⟩ := h
                  exact hcons hfound (Nat.le_add_right _ 2)
                · simp only [Option.map_eq_some_iff, Prod.exists, Prod.mk.injEq] at h
                  obtain ⟨_, _, hfound, -, rfl⟩ := h
                  exact hcons hfound (Nat.le_refl _)
              · simp only [Option.map_eq_some_iff, Prod.exists, Prod.mk.injEq] at h
                obtain ⟨_, _, hfound, -, rfl⟩ := h
                exact hcons hfound (Nat.le_refl _)

theorem length_demand (style : PatternStyle) (g : Glyph) (rest : Pattern) :
    (demand style g rest).2.length ≤ rest.length := by
  rw [demand]
  split
  · exact Nat.le_refl _
  · split
    · dsimp only
      split
      · next hfound =>
        refine Nat.le_trans (Nat.le_of_lt (length_of_members? hfound)) ?_
        split
        · rw [List.length_drop]
          exact Nat.sub_le _ _
        · exact Nat.le_refl _
      · exact Nat.le_refl _
    · exact Nat.le_refl _

theorem length_of_alternatives? {depth : Nat} {alternatives : List Pattern}
    (h : alternatives? depth p = some (alternatives, after)) :
    after.length < p.length ∧ ∀ q ∈ alternatives, q.length < p.length := by
  induction p generalizing depth alternatives with
  | nil => cases h
  | cons g rest ih =>
      unfold alternatives? at h
      split at h
      · cases h
        simp
      · split at h
        · simp only [Option.map_eq_some_iff, Prod.exists, Prod.mk.injEq] at h
          obtain ⟨more, _, hfound, rfl, rfl⟩ := h
          obtain ⟨hafter, hall⟩ := ih hfound
          refine ⟨Nat.lt_succ_of_lt hafter, fun q hq => ?_⟩
          rcases List.mem_cons.mp hq with rfl | hq
          · exact Nat.succ_pos _
          · exact Nat.lt_succ_of_lt (hall q hq)
        · dsimp only at h
          split at h
          · next first more after' hfound =>
            cases h
            obtain ⟨hafter, hall⟩ := ih hfound
            refine ⟨Nat.lt_succ_of_lt hafter, fun q hq => ?_⟩
            rcases List.mem_cons.mp hq with rfl | hq
            · exact Nat.succ_lt_succ (hall first List.mem_cons_self)
            · exact Nat.lt_succ_of_lt (hall q (List.mem_cons_of_mem _ hq))
          · cases h

theorem length_of_group? {mark : Char} {alternatives : List Pattern}
    (h : group? style p = some (mark, alternatives, after)) :
    after.length < p.length ∧ ∀ q ∈ alternatives, q.length < p.length := by
  unfold group? at h
  split at h
  · split at h
    · simp only [Option.map_eq_some_iff, Prod.exists, Prod.mk.injEq] at h
      obtain ⟨_, _, hfound, -, rfl, rfl⟩ := h
      obtain ⟨hafter, hall⟩ := length_of_alternatives? hfound
      exact ⟨Nat.lt_add_right 2 hafter, fun q hq => Nat.lt_add_right 2 (hall q hq)⟩
    · cases h
  · cases h

/-! ### The fuel -/

theorem any_congr_mem {α : Type} {l : List α} {f f' : α → Bool} (h : ∀ a ∈ l, f a = f' a) :
    l.any f = l.any f' := by
  rw [Bool.eq_iff_iff, List.any_eq_true, List.any_eq_true]
  exact exists_congr fun a => and_congr_right fun ha => by rw [h a ha]

/-- What the search does with a group, if it is known which texts fit which patterns. -/
def fitsGroup (fit : Pattern → Text → Bool) (mark : Char) (alternatives : List Pattern) (whole after : Pattern)
    (s : Text) : Bool :=
  let splits := List.range (s.length + 1)
  let isOne (s : Text) : Bool := alternatives.any fun p => fit p s
  let once : Bool := splits.any fun n => isOne (s.take n) && fit after (s.drop n)
  let again : Bool := splits.any fun n => n != 0 && isOne (s.take n) && fit whole (s.drop n)
  match mark with
  | '@' => once
  | '?' => fit after s || once
  | '*' => fit after s || again
  | '+' => once || again
  | _ => splits.any fun n => !isOne (s.take n) && fit after (s.drop n)

section Groups

variable {mark : Char} {alternatives : List Pattern}

theorem fitsWithin_group (hgroup : group? style (g :: rest) = some (mark, alternatives, after)) :
    fitsWithin style (fuel + 1) (g :: rest) s =
      fitsGroup (fitsWithin style fuel) mark alternatives (g :: rest) after s := by
  simp only [fitsWithin, hgroup]
  rfl

/-- Of a group only less than all of pattern and text is looked at. -/
theorem fitsGroup_congr {fit fit' : Pattern → Text → Bool} {whole : Pattern} (hafter : after.length < whole.length)
    (hall : ∀ q ∈ alternatives, q.length < whole.length)
    (hfit : ∀ {q t}, q.length + t.length < whole.length + s.length → fit q t = fit' q t) :
    fitsGroup fit mark alternatives whole after s = fitsGroup fit' mark alternatives whole after s := by
  have hone : ∀ n, alternatives.any (fun q => fit q (s.take n)) = alternatives.any fun q => fit' q (s.take n) :=
    fun n => any_congr_mem fun q hq => hfit (Nat.add_lt_add_of_lt_of_le (hall q hq) (List.length_take_le' n s))
  have hbehind : ∀ n, fit after (s.drop n) = fit' after (s.drop n) := fun n =>
    hfit (Nat.add_lt_add_of_lt_of_le hafter (List.length_drop ▸ Nat.sub_le _ _))
  have hagain : ∀ n ∈ List.range (s.length + 1),
      (n != 0 && alternatives.any (fun q => fit' q (s.take n)) && fit whole (s.drop n)) =
      (n != 0 && alternatives.any (fun q => fit' q (s.take n)) && fit' whole (s.drop n)) := by
    intro n hn
    cases n with
    | zero => rfl
    | succ n =>
        have hlt := List.mem_range.mp hn
        rw [hfit (by rw [List.length_drop]; omega)]
  simp only [fitsGroup, hone, hbehind, any_congr_mem hagain, hfit (Nat.add_lt_add_right hafter _)]

end Groups

/-- A search with enough fuel finds the same with any fuel that is enough. -/
theorem fitsWithin_congr {fuel' : Nat} (hfuel : p.length + s.length < fuel)
    (hfuel' : p.length + s.length < fuel') :
    fitsWithin style fuel p s = fitsWithin style fuel' p s := by
  induction fuel generalizing fuel' p s with
  | zero => cases hfuel
  | succ fuel ih =>
      obtain ⟨fuel', rfl⟩ := Nat.exists_eq_succ_of_ne_zero (Nat.ne_of_gt (Nat.zero_lt_of_lt hfuel'))
      cases p with
      | nil => simp only [fitsWithin]
      | cons g rest =>
          have hrec : ∀ {q t}, q.length + t.length < (g :: rest).length + s.length →
              fitsWithin style fuel q t = fitsWithin style fuel' q t := fun hlt =>
            ih (by omega) (by omega)
          cases hgroup : group? style (g :: rest) with
          | some found =>
              obtain ⟨mark, alternatives, after⟩ := found
              obtain ⟨hafter, hall⟩ := length_of_group? hgroup
              rw [fitsWithin_group hgroup, fitsWithin_group hgroup, fitsGroup_congr hafter hall hrec]
          | none =>
              simp only [fitsWithin, hgroup]
              have hlength := length_demand style g rest
              split
              · rw [hrec (Nat.add_lt_add_right (Nat.lt_succ_self _) _)]
                cases s with
                | nil => rfl
                | cons c s =>
                    dsimp only
                    rw [hrec (Nat.lt_succ_self _)]
              · split
                · rfl
                · rw [hrec (by simp only [List.length_cons]; omega)]

theorem fitsWithin_eq_fits (hfuel : p.length + s.length < fuel) :
    fitsWithin style fuel p s = fits style p s :=
  fitsWithin_congr hfuel (by omega)

/-! ### What fits -/

theorem fits_nil : fits style [] s = true ↔ s = [] := by
  simp [fits, fitsWithin]

/-- A star stands for any text. -/
theorem fits_star (hgroup : group? style (g :: rest) = none) (hstar : isActive g '*' = true) :
    fits style (g :: rest) s = true ↔ ∃ t u, t ++ u = s ∧ fits style rest u = true := by
  induction s with
  | nil =>
      rw [fits]
      simp only [fitsWithin, hgroup, hstar, if_true, Bool.or_false]
      rw [fitsWithin_eq_fits (by simp only [List.length_cons]; omega)]
      constructor
      · exact fun h => ⟨[], [], rfl, h⟩
      · rintro ⟨t, u, heq, hu⟩
        obtain ⟨rfl, rfl⟩ := List.append_eq_nil_iff.mp heq
        exact hu
  | cons c s ih =>
      rw [fits]
      simp only [fitsWithin, hgroup, hstar, if_true, Bool.or_eq_true]
      rw [fitsWithin_eq_fits (by simp only [List.length_cons]; omega),
        fitsWithin_eq_fits (by simp only [List.length_cons]; omega), ih]
      constructor
      · rintro (h | ⟨t, u, rfl, hu⟩)
        · exact ⟨[], _, rfl, h⟩
        · exact ⟨c :: t, u, rfl, hu⟩
      · rintro ⟨t, u, heq, hu⟩
        cases t with
        | nil => exact Or.inl (heq ▸ hu)
        | cons _ t =>
            cases heq
            exact Or.inr ⟨t, u, rfl, hu⟩

/-- Whatever else is no group stands for one character. -/
theorem fits_one (hgroup : group? style (g :: rest) = none) (hstar : isActive g '*' = false) :
    fits style (g :: rest) s = true ↔ ∃ c t, c :: t = s ∧ (demand style g rest).1.accepts c = true ∧
      fits style (demand style g rest).2 t = true := by
  have hlength := length_demand style g rest
  rw [fits]
  simp only [fitsWithin, hgroup, hstar, Bool.false_eq_true, if_false]
  cases s with
  | nil => simp
  | cons c s =>
      dsimp only
      rw [fitsWithin_eq_fits (by simp only [List.length_cons]; omega), Bool.and_eq_true]
      constructor
      · exact fun h => ⟨c, s, rfl, h⟩
      · rintro ⟨_, _, heq, h⟩
        cases heq
        exact h

/-- A quoted text fits itself alone. -/
theorem fits_quoted (hquoted : ∀ g ∈ p, g.quoted = true) : fits style p s = true ↔ s = p.map (·.char) := by
  induction p generalizing s with
  | nil => exact fits_nil
  | cons g rest ih =>
      have hg : g.quoted = true := hquoted g List.mem_cons_self
      have hactive : ∀ c, isActive g c = false := fun c => by simp [isActive, hg]
      have hgroup : group? style (g :: rest) = none := by cases rest <;> simp [group?, hg]
      rw [fits_one hgroup (hactive _), demand]
      simp only [hactive, Bool.false_eq_true, if_false, Demand.accepts, beq_iff_eq, List.map_cons,
        ih fun g' hg' => hquoted g' (List.mem_cons_of_mem _ hg')]
      constructor
      · rintro ⟨_, _, rfl, rfl, rfl⟩
        rfl
      · rintro rfl
        exact ⟨_, _, rfl, rfl, rfl⟩

/-! ### Groups -/

/-- One of some patterns fits. -/
def FitsOne (style : PatternStyle) (alternatives : List Pattern) (t : Text) : Prop :=
  ∃ q ∈ alternatives, fits style q t = true

/-- What a group stands for, as its mark says. -/
def StandsFor (style : PatternStyle) (alternatives : List Pattern) (mark : Char) (t : Text) : Prop :=
  match mark with
  | '@' => FitsOne style alternatives t
  | '?' => t = [] ∨ FitsOne style alternatives t
  | '*' => ∃ parts : List Text, (∀ part ∈ parts, FitsOne style alternatives part) ∧ parts.flatten = t
  | '+' =>
    ∃ parts : List Text, parts ≠ [] ∧ (∀ part ∈ parts, FitsOne style alternatives part) ∧ parts.flatten = t
  | _ => ¬FitsOne style alternatives t

/-- The places at which a text can be cut in two are its parts in two. -/
theorem any_splits_iff (f : Nat → Text → Text → Bool) : (List.range (s.length + 1)).any (fun n =>
    f n (s.take n) (s.drop n)) = true ↔ ∃ t u, t ++ u = s ∧ f t.length t u = true := by
  rw [List.any_eq_true]
  constructor
  · rintro ⟨n, hn, hf⟩
    have hlength : (s.take n).length = n :=
      List.length_take_of_le (Nat.le_of_lt_succ (List.mem_range.mp hn))
    exact ⟨_, _, List.take_append_drop n s, hlength.symm ▸ hf⟩
  · rintro ⟨t, u, rfl, hf⟩
    refine ⟨t.length, List.mem_range.mpr (by rw [List.length_append]; omega), ?_⟩
    rwa [List.take_left, List.drop_left]

/-- Rounds of a group and what follows them. -/
theorem rounds_iff (one behind again : Text → Prop)
    (hstep : ∀ s, again s ↔ behind s ∨ ∃ t u, t ++ u = s ∧ t ≠ [] ∧ one t ∧ again u) :
    again s ↔ ∃ t u, t ++ u = s ∧
      (∃ parts : List Text, (∀ part ∈ parts, one part) ∧ parts.flatten = t) ∧ behind u := by
  constructor
  · intro h
    induction hlength : s.length using Nat.strongRecOn generalizing s with
    | ind n ih =>
        rcases (hstep s).mp h with hbehind | ⟨t, u, rfl, hne, ht, hu⟩
        · exact ⟨[], s, rfl, ⟨[], by simp, rfl⟩, hbehind⟩
        · have hless : u.length < n := by
            have := List.length_pos_iff.mpr hne
            rw [← hlength, List.length_append]
            omega
          obtain ⟨_, v, rfl, ⟨parts, hparts, rfl⟩, hv⟩ := ih _ hless hu rfl
          refine ⟨t ++ parts.flatten, v, List.append_assoc .., ⟨t :: parts, ?_, rfl⟩, hv⟩
          exact List.forall_mem_cons.mpr ⟨ht, hparts⟩
  · rintro ⟨_, u, rfl, ⟨parts, hparts, rfl⟩, hu⟩
    induction parts with
    | nil => exact (hstep u).mpr (Or.inl hu)
    | cons part parts ih =>
        obtain ⟨hpart, hparts⟩ := List.forall_mem_cons.mp hparts
        have hrest := ih hparts
        cases part with
        | nil => exact hrest
        | cons c part =>
            refine (hstep _).mpr (Or.inr ⟨c :: part, _, ?_, List.cons_ne_nil _ _, hpart, hrest⟩)
            exact (List.append_assoc ..).symm

section Groups

variable {mark : Char} {alternatives : List Pattern}

theorem fits_group_eq (hgroup : group? style (g :: rest) = some (mark, alternatives, after)) :
    fits style (g :: rest) s = fitsGroup (fits style) mark alternatives (g :: rest) after s := by
  obtain ⟨hafter, hall⟩ := length_of_group? hgroup
  exact (fitsWithin_group hgroup).trans (fitsGroup_congr hafter hall fun hlt => fitsWithin_eq_fits (by omega))

theorem any_alternatives_iff :
    alternatives.any (fun q => fits style q t) = true ↔ FitsOne style alternatives t := by
  rw [List.any_eq_true, FitsOne]

/-- A group stands for what its mark says, and what follows it fits the rest of the text. -/
theorem fits_group (hgroup : group? style (g :: rest) = some (mark, alternatives, after)) :
    fits style (g :: rest) s = true ↔
      ∃ t u, t ++ u = s ∧ StandsFor style alternatives mark t ∧ fits style after u = true := by
  have honce := fun s => any_splits_iff (s := s) fun _ t u =>
    alternatives.any (fun q => fits style q t) && fits style after u
  have hagain := fun s => any_splits_iff (s := s) fun n t u =>
    n != 0 && alternatives.any (fun q => fits style q t) && fits style (g :: rest) u
  have hnone := fun s => any_splits_iff (s := s) fun _ t u =>
    !alternatives.any (fun q => fits style q t) && fits style after u
  simp only [Bool.and_eq_true, Bool.not_eq_true', ← Bool.not_eq_true, any_alternatives_iff, bne_iff_ne, ne_eq,
    List.length_eq_zero_iff, and_assoc] at honce hagain hnone
  have hstep := fun s => fits_group_eq (s := s) hgroup
  unfold fitsGroup at hstep
  dsimp only at hstep
  split at hstep
  · rw [hstep]
    exact honce s
  · rw [hstep, Bool.or_eq_true, honce]
    constructor
    · rintro (hnothing | ⟨t, u, rfl, ht, hu⟩)
      · exact ⟨[], s, rfl, Or.inl rfl, hnothing⟩
      · exact ⟨t, u, rfl, Or.inr ht, hu⟩
    · rintro ⟨t, u, rfl, rfl | ht, hu⟩
      · exact Or.inl hu
      · exact Or.inr ⟨t, u, rfl, ht, hu⟩
  · refine rounds_iff (FitsOne style alternatives) (fits style after · = true) (fits style (g :: rest) · = true)
      fun s => ?_
    rw [hstep, Bool.or_eq_true, hagain]
  · -- The last round is the one without which the group would stand for nothing.
    have hrounds := rounds_iff (FitsOne style alternatives)
      (fun s => ∃ t u, t ++ u = s ∧ FitsOne style alternatives t ∧ fits style after u = true)
      (fits style (g :: rest) · = true) (s := s) fun s => by rw [hstep, Bool.or_eq_true, honce, hagain]
    refine hrounds.trans ⟨?_, ?_⟩
    · rintro ⟨_, _, rfl, ⟨parts, hparts, rfl⟩, t, u, rfl, ht, hu⟩
      refine ⟨(parts ++ [t]).flatten, u, by simp, ⟨parts ++ [t], by simp, ?_, rfl⟩, hu⟩
      simpa [or_imp, forall_and] using ⟨hparts, ht⟩
    · rintro ⟨_, u, rfl, ⟨parts, hne, hparts, rfl⟩, hu⟩
      obtain ⟨parts, t, rfl⟩ := (List.eq_nil_or_concat parts).resolve_left hne
      rw [List.concat_eq_append] at hparts ⊢
      have hfront : ∀ part ∈ parts, FitsOne style alternatives part := fun part hpart =>
        hparts part (List.mem_append_left _ hpart)
      exact ⟨parts.flatten, t ++ u, by simp, ⟨parts, hfront, rfl⟩, t, u, rfl, hparts t (by simp), hu⟩
  · next hat hquestion hstar hplus =>
    rw [hstep, hnone]
    have hstands : ∀ t, StandsFor style alternatives mark t ↔ ¬FitsOne style alternatives t := fun t => by
      unfold StandsFor
      split
      · exact absurd rfl hat
      · exact absurd rfl hquestion
      · exact absurd rfl hstar
      · exact absurd rfl hplus
      · rfl
    simp only [hstands]

end Groups

end CompileFail.Script.Pattern
