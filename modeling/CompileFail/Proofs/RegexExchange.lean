import CompileFail.Regex.Search

/-! Exchanging what a regular expression finds. A find starts at the place from which it is looked for or behind it, so
the exchange cuts the text into finds and the gaps between them. It loses nothing: if each find is exchanged for
itself, the text stays the same. -/

namespace CompileFail.Regex

variable {r : Regex} {whole : Array Char} {front : Front} {best : Option (Nat × Thread)} {before : Option Char}
  {f : Find} {s : Text} {start pos : Nat}

/-- The ends that are kept lie behind the start. -/
theorem le_of_run (hpos : start ≤ pos) (hbest : ∀ found ∈ best, start ≤ found.1) :
    ∀ found ∈ run r whole best pos front s, start ≤ found.1 := by
  have hnow : ∀ {front : Front} {best : Option (Nat × Thread)} {pos : Nat}, start ≤ pos →
      (∀ found ∈ best, start ≤ found.1) →
      ∀ found ∈ (front.accepted.map (pos, ·)).or best, start ≤ found.1 := by
    intro front best pos hpos hbest found hfound
    cases haccepted : front.accepted with
    | none => exact hbest found (by simpa [haccepted] using hfound)
    | some t =>
        obtain rfl : found = (pos, t) := by simpa [haccepted, eq_comm] using hfound
        exact hpos
  induction s generalizing pos front best with
  | nil => exact hnow hpos hbest
  | cons c s ih =>
      rw [run]
      split
      · exact hnow hpos hbest
      · exact ih (Nat.le_succ_of_le hpos) (hnow hpos hbest)

theorem le_of_findAt (h : findAt r whole pos before s = some f) : f.start = pos ∧ f.start ≤ f.finish := by
  rw [findAt] at h
  obtain ⟨found, hfound, rfl⟩ := Option.map_eq_some_iff.mp h
  exact ⟨rfl, le_of_run (Nat.le_refl pos) (by simp) found hfound⟩

theorem le_of_findFrom (h : findFrom r whole pos before s = some f) : pos ≤ f.start ∧ f.start ≤ f.finish := by
  induction s generalizing pos before with
  | nil =>
      rw [findFrom] at h
      obtain ⟨rfl, hle⟩ := le_of_findAt h
      exact ⟨Nat.le_refl _, hle⟩
  | cons c s ih =>
      rw [findFrom] at h
      split at h
      · next hfound =>
        obtain rfl := Option.some.inj h
        obtain ⟨rfl, hle⟩ := le_of_findAt hfound
        exact ⟨Nat.le_refl _, hle⟩
      · obtain ⟨hstart, hle⟩ := ih h
        exact ⟨Nat.le_of_succ_le hstart, hle⟩

/-- The gap in front of a find, the find and what follows it are the text. -/
theorem Find.gap_append (hstart : pos ≤ f.start) (hfinish : f.start ≤ f.finish) (s : Text) :
    (s.drop pos).take (f.start - pos) ++ f.text s ++ s.drop f.finish = s.drop pos := by
  have hgap : (s.drop pos).drop (f.start - pos) = s.drop f.start := by
    rw [List.drop_drop, Nat.add_sub_cancel' hstart]
  have hfind : (s.drop f.start).drop (f.finish - f.start) = s.drop f.finish := by
    rw [List.drop_drop, Nat.add_sub_cancel' hfinish]
  rw [Find.text, List.append_assoc, ← hfind, List.take_append_drop, ← hgap, List.take_append_drop]

/-- What comes of a find: it is exchanged or put back, and then the rest follows as it is, or the exchange goes on. -/
theorem go_of_found (hfound : r.search s pos = some f) (new : Find → Text) (first : Nat) (every : Bool)
    (fuel number changes : Nat) (last : Option Nat) : ∃ (counts : Bool) (rest : Text × Nat),
    exchange.go r s new first every (fuel + 1) pos number changes last =
      ((s.drop pos).take (f.start - pos) ++ (if counts then new f else f.text s) ++ rest.1, rest.2) ∧
    (rest = (s.drop f.finish, if counts then changes + 1 else changes) ∨
      ∃ kept pos' number' last', s.drop f.finish = kept ++ s.drop pos' ∧
        rest = (exchange.go r s new first every fuel pos' number' (if counts then changes + 1 else changes) last').map
          (kept ++ ·) id) := by
  rw [exchange.go, hfound]
  dsimp only
  generalize (!(f.finish == f.start && last == some f.start) &&
    (number == first || every && decide (number > first))) = counts
  refine ⟨counts, ?_⟩
  split
  · exact ⟨_, rfl, Or.inl rfl⟩
  · split
    · split
      · next hnone =>
        rw [List.drop_eq_nil_of_le (List.getElem?_eq_none_iff.mp hnone)]
        exact ⟨([], if counts then changes + 1 else changes), by rw [List.append_nil], Or.inl rfl⟩
      · next c hc =>
        obtain ⟨hlt, rfl⟩ := List.getElem?_eq_some_iff.mp hc
        exact ⟨_, rfl, Or.inr ⟨[s[f.finish]], _, _, _, (List.getElem_cons_drop hlt).symm, rfl⟩⟩
    · exact ⟨_, rfl, Or.inr ⟨[], _, _, _, rfl, rfl⟩⟩

theorem le_changes (new : Find → Text) (first : Nat) (every : Bool) (fuel pos number changes : Nat)
    (last : Option Nat) : changes ≤ (exchange.go r s new first every fuel pos number changes last).2 := by
  induction fuel generalizing pos number changes last with
  | zero => exact Nat.le_refl _
  | succ fuel ih =>
      cases hfound : r.search s pos with
      | none =>
          have hnone : exchange.go r s new first every (fuel + 1) pos number changes last = (s.drop pos, changes) := by
            rw [exchange.go, hfound]
          exact Nat.le_of_eq (congrArg Prod.snd hnone).symm
      | some f =>
          obtain ⟨counts, rest, hgo, hrest⟩ := go_of_found hfound new first every fuel number changes last
          have hmore : changes ≤ if counts then changes + 1 else changes := by split <;> omega
          rw [hgo]
          rcases hrest with rfl | ⟨kept, pos', number', last', -, rfl⟩
          · exact hmore
          · exact Nat.le_trans hmore (ih ..)

/-- The text stays the same if each find is exchanged for itself, and also if none is exchanged. -/
theorem go_eq_drop {new : Find → Text} {first : Nat} {every : Bool} {fuel number changes : Nat} {last : Option Nat}
    (h : (∀ f, new f = f.text s) ∨ (exchange.go r s new first every fuel pos number changes last).2 = changes) :
    (exchange.go r s new first every fuel pos number changes last).1 = s.drop pos := by
  induction fuel generalizing pos number changes last with
  | zero => rfl
  | succ fuel ih =>
      cases hfound : r.search s pos with
      | none => rw [exchange.go, hfound]
      | some f =>
          obtain ⟨hstart, hfinish⟩ := le_of_findFrom hfound
          have hwhole := Find.gap_append hstart hfinish s
          obtain ⟨counts, rest, hgo, hrest⟩ := go_of_found hfound new first every fuel number changes last
          rw [hgo] at h ⊢
          have hle : (if counts then changes + 1 else changes) ≤ rest.2 := by
            rcases hrest with rfl | ⟨kept, pos', number', last', -, rfl⟩
            · exact Nat.le_refl _
            · exact le_changes ..
          have hput : (if counts then new f else f.text s) = f.text s := by
            split
            · next hcounts =>
              rw [if_pos hcounts] at hle
              exact h.elim (fun hnew => hnew f) fun hsame => absurd (hsame ▸ hle) (Nat.not_succ_le_self _)
            · rfl
          have htail : rest.1 = s.drop f.finish := by
            rcases hrest with rfl | ⟨kept, pos', number', last', hkept, rfl⟩
            · rfl
            · rw [Prod.map_fst, hkept]
              refine congrArg (kept ++ ·) (ih (h.imp_right fun hsame => Nat.le_antisymm ?_ (le_changes ..)))
              exact Nat.le_trans (Nat.le_of_eq hsame) (by split <;> omega)
          rw [hput, htail, hwhole]

/-- If each find is exchanged for itself, the text stays the same. -/
theorem exchange_text (r : Regex) (s : Text) (first : Nat) (every : Bool) :
    (exchange r s (fun f => f.text s) first every).1 = s :=
  go_eq_drop (Or.inl fun _ => rfl)

/-- If nothing is exchanged, the text stays the same. -/
theorem exchange_of_unchanged {new : Find → Text} {first : Nat} {every : Bool}
    (h : (exchange r s new first every).2 = 0) : (exchange r s new first every).1 = s :=
  go_eq_drop (Or.inr h)

end CompileFail.Regex
