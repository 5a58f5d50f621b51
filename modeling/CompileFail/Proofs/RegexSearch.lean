import CompileFail.Proofs.RegexSteps

/-! The search for what a regular expression describes. All walks through its steps are followed side by side. A front
holds the steps that are reached at a place; it is closed under the steps that take no character, each of which
is followed once. So the end of the steps is reached at a place exactly if the expression describes the text up to
there, and what is found is the longest part that it describes at the first place where it describes any. -/

namespace CompileFail.Regex

open Relation (ReflTransGen)

variable {r : Regex} {text : Text} {front front' front'' : Front} {roots roots' : Nat → Prop} {i j k l m pos : Nat}
  {a b : Nat × Nat}

/-! ### Steps without a character -/

/-- From a step to another one at the same place in the text. -/
def Free (r : Regex) (text : Text) (i k l : Nat) : Prop := Edge r text (k, i) (l, i)

/-- From a step to the next one over a character of the text. -/
def Bites (r : Regex) (text : Text) (i k : Nat) : Prop := Edge r text (k, i) (k + 1, i + 1)

theorem Edge.cases (h : Edge r text a b) : b.2 = a.2 ∧ Free r text a.2 a.1 b.1 ∨
    b = (a.1 + 1, a.2 + 1) ∧ Bites r text a.2 a.1 := by
  obtain ⟨step, hstep, hleads⟩ := h
  cases step with
  | oneOf negated ranges =>
      obtain ⟨hfits, rfl⟩ := hleads
      exact Or.inr ⟨rfl, _, hstep, hfits, rfl⟩
  | split first second =>
      rcases hleads with rfl | rfl
      · exact Or.inl ⟨rfl, _, hstep, Or.inl rfl⟩
      · exact Or.inl ⟨rfl, _, hstep, Or.inr rfl⟩
  | jump target =>
      obtain rfl : b = _ := hleads
      exact Or.inl ⟨rfl, _, hstep, rfl⟩
  | mark slot =>
      obtain rfl : b = _ := hleads
      exact Or.inl ⟨rfl, _, hstep, rfl⟩
  | anchor edge =>
      obtain ⟨hholds, rfl⟩ := hleads
      exact Or.inl ⟨rfl, _, hstep, hholds, rfl⟩
  | again | accept => exact hleads.elim

theorem reaches_iff : Reaches r text a b ↔ ReflTransGen (Edge r text) a b := by
  constructor
  · rintro ⟨n, hwalk⟩
    induction hwalk with
    | done => exact .refl
    | more hedge _ ih => exact .head hedge ih
  · intro h
    induction h with
    | refl => exact .refl _
    | tail _ hedge ih => exact ih.trans ⟨1, .more hedge (.done _)⟩

theorem le_of_reaches (h : Reaches r text a b) : a.2 ≤ b.2 := by
  induction reaches_iff.mp h with
  | refl => exact Nat.le_refl _
  | @tail b c hfront hedge ih =>
      have hb := ih (reaches_iff.mpr hfront)
      rcases hedge.cases with ⟨hsame, -⟩ | ⟨rfl, -⟩
      · rwa [hsame]
      · exact Nat.le_succ_of_le hb

/-- What is reached at the place of the start is reached without a character. -/
theorem reaches_same_iff : Reaches r text (k, i) (l, i) ↔ ReflTransGen (Free r text i) k l := by
  constructor
  · intro h
    generalize hb : (l, i) = b at h
    induction reaches_iff.mp h generalizing l with
    | refl =>
        obtain ⟨rfl, -⟩ := Prod.mk.inj hb
        exact .refl
    | @tail b c hfront hedge ih =>
        subst hb
        have hle := le_of_reaches (reaches_iff.mpr hfront)
        rcases hedge.cases with ⟨hsame, hfree⟩ | ⟨hnext, -⟩
        · obtain ⟨step, place⟩ := b
          obtain rfl : i = place := hsame
          exact (ih rfl (reaches_iff.mpr hfront)).tail hfree
        · have := (Prod.mk.inj hnext).2
          omega
  · intro h
    induction h with
    | refl => exact .refl _
    | tail _ hfree ih => exact ih.trans ⟨1, .more hfree (.done _)⟩

/-- What is reached behind a character is reached from a step that takes the character. -/
theorem reaches_succ_iff (hle : i ≤ pos) : Reaches r text (k, i) (l, pos + 1) ↔
    ∃ m, Reaches r text (k, i) (m, pos) ∧ Bites r text pos m ∧
      ReflTransGen (Free r text (pos + 1)) (m + 1) l := by
  constructor
  · intro h
    generalize hb : (l, pos + 1) = b at h
    induction reaches_iff.mp h generalizing l with
    | refl =>
        have := (Prod.mk.inj hb).2
        omega
    | @tail b c hfront hedge ih =>
        subst hb
        obtain ⟨step, place⟩ := b
        rcases hedge.cases with ⟨hsame, hfree⟩ | ⟨hnext, hbites⟩
        · obtain rfl : pos + 1 = place := hsame
          obtain ⟨m, hm, hbites, hfrees⟩ := ih rfl (reaches_iff.mpr hfront)
          exact ⟨m, hm, hbites, hfrees.tail hfree⟩
        · obtain ⟨rfl, hplace⟩ := Prod.mk.inj hnext
          obtain rfl : pos = place := Nat.succ.inj hplace
          exact ⟨step, reaches_iff.mpr hfront, hbites, .refl⟩
  · rintro ⟨m, hm, hbites, hfrees⟩
    exact (hm.trans ⟨1, .more hbites (.done _)⟩).trans (reaches_same_iff.mpr hfrees)

/-- If no step takes the character at a place, nothing is reached behind it. -/
theorem le_of_stuck (hle : i ≤ pos) (hstuck : ∀ m, Reaches r text (k, i) (m, pos) → ¬Bites r text pos m)
    (h : Reaches r text (k, i) (l, j)) : j ≤ pos := by
  induction j generalizing l with
  | zero => exact Nat.zero_le _
  | succ j ih =>
      rcases Nat.lt_or_ge j pos with hlt | hj
      · exact hlt
      · obtain ⟨m, hm, hbites, -⟩ := (reaches_succ_iff (Nat.le_trans hle hj)).mp h
        obtain rfl : j = pos := Nat.le_antisymm (ih hm) hj
        exact absurd hbites (hstuck m hm)

/-! ### Fronts -/

/-- A step that has been seen. -/
def Front.Seen (front : Front) (k : Nat) : Prop := front.visited[k]? = some true

/-- How many steps have not been seen. -/
def Front.unseen (front : Front) : Nat := front.visited.toList.count false

/-- A front has a way for each step that it has seen and that takes a character, and it knows whether it has seen the
end. -/
structure Front.Told (r : Regex) (front : Front) : Prop where
  threads : ∀ k, (∃ t ∈ front.threads, t.step = k) ↔
    front.Seen k ∧ ∃ negated ranges, r.steps[k]? = some (.oneOf negated ranges)
  accepted : front.accepted.isSome = true ↔ ∃ k, front.Seen k ∧ r.steps[k]? = some .accept

/-- A front has grown by what is reached from some steps without a character. -/
structure Front.Extends (r : Regex) (text : Text) (i : Nat) (roots : Nat → Prop) (front front' : Front) : Prop where
  size : front.visited.size = r.steps.size
  size' : front'.visited.size = r.steps.size
  unseen : front'.unseen ≤ front.unseen
  keeps : ∀ k, front.Seen k → front'.Seen k
  arrives : ∀ k, roots k → k < r.steps.size → front'.Seen k
  sound : ∀ k, front'.Seen k → front.Seen k ∨ ∃ root, roots root ∧ ReflTransGen (Free r text i) root k
  closed : ∀ k l, front'.Seen k → ¬front.Seen k → Free r text i k l → l < r.steps.size → front'.Seen l

namespace Front.Extends

theorem refl (hsize : front.visited.size = r.steps.size)
    (hroots : ∀ k, roots k → k < r.steps.size → front.Seen k) : Extends r text i roots front front where
  size := hsize
  size' := hsize
  unseen := Nat.le_refl _
  keeps _ := id
  arrives := hroots
  sound _ := Or.inl
  closed _ _ hseen hnot := absurd hseen hnot

theorem congr (h : Extends r text i roots front front') (hroots : ∀ k, roots' k ↔ roots k) :
    Extends r text i roots' front front' := by
  obtain rfl : roots' = roots := funext fun k => propext (hroots k)
  exact h

theorem trans (h : Extends r text i roots front front') (h' : Extends r text i roots' front' front'') :
    Extends r text i (fun k => roots k ∨ roots' k) front front'' where
  size := h.size
  size' := h'.size'
  unseen := Nat.le_trans h'.unseen h.unseen
  keeps k hk := h'.keeps k (h.keeps k hk)
  arrives k hk hlt := hk.elim (fun hk => h'.keeps k (h.arrives k hk hlt)) fun hk => h'.arrives k hk hlt
  sound k hk := by
    rcases h'.sound k hk with hk | ⟨root, hroot, hfree⟩
    · exact (h.sound k hk).imp_right fun ⟨root, hroot, hfree⟩ => ⟨root, Or.inl hroot, hfree⟩
    · exact Or.inr ⟨root, Or.inr hroot, hfree⟩
  closed k l hk hnot hfree hlt := by
    by_cases hmid : front'.Seen k
    · exact h'.keeps l (h.closed k l hmid hnot hfree hlt)
    · exact h'.closed k l hk hmid hfree hlt

/-- A step is followed by following all steps behind it. -/
theorem mark (h : Extends r text i (Free r text i k) front front')
    {before : Front} (hsize : before.visited.size = r.steps.size) (hunseen : front.unseen ≤ before.unseen)
    (hseen : ∀ l, front.Seen l ↔ before.Seen l ∨ l = k) :
    Extends r text i (· = k) before front' where
  size := hsize
  size' := h.size'
  unseen := Nat.le_trans h.unseen hunseen
  keeps l hl := h.keeps l ((hseen l).mpr (Or.inl hl))
  arrives l hl _ := h.keeps l ((hseen l).mpr (Or.inr hl))
  sound l hl := by
    rcases h.sound l hl with hl | ⟨root, hroot, hfree⟩
    · rcases (hseen l).mp hl with hl | rfl
      · exact Or.inl hl
      · exact Or.inr ⟨l, rfl, .refl⟩
    · exact Or.inr ⟨k, rfl, .head hroot hfree⟩
  closed l m hl hnot hfree hlt := by
    by_cases hk : l = k
    · exact h.arrives m (hk ▸ hfree) hlt
    · exact h.closed l m hl (fun hfront => ((hseen l).mp hfront).elim hnot hk) hfree hlt

end Front.Extends

section Follow

variable {t : Thread} {fuel : Nat} {step : Step}

/-- The front in which a step has been seen as well. -/
def Front.mark (front : Front) (k : Nat) : Front := { front with visited := front.visited.setIfInBounds k true }

theorem Front.seen_mark (h : front.visited[k]? = some false) (l : Nat) :
    (front.mark k).Seen l ↔ front.Seen l ∨ l = k := by
  obtain ⟨hlt, -⟩ := Array.getElem?_eq_some_iff.mp h
  rw [Front.Seen, Front.mark, Array.getElem?_setIfInBounds]
  split
  · next heq =>
    subst heq
    simp
  · next hne => simp [Front.Seen, Ne.symm hne]

theorem Front.unseen_mark (h : front.visited[k]? = some false) : (front.mark k).unseen + 1 = front.unseen := by
  obtain ⟨hlt, hget⟩ := Array.getElem?_eq_some_iff.mp h
  have hmem : false ∈ front.visited.toList := hget ▸ Array.mem_toList_iff.mpr (Array.getElem_mem hlt)
  have hpos := List.count_pos_iff.mpr hmem
  rw [Front.unseen, Front.mark, Array.toList_setIfInBounds, List.count_set (by simpa using hlt)]
  simp only [Front.unseen, Array.getElem_toList, hget, beq_self_eq_true, if_true, Bool.true_beq, Bool.false_eq_true,
    if_false]
  omega

/-- What a front tells stays right if a step is seen that is not told of. -/
theorem Front.Told.mark (h : front.Told r) (hk : front.visited[k]? = some false)
    (hstep : r.steps[k]? = some step) (honeOf : ∀ negated ranges, step ≠ .oneOf negated ranges)
    (haccept : step ≠ .accept) : (front.mark k).Told r where
  threads l := by
    rw [Front.seen_mark hk, or_and_right, ← h.threads l, or_iff_left]
    · rfl
    · rintro ⟨rfl, negated, ranges, hl⟩
      exact honeOf negated ranges (Option.some.inj (hstep.symm.trans hl))
  accepted := by
    have hend : (front.mark k).accepted.isSome = true ↔ _ := h.accepted
    rw [hend]
    refine exists_congr fun l => ?_
    rw [Front.seen_mark hk, or_and_right, or_iff_left]
    rintro ⟨rfl, hl⟩
    exact haccept (Option.some.inj (hstep.symm.trans hl))

section Marked

variable (hk : front.visited[k]? = some false) (hvisited : front'.visited = (front.mark k).visited)

include hk hvisited

theorem Front.seen_of_visited_eq (l : Nat) : front'.Seen l ↔ front.Seen l ∨ l = k := by
  rw [Front.Seen, hvisited]
  exact Front.seen_mark hk l

/-- A step that takes a character is seen and has a way of its own from then on. -/
theorem Front.Told.mark_oneOf (h : front.Told r) {negated : Bool} {ranges : List (Char × Char)} (ht : t.step = k)
    (hstep : r.steps[k]? = some (.oneOf negated ranges)) (hthreads : front'.threads = t :: front.threads)
    (haccepted : front'.accepted = front.accepted) : front'.Told r where
  threads l := by
    rw [Front.seen_of_visited_eq hk hvisited, or_and_right, ← h.threads l, hthreads]
    constructor
    · rintro ⟨t', ht', rfl⟩
      rcases List.mem_cons.mp ht' with rfl | ht'
      · exact Or.inr ⟨ht, negated, ranges, ht ▸ hstep⟩
      · exact Or.inl ⟨t', ht', rfl⟩
    · rintro (⟨t', ht', rfl⟩ | ⟨rfl, -⟩)
      · exact ⟨t', List.mem_cons_of_mem _ ht', rfl⟩
      · exact ⟨t, List.mem_cons_self, ht⟩
  accepted := by
    rw [haccepted, h.accepted]
    refine exists_congr fun l => ?_
    rw [Front.seen_of_visited_eq hk hvisited, or_and_right, or_iff_left]
    rintro ⟨rfl, hl⟩
    cases hstep.symm.trans hl

/-- The end is seen. -/
theorem Front.Told.mark_accept (h : front.Told r) (hstep : r.steps[k]? = some .accept)
    (hthreads : front'.threads = front.threads) (haccepted : front'.accepted.isSome = true) : front'.Told r where
  threads l := by
    rw [hthreads, h.threads l, Front.seen_of_visited_eq hk hvisited, or_and_right, or_iff_left]
    rintro ⟨rfl, negated, ranges, hl⟩
    cases hstep.symm.trans hl
  accepted :=
    ⟨fun _ => ⟨k, (Front.seen_of_visited_eq hk hvisited k).mpr (Or.inr rfl), hstep⟩, fun _ => haccepted⟩

/-- A step from which there is no step without a character is seen, and nothing else. -/
theorem Front.Extends.mark_stuck (hsize : front.visited.size = r.steps.size) (hstuck : ∀ l, ¬Free r text i k l) :
    Front.Extends r text i (· = k) front front' := by
  have hsize' : front'.visited.size = r.steps.size := by
    rw [hvisited, Front.mark, Array.size_setIfInBounds, hsize]
  have hunseen : front'.unseen ≤ front.unseen := by
    have := Front.unseen_mark hk
    rw [Front.unseen, hvisited]
    exact Nat.le_of_lt (Nat.lt_of_succ_le (Nat.le_of_eq this))
  exact (Front.Extends.refl hsize' fun l hfree _ => absurd hfree (hstuck l)).mark hsize hunseen
    (Front.seen_of_visited_eq hk hvisited)

end Marked

/-- Following a step extends the front by what is reached from it. -/
theorem follow_spec (hplain : ∀ k n : Nat, r.steps[k]? ≠ some (Step.again n))
    (hsize : front.visited.size = r.steps.size) (hfuel : front.unseen < fuel) (htold : front.Told r) :
    (follow r (placeAt text i) fuel t front).Told r ∧
      Front.Extends r text i (· = t.step) front (follow r (placeAt text i) fuel t front) := by
  induction fuel generalizing t front with
  | zero => cases hfuel
  | succ fuel ih =>
      unfold follow
      split
      · next hseen =>
        refine ⟨htold, .refl hsize ?_⟩
        rintro k rfl hlt
        rw [Front.Seen, Array.getElem?_eq_getElem (hsize ▸ hlt)]
        simpa [Array.getD, hsize ▸ hlt] using hseen
      · next hnot =>
        have hlt : t.step < front.visited.size := by
          by_cases hlt : t.step < front.visited.size
          · exact hlt
          · exact absurd (by simp [Array.getD, hlt]) hnot
        have hk : front.visited[t.step]? = some false := by
          rw [Array.getElem?_eq_getElem hlt]
          simpa [Array.getD, hlt] using hnot
        obtain ⟨step, hstep⟩ : ∃ step, r.steps[t.step]? = some step :=
          ⟨_, Array.getElem?_eq_getElem (hsize ▸ hlt)⟩
        have hget : r.steps.getD t.step .accept = step := by
          rw [Array.getD_eq_getD_getElem?, hstep, Option.getD_some]
        have hsize' : (front.mark t.step).visited.size = r.steps.size := by
          rw [Front.mark, Array.size_setIfInBounds, hsize]
        have hunseen := Front.unseen_mark hk
        have hfuel' : (front.mark t.step).unseen < fuel := by omega
        have hless : (front.mark t.step).unseen ≤ front.unseen := by omega
        have hfree : ∀ l, Free r text i t.step l ↔ step.Leads r.ignoreCase text (t.step, i) (l, i) := by
          refine fun l => ⟨?_, fun hleads => ⟨step, hstep, hleads⟩⟩
          rintro ⟨_, hstep', hleads⟩
          exact Option.some.inj (hstep'.symm.trans hstep) ▸ hleads
        simp only [hget]
        -- A step with one step behind it is followed by following that one.
        have hgo : ∀ t' : Thread, (∀ l, Free r text i t.step l ↔ l = t'.step) →
            (∀ negated ranges, step ≠ .oneOf negated ranges) → step ≠ .accept →
            (follow r (placeAt text i) fuel t' (front.mark t.step)).Told r ∧
              Front.Extends r text i (· = t.step) front (follow r (placeAt text i) fuel t' (front.mark t.step)) := by
          intro t' hnext honeOf haccept
          obtain ⟨htold', hextends⟩ := ih (t := t') hsize' hfuel' (htold.mark hk hstep honeOf haccept)
          exact ⟨htold', (hextends.congr hnext).mark hsize hless (Front.seen_mark hk)⟩
        cases step with
        | jump target =>
            exact hgo { t with step := target } (fun l => by simp [hfree, Step.Leads]) (by nofun) (by nofun)
        | mark slot =>
            exact hgo _ (fun l => by simp [hfree, Step.Leads]) (by nofun) (by nofun)
        | anchor edge =>
            dsimp only
            split
            · next hholds =>
              exact hgo { t with step := t.step + 1 } (fun l => by simp [hfree, Step.Leads, hholds]) (by nofun)
                (by nofun)
            · next hholds =>
              refine ⟨htold.mark hk hstep (by nofun) (by nofun), .mark_stuck hk rfl hsize fun l hl => ?_⟩
              exact hholds ((hfree l).mp hl).1
        | split first second =>
            have htold₁ := htold.mark hk hstep (by nofun) (by nofun)
            obtain ⟨htold₂, hfirst⟩ := ih (t := { t with step := first }) hsize' hfuel' htold₁
            obtain ⟨htold₃, hsecond⟩ := ih (t := { t with step := second }) hfirst.size'
              (Nat.lt_of_le_of_lt hfirst.unseen hfuel') htold₂
            refine ⟨htold₃, ((hfirst.trans hsecond).congr fun l => ?_).mark hsize hless (Front.seen_mark hk)⟩
            simp [hfree, Step.Leads]
        | oneOf negated ranges =>
            refine ⟨htold.mark_oneOf hk rfl rfl hstep rfl rfl, .mark_stuck hk rfl hsize fun l hl => ?_⟩
            simp [hfree, Step.Leads] at hl
        | accept =>
            have hstuck : ∀ l, ¬Free r text i t.step l := fun l hl => (hfree l).mp hl
            dsimp only
            split
            · next haccepted =>
              exact ⟨htold.mark_accept hk rfl hstep rfl haccepted, .mark_stuck hk rfl hsize hstuck⟩
            · exact ⟨htold.mark_accept hk rfl hstep rfl rfl, .mark_stuck hk rfl hsize hstuck⟩
        | again number => exact absurd hstep (hplain _ _)

end Follow

/-! ### From place to place -/

/-- The front in which no step has been seen. -/
def Front.unmarked (r : Regex) : Front := { visited := Array.replicate r.steps.size false }

theorem Front.not_seen_unmarked (k : Nat) : ¬(unmarked r).Seen k := by
  rw [Seen, unmarked, Array.getElem?_replicate]
  split <;> simp

theorem Front.size_unmarked : (unmarked r).visited.size = r.steps.size := Array.size_replicate

theorem Front.told_unmarked : (unmarked r).Told r where
  threads k := ⟨fun ⟨_, hmem, _⟩ => absurd hmem List.not_mem_nil, fun h => absurd h.1 (not_seen_unmarked k)⟩
  accepted := ⟨nofun, fun ⟨k, hk, _⟩ => absurd hk (not_seen_unmarked k)⟩

theorem Front.unseen_lt (hsize : front.visited.size = r.steps.size) : front.unseen < r.steps.size + 1 := by
  have hcount := List.count_le_length (a := false) (l := front.visited.toList)
  rw [Array.length_toList, hsize] at hcount
  exact Nat.lt_succ_of_le hcount

/-- What grows from nothing has seen exactly the steps that are reached. -/
theorem Front.Extends.seen_iff (h : Front.Extends r text i roots (Front.unmarked r) front) :
    front.Seen k ↔ k < r.steps.size ∧ ∃ root, roots root ∧ ReflTransGen (Free r text i) root k := by
  constructor
  · intro hk
    have hlt : k < front.visited.size := (Array.getElem?_eq_some_iff.mp hk).1
    exact ⟨h.size' ▸ hlt, (h.sound k hk).resolve_left (Front.not_seen_unmarked k)⟩
  · rintro ⟨hlt, root, hroot, hfree⟩
    induction hfree with
    | refl => exact h.arrives root hroot hlt
    | @tail l m _ hlast ih =>
        obtain ⟨step, hstep, -⟩ := id hlast
        have hl := ih (Array.getElem?_eq_some_iff.mp hstep).1
        exact h.closed l m hl (Front.not_seen_unmarked l) hlast hlt

section Advance

variable {c : Char}

theorem bites_iff (hc : text[pos]? = some c) : Bites r text pos k ↔
    ∃ negated ranges, r.steps[k]? = some (.oneOf negated ranges) ∧ fits r.ignoreCase negated ranges c = true := by
  constructor
  · rintro ⟨step, hstep, hleads⟩
    cases step with
    | oneOf negated ranges =>
        obtain ⟨⟨c', hc', hfits⟩, -⟩ := hleads
        obtain rfl := Option.some.inj (hc.symm.trans hc')
        exact ⟨negated, ranges, hstep, hfits⟩
    | _ => simp [Step.Leads] at hleads
  · rintro ⟨negated, ranges, hstep, hfits⟩
    exact ⟨_, hstep, ⟨c, hc, hfits⟩, rfl⟩

theorem getElem?_of_getD {step : Step} (h : r.steps.getD k .accept = step) (hne : step ≠ .accept) :
    r.steps[k]? = some step := by
  rw [Array.getD_eq_getD_getElem?] at h
  cases hget : r.steps[k]? with
  | none =>
      rw [hget] at h
      exact absurd h.symm hne
  | some other =>
      rw [hget] at h
      exact congrArg some h

/-- All ways that take the character are followed behind it. -/
theorem foldl_bites (hplain : ∀ k n : Nat, r.steps[k]? ≠ some (Step.again n)) {take : Front → Thread → Front}
    (htake : ∀ front t, Bites r text pos t.step ∧ take front t =
        follow r (placeAt text (pos + 1)) (r.steps.size + 1) { t with step := t.step + 1 } front ∨
      ¬Bites r text pos t.step ∧ take front t = front) (threads : List Thread)
    (htold : front.Told r) (hextends : Front.Extends r text (pos + 1) roots (Front.unmarked r) front) :
    (threads.foldl take front).Told r ∧
      Front.Extends r text (pos + 1)
        (fun l => roots l ∨ ∃ t ∈ threads, l = t.step + 1 ∧ Bites r text pos t.step) (Front.unmarked r)
        (threads.foldl take front) := by
  induction threads generalizing front roots with
  | nil => exact ⟨htold, hextends.congr fun l => by simp⟩
  | cons t threads ih =>
      rw [List.foldl_cons]
      rcases htake front t with ⟨hbites, heq⟩ | ⟨hbites, heq⟩
      · obtain ⟨htold', hextends'⟩ := follow_spec (t := { t with step := t.step + 1 }) hplain hextends.size'
          (Front.unseen_lt hextends.size') htold
        rw [← heq] at htold' hextends'
        obtain ⟨htold'', hextends''⟩ := ih htold' (hextends.trans hextends')
        refine ⟨htold'', hextends''.congr fun l => ?_⟩
        simp [hbites, or_assoc]
      · rw [heq]
        obtain ⟨htold', hextends'⟩ := ih htold hextends
        exact ⟨htold', hextends'.congr fun l => by simp [hbites]⟩

theorem advance_spec (hplain : ∀ k n : Nat, r.steps[k]? ≠ some (Step.again n)) (hc : text[pos]? = some c)
    (whole : Array Char) (threads : List Thread) :
    (advance r whole c (placeAt text (pos + 1)) threads).Told r ∧
      Front.Extends r text (pos + 1) (fun l => ∃ t ∈ threads, l = t.step + 1 ∧ Bites r text pos t.step)
        (Front.unmarked r) (advance r whole c (placeAt text (pos + 1)) threads) := by
  have hnone : Front.Extends r text (pos + 1) (fun _ => False) (Front.unmarked r) (Front.unmarked r) :=
    .refl Front.size_unmarked fun _ hroot => hroot.elim
  -- What the search does with a way depends on its step alone, as there is no step for what a group has matched.
  obtain ⟨take, htake, heq⟩ : ∃ take : Front → Thread → Front,
      (∀ front t, Bites r text pos t.step ∧ take front t =
        follow r (placeAt text (pos + 1)) (r.steps.size + 1) { t with step := t.step + 1 } front ∨
      ¬Bites r text pos t.step ∧ take front t = front) ∧
      advance r whole c (placeAt text (pos + 1)) threads = threads.foldl take (Front.unmarked r) := by
    refine ⟨_, fun front t => ?_, rfl⟩
    dsimp only
    rw [bites_iff hc]
    split
    · next negated ranges hget =>
      have hstep := getElem?_of_getD hget (by nofun)
      by_cases hfits : fits r.ignoreCase negated ranges c = true
      · exact Or.inl ⟨⟨negated, ranges, hstep, hfits⟩, if_pos hfits⟩
      · refine Or.inr ⟨?_, if_neg hfits⟩
        rintro ⟨negated', ranges', hstep', hfits'⟩
        cases hstep.symm.trans hstep'
        exact hfits hfits'
    · next number hget => exact absurd (getElem?_of_getD hget (by nofun)) (hplain _ _)
    · next hother _ =>
      refine Or.inr ⟨?_, rfl⟩
      rintro ⟨negated, ranges, hstep, -⟩
      exact hother negated ranges (by rw [Array.getD_eq_getD_getElem?, hstep, Option.getD_some])
  obtain ⟨htold, hextends⟩ := foldl_bites hplain htake threads Front.told_unmarked hnone
  rw [heq]
  exact ⟨htold, hextends.congr fun l => by simp⟩

end Advance

/-! ### The longest find -/

/-- The greatest number with a property, if there is one. -/
def Greatest (property : Nat → Prop) : Option Nat → Prop
  | none => ∀ j, ¬property j
  | some j => property j ∧ ∀ k, property k → k ≤ j

/-- A front knows the steps that are reached at a place from the first step at the start. -/
structure Front.Knows (r : Regex) (text : Text) (i pos : Nat) (front : Front) : Prop where
  told : front.Told r
  seen : ∀ k, front.Seen k ↔ k < r.steps.size ∧ Reaches r text (0, i) (k, pos)

namespace Front.Knows

theorem accepted_iff (h : front.Knows r text i pos) : front.accepted.isSome = true ↔ Ends r text i pos := by
  rw [h.told.accepted]
  constructor
  · rintro ⟨k, hk, haccept⟩
    exact ⟨k, ((h.seen k).mp hk).2, haccept⟩
  · rintro ⟨k, hk, haccept⟩
    exact ⟨k, (h.seen k).mpr ⟨(Array.getElem?_eq_some_iff.mp haccept).1, hk⟩, haccept⟩

/-- A front has a way exactly for each step that is reached and takes the character. -/
theorem exists_thread_of_bites (h : front.Knows r text i pos) (hreaches : Reaches r text (0, i) (k, pos))
    (hbites : Bites r text pos k) : ∃ t ∈ front.threads, t.step = k := by
  obtain ⟨step, hstep, hleads⟩ := hbites
  have hlt := (Array.getElem?_eq_some_iff.mp hstep).1
  cases step with
  | oneOf negated ranges =>
      exact (h.told.threads k).mpr ⟨(h.seen k).mpr ⟨hlt, hreaches⟩, negated, ranges, hstep⟩
  | _ => simp [Step.Leads] at hleads

theorem start (hplain : ∀ k n : Nat, r.steps[k]? ≠ some (Step.again n)) :
    (follow r (placeAt text i) (r.steps.size + 1) { step := 0 } (Front.unmarked r)).Knows r text i i := by
  obtain ⟨htold, hextends⟩ := follow_spec (t := { step := 0 }) hplain Front.size_unmarked
    (Front.unseen_lt Front.size_unmarked) Front.told_unmarked
  refine ⟨htold, fun k => ?_⟩
  rw [hextends.seen_iff, reaches_same_iff]
  simp

theorem next (hplain : ∀ k n : Nat, r.steps[k]? ≠ some (Step.again n)) {c : Char} (hc : text[pos]? = some c)
    (hle : i ≤ pos) (h : front.Knows r text i pos) (whole : Array Char) :
    (advance r whole c (placeAt text (pos + 1)) front.threads.reverse).Knows r text i (pos + 1) := by
  obtain ⟨htold, hextends⟩ := advance_spec hplain hc whole front.threads.reverse
  refine ⟨htold, fun k => ?_⟩
  rw [hextends.seen_iff, reaches_succ_iff hle]
  refine and_congr_right fun _ => ⟨?_, ?_⟩
  · rintro ⟨root, ⟨t, ht, rfl, hbites⟩, hfree⟩
    have hseen := ((h.told.threads t.step).mp ⟨t, List.mem_reverse.mp ht, rfl⟩).1
    exact ⟨t.step, ((h.seen _).mp hseen).2, hbites, hfree⟩
  · rintro ⟨m, hm, hbites, hfree⟩
    obtain ⟨t, ht, rfl⟩ := h.exists_thread_of_bites hm hbites
    exact ⟨_, ⟨t, List.mem_reverse.mpr ht, rfl, hbites⟩, hfree⟩

end Front.Knows

/-- With what is accepted at a place the best end so far is the greatest up to there. -/
theorem greatest_or {best : Option (Nat × Thread)} (h : front.Knows r text i pos)
    (hbest : Greatest (fun j => j < pos ∧ Ends r text i j) (best.map (·.1))) :
    Greatest (fun j => j ≤ pos ∧ Ends r text i j) (((front.accepted.map (pos, ·)).or best).map (·.1)) := by
  cases haccepted : front.accepted with
  | some t =>
      have hends : Ends r text i pos := h.accepted_iff.mp (by rw [haccepted]; rfl)
      exact ⟨⟨Nat.le_refl pos, hends⟩, fun k hk => hk.1⟩
  | none =>
      have hnot : ¬Ends r text i pos := fun hends => by
        have hsome := h.accepted_iff.mpr hends
        rw [haccepted] at hsome
        cases hsome
      have hless : ∀ j, j ≤ pos ∧ Ends r text i j ↔ j < pos ∧ Ends r text i j := fun j => by
        refine ⟨fun ⟨hle, hends⟩ => ⟨Nat.lt_of_le_of_ne hle fun heq => hnot (heq ▸ hends), hends⟩, ?_⟩
        exact fun ⟨hlt, hends⟩ => ⟨Nat.le_of_lt hlt, hends⟩
      rw [show (fun j => j ≤ pos ∧ Ends r text i j) = fun j => j < pos ∧ Ends r text i j from
        funext fun j => propext (hless j)]
      exact hbest

theorem placeAt_succ {c : Char} {rest : Text} (hc : text[pos]? = some c) (hrest : text.drop (pos + 1) = rest) :
    (⟨pos + 1, some c, rest.head?⟩ : Place) = placeAt text (pos + 1) := by
  rw [placeAt, if_neg (Nat.succ_ne_zero pos), Nat.add_sub_cancel, hc, ← hrest, List.head?_drop]

theorem not_bites (h : text[pos]? = none) : ¬Bites r text pos k := by
  rintro ⟨step, -, hleads⟩
  cases step with
  | oneOf negated ranges =>
      obtain ⟨⟨c, hc, -⟩, -⟩ := hleads
      cases h.symm.trans hc
  | _ => simp [Step.Leads] at hleads

/-- If no way goes on, the greatest end so far is the greatest. -/
theorem greatest_of_stuck {best : Option Nat} (hle : i ≤ pos)
    (hstuck : ∀ m, Reaches r text (0, i) (m, pos) → ¬Bites r text pos m)
    (h : Greatest (fun j => j ≤ pos ∧ Ends r text i j) best) : Greatest (Ends r text i) best := by
  have hall : (fun j => j ≤ pos ∧ Ends r text i j) = Ends r text i := funext fun j => propext
    ⟨fun hj => hj.2, fun hends => ⟨hends.elim fun _ hk => le_of_stuck hle hstuck hk.1, hends⟩⟩
  rwa [hall] at h

/-- The ways are followed to the last end that is reached. -/
theorem run_greatest (hplain : ∀ k n : Nat, r.steps[k]? ≠ some (Step.again n)) (whole : Array Char)
    {best : Option (Nat × Thread)} {s : Text} (hs : text.drop pos = s) (hle : i ≤ pos) (h : front.Knows r text i pos)
    (hbest : Greatest (fun j => j < pos ∧ Ends r text i j) (best.map (·.1))) :
    Greatest (Ends r text i) ((run r whole best pos front s).map (·.1)) := by
  induction s generalizing pos front best with
  | nil =>
      refine greatest_of_stuck hle (fun m _ => not_bites ?_) (greatest_or h hbest)
      rw [← List.head?_drop, hs, List.head?_nil]
  | cons c s ih =>
      have hc : text[pos]? = some c := by rw [← List.head?_drop, hs, List.head?_cons]
      have hrest : text.drop (pos + 1) = s := by rw [← List.tail_drop, hs, List.tail_cons]
      have hnow := greatest_or h hbest
      rw [run]
      split
      · next hempty =>
        refine greatest_of_stuck hle (fun m hm hbites => ?_) hnow
        obtain ⟨t, ht, -⟩ := h.exists_thread_of_bites hm hbites
        rw [List.isEmpty_iff.mp hempty] at ht
        cases ht
      · rw [placeAt_succ hc hrest]
        refine ih hrest (Nat.le_succ_of_le hle) (h.next hplain hc hle whole) ?_
        simpa only [Nat.lt_succ_iff] using hnow

/-! ### The search -/

theorem not_again {node : Node} (hnode : node.Plain) (pos n : Nat) : .again n ∉ stepsOf pos node := by
  induction node generalizing pos with
  | empty | oneOf | anchor => simp [stepsOf]
  | again => exact hnode.elim
  | sequence first second ihfirst ihsecond => simp [stepsOf, ihfirst hnode.1, ihsecond hnode.2]
  | either first second ihfirst ihsecond => simp [stepsOf, ihfirst hnode.1, ihsecond hnode.2]
  | group number body ih => simp [stepsOf, ih hnode]
  | times least most body ih => cases most <;> simp [stepsOf, copies, ih hnode.2]

/-- The character in front of a place. -/
def charBefore (text : Text) (pos : Nat) : Option Char := if pos = 0 then none else text[pos - 1]?

section Search

variable {node : Node} {groups : Nat} {ignoreCase : Bool} {f : Find}

theorem not_again_ofNode (hnode : node.Plain) (k n : Nat) :
    (ofNode node groups ignoreCase).steps[k]? ≠ some (Step.again n) := by
  intro h
  rw [ofNode, List.getElem?_toArray] at h
  have hmem := List.mem_of_getElem? h
  rcases List.mem_append.mp hmem with hmem | hmem
  · exact not_again hnode 0 n hmem
  · cases List.mem_singleton.mp hmem

variable (hnode : node.Plain)

include hnode

/-- From a place on the longest part of the text that the expression describes is found. -/
theorem findAt_greatest (groups : Nat) (ignoreCase : Bool) (whole : Array Char) (text : Text) (pos : Nat) :
    Greatest (node.Describes ignoreCase text pos)
      ((findAt (ofNode node groups ignoreCase) whole pos (charBefore text pos) (text.drop pos)).map
        (·.finish)) := by
  have hnone : Greatest (fun j => j < pos ∧ Ends (ofNode node groups ignoreCase) text pos j)
      ((none : Option (Nat × Thread)).map (·.1)) := by
    rintro j ⟨hlt, k, hreaches, -⟩
    exact absurd (le_of_reaches hreaches) (Nat.not_le_of_lt hlt)
  have hgreatest := run_greatest (not_again_ofNode hnode) whole rfl (Nat.le_refl pos)
    (Front.Knows.start (not_again_ofNode hnode)) hnone
  rw [show Ends (ofNode node groups ignoreCase) text pos = node.Describes ignoreCase text pos from
    funext fun j => propext (ends_iff_describes hnode groups ignoreCase)] at hgreatest
  rw [findAt]
  simp only [Option.map_map, List.head?_drop]
  exact hgreatest

omit hnode in
theorem start_of_findAt {r : Regex} {whole : Array Char} {before : Option Char} {s : Text}
    (h : findAt r whole pos before s = some f) : f.start = pos := by
  rw [findAt] at h
  obtain ⟨_, -, rfl⟩ := Option.map_eq_some_iff.mp h
  rfl

end Search

/-- What is found from a place on: the longest part of the text that the expression describes at the first place where
it describes any. -/
structure Node.Finds (node : Node) (ignoreCase : Bool) (text : Text) (pos : Nat) (f : Find) : Prop where
  le_start : pos ≤ f.start
  start_le : f.start ≤ text.length
  describes : node.Describes ignoreCase text f.start f.finish
  longest : ∀ j, node.Describes ignoreCase text f.start j → j ≤ f.finish
  first : ∀ i, pos ≤ i → i < f.start → ∀ j, ¬node.Describes ignoreCase text i j

section Search

variable {node : Node} {groups : Nat} {ignoreCase : Bool} {whole : Array Char} {s : Text}

theorem findAt_cases (hnode : node.Plain) (hs : text.drop pos = s) (hle : pos ≤ text.length) :
    (∃ f, findAt (ofNode node groups ignoreCase) whole pos (charBefore text pos) s = some f ∧
      node.Finds ignoreCase text pos f) ∨
    findAt (ofNode node groups ignoreCase) whole pos (charBefore text pos) s = none ∧
      ∀ j, ¬node.Describes ignoreCase text pos j := by
  subst hs
  have hgreatest := findAt_greatest hnode groups ignoreCase whole text pos
  cases hf : findAt (ofNode node groups ignoreCase) whole pos (charBefore text pos) (text.drop pos) with
  | none =>
      rw [hf] at hgreatest
      exact Or.inr ⟨rfl, hgreatest⟩
  | some f =>
      obtain rfl := start_of_findAt hf
      rw [hf] at hgreatest
      exact Or.inl ⟨f, rfl, Nat.le_refl _, hle, hgreatest.1, hgreatest.2, fun i hi hlt =>
        absurd hlt (Nat.not_lt_of_le hi)⟩

theorem findFrom_cases (hnode : node.Plain) (hs : text.drop pos = s) (hle : pos ≤ text.length) :
    (∃ f, findFrom (ofNode node groups ignoreCase) whole pos (charBefore text pos) s = some f ∧
      node.Finds ignoreCase text pos f) ∨
    findFrom (ofNode node groups ignoreCase) whole pos (charBefore text pos) s = none ∧
      ∀ i, pos ≤ i → i ≤ text.length → ∀ j, ¬node.Describes ignoreCase text i j := by
  induction s generalizing pos with
  | nil =>
      have hlength : text.length ≤ pos := List.drop_eq_nil_iff.mp hs
      rw [findFrom]
      refine (findAt_cases hnode hs hle).imp_right fun ⟨hnone, hnothing⟩ => ⟨hnone, fun i hi hi' => ?_⟩
      obtain rfl : i = pos := by omega
      exact hnothing
  | cons c s ih =>
      have hc : text[pos]? = some c := by rw [← List.head?_drop, hs, List.head?_cons]
      have hrest : text.drop (pos + 1) = s := by rw [← List.tail_drop, hs, List.tail_cons]
      have hlt : pos < text.length := (List.getElem?_eq_some_iff.mp hc).1
      have hbefore : charBefore text (pos + 1) = some c := hc
      rw [findFrom]
      rcases findAt_cases hnode hs hle with ⟨f, hf, hfinds⟩ | ⟨hnone, hnothing⟩
      · rw [hf]
        exact Or.inl ⟨f, rfl, hfinds⟩
      · -- Nothing starts here, so the first find behind the character is the first one.
        rw [hnone, ← hbefore]
        have hhere : ∀ i, pos ≤ i → i < pos + 1 → ∀ j, ¬node.Describes ignoreCase text i j := by
          intro i hi hi'
          obtain rfl : i = pos := by omega
          exact hnothing
        rcases ih hrest hlt with ⟨f, hf, hfinds⟩ | ⟨hnone', hlater⟩
        · refine Or.inl ⟨f, hf, Nat.le_of_succ_le hfinds.le_start, hfinds.start_le, hfinds.describes, hfinds.longest,
            fun i hi hi' => ?_⟩
          rcases Nat.lt_or_ge i (pos + 1) with hpos | hpos
          · exact hhere i hi hpos
          · exact hfinds.first i hpos hi'
        · refine Or.inr ⟨hnone', fun i hi hi' => ?_⟩
          rcases Nat.lt_or_ge i (pos + 1) with hpos | hpos
          · exact hhere i hi hpos
          · exact hlater i hpos hi'

/-- The search finds the longest of the parts that an expression describes and that start first, and it finds nothing
only if the expression describes nothing from the place on. -/
theorem search_cases (hnode : node.Plain) (groups : Nat) (ignoreCase : Bool) (hle : pos ≤ text.length) :
    (∃ f, (ofNode node groups ignoreCase).search text pos = some f ∧ node.Finds ignoreCase text pos f) ∨
    (ofNode node groups ignoreCase).search text pos = none ∧
      ∀ i, pos ≤ i → i ≤ text.length → ∀ j, ¬node.Describes ignoreCase text i j :=
  findFrom_cases hnode rfl hle

/-- Of two alternatives the one that describes more is found, be it the second. -/
example :
    let a : Node := .oneOf false [('a', 'a')]
    let b : Node := .oneOf false [('b', 'b')]
    ((ofNode (.either a (.sequence a b)) 0 false).search "xab".toList 0).map (fun f => (f.start, f.finish)) =
      some (1, 3) := by
  cbv

/-- A text is selected exactly if the expression describes a part of it. -/
theorem isIn_iff (hnode : node.Plain) : (ofNode node groups ignoreCase).isIn text = true ↔
    ∃ i j, i ≤ text.length ∧ node.Describes ignoreCase text i j := by
  rw [isIn]
  rcases search_cases hnode groups ignoreCase (Nat.zero_le text.length) with ⟨f, hf, hfinds⟩ | ⟨hnone, hnothing⟩
  · rw [hf]
    exact ⟨fun _ => ⟨f.start, f.finish, hfinds.start_le, hfinds.describes⟩, fun _ => rfl⟩
  · rw [hnone]
    refine ⟨nofun, ?_⟩
    rintro ⟨i, j, hi, hdescribes⟩
    exact absurd hdescribes (hnothing i (Nat.zero_le i) hi j)

end Search

end CompileFail.Regex
