import CompileFail.Regex.Search
import Mathlib.Logic.Relation

/-! What a compiled expression does. An expression describes the part of a text between two places, and its
steps are walked from one place to the other. There is a walk through the steps of an expression exactly where the
expression describes what lies between: the steps of a part are entered at the first one and left behind the last
one, so that a walk through the whole falls into walks through the parts. Expressions that ask for what a group has
matched are left aside, since what they describe depends on the walk. -/

namespace CompileFail.Regex

/-- The place in front of a character of a text, counted from 0. -/
def placeAt (text : Text) (i : Nat) : Place where
  pos := i
  before := if i = 0 then none else text[i - 1]?
  after := text[i]?

/-- So many rounds of a relation one after the other. -/
def Rounds (r : Nat → Nat → Prop) : Nat → Nat → Nat → Prop
  | 0, i, j => i = j
  | n + 1, i, k => ∃ j, Rounds r n i j ∧ r j k

namespace Node

/-- An expression that does not ask for what a group has matched, and that has no more rounds at least than at
most. -/
def Plain : Node → Prop
  | .empty | .oneOf .. | .anchor .. => True
  | .sequence first second | .either first second => first.Plain ∧ second.Plain
  | .times least most body => (∀ limit ∈ most, least ≤ limit) ∧ body.Plain
  | .group _ body => body.Plain
  | .again _ => False

/-- What an expression stands for: it describes the part of a text between two places. -/
def Describes (ignoreCase : Bool) (text : Text) : Node → Nat → Nat → Prop
  | .empty, i, j => i = j
  | .oneOf negated ranges, i, j =>
    i + 1 = j ∧ ∃ c, text[i]? = some c ∧ fits ignoreCase negated ranges c = true
  | .anchor edge, i, j => i = j ∧ edge.holds (placeAt text i) = true
  | .sequence first second, i, k =>
    ∃ j, first.Describes ignoreCase text i j ∧ second.Describes ignoreCase text j k
  | .either first second, i, j =>
    first.Describes ignoreCase text i j ∨ second.Describes ignoreCase text i j
  | .times least most body, i, j =>
    ∃ n, least ≤ n ∧ (∀ limit ∈ most, n ≤ limit) ∧ Rounds (body.Describes ignoreCase text) n i j
  | .group _ body, i, j => body.Describes ignoreCase text i j
  | .again _, _, _ => False

/-- How many steps an expression has. -/
def size (node : Node) : Nat := (stepsOf 0 node).length

end Node

variable {r : Regex} {text : Text} {node body : Node} {code code' : List Step} {pos next i j k l n c : Nat}
  {a b q : Nat × Nat} {rel rel' : Nat → Nat → Prop} {least : Nat} {most : Option Nat}

theorem Rounds.cons (h : rel i j) (hrest : Rounds rel n j k) : Rounds rel (n + 1) i k := by
  induction n generalizing k with
  | zero => exact ⟨i, rfl, hrest ▸ h⟩
  | succ n ih =>
      obtain ⟨l, hrounds, hlast⟩ := hrest
      exact ⟨l, ih hrounds, hlast⟩

theorem Rounds.le (hle : ∀ i j, rel i j → i ≤ l → j ≤ l) (h : Rounds rel n i j) (hi : i ≤ l) : j ≤ l := by
  induction n generalizing j with
  | zero => exact h ▸ hi
  | succ n ih =>
      obtain ⟨k, hrounds, hlast⟩ := h
      exact hle k j hlast (ih hrounds)

/-- What is described lies in the text. -/
theorem Node.Describes.le_length {ignoreCase : Bool} (h : node.Describes ignoreCase text i j)
    (hi : i ≤ text.length) : j ≤ text.length := by
  induction node generalizing i j with
  | empty => exact h ▸ hi
  | oneOf =>
      obtain ⟨rfl, c, hc, -⟩ := h
      exact (List.getElem?_eq_some_iff.mp hc).1
  | anchor => exact h.1 ▸ hi
  | again => exact h.elim
  | sequence _ _ ihfirst ihsecond =>
      obtain ⟨k, hfirst, hsecond⟩ := h
      exact ihsecond hsecond (ihfirst hfirst hi)
  | either _ _ ihfirst ihsecond =>
      rcases h with h | h
      · exact ihfirst h hi
      · exact ihsecond h hi
  | group _ _ ih => exact ih h hi
  | times _ _ _ ih =>
      obtain ⟨n, -, -, hrounds⟩ := h
      exact hrounds.le (fun _ _ => ih) hi

theorem Rounds.split (h : Rounds rel (n + c) i k) : ∃ j, Rounds rel n i j ∧ Rounds rel c j k := by
  induction c generalizing k with
  | zero => exact ⟨k, h, rfl⟩
  | succ c ih =>
      obtain ⟨l, hrounds, hlast⟩ := h
      obtain ⟨j, hfront, hback⟩ := ih hrounds
      exact ⟨j, hfront, l, hback, hlast⟩

theorem Rounds.append (h : Rounds rel n i j) (hrest : Rounds rel c j k) : Rounds rel (n + c) i k := by
  induction c generalizing k with
  | zero => exact hrest ▸ h
  | succ c ih =>
      obtain ⟨l, hrounds, hlast⟩ := hrest
      exact ⟨l, ih hrounds, hlast⟩

/-! ### Where the steps of a part stand -/

theorem length_flatMap_range {f : Nat → List Step} (hlength : ∀ t, (f t).length = l) (n : Nat) :
    ((List.range n).flatMap f).length = n * l := by
  simp only [List.length_flatMap, hlength, List.map_const', List.length_range, List.sum_replicate_nat]

/-- An expression has as many steps wherever it stands. -/
theorem length_stepsOf (pos : Nat) (node : Node) : (stepsOf pos node).length = node.size := by
  unfold Node.size
  induction node generalizing pos with
  | empty | oneOf | anchor | again => simp only [stepsOf]
  | sequence first second ihfirst ihsecond =>
      simp only [stepsOf, List.length_append, ihfirst pos, ihsecond (pos + _), ihsecond (0 + _)]
  | either first second ihfirst ihsecond =>
      simp only [stepsOf, List.length_append, List.length_cons, ihfirst (pos + 1), ihfirst (0 + 1),
        ihsecond (pos + _ + 2), ihsecond (0 + _ + 2)]
  | group number body ih =>
      simp only [stepsOf, List.length_append, List.length_cons, ih (pos + 1), ih (0 + 1)]
  | times least most body ih =>
      have hneeded : ∀ pos step, ((List.range least).flatMap fun i => stepsOf (pos + i * step) body).length =
          least * (stepsOf 0 body).length := fun pos step => length_flatMap_range (fun i => ih _) least
      cases most with
      | none => simp only [stepsOf, copies, List.length_append, List.length_cons, hneeded, ih (_ + 1)]
      | some most =>
          simp only [stepsOf, copies, List.length_append, hneeded]
          rw [length_flatMap_range (l := (stepsOf 0 body).length + 1) fun i => by rw [List.length_cons, ih],
            length_flatMap_range (l := (stepsOf 0 body).length + 1) fun i => by rw [List.length_cons, ih]]

/-- Some steps stand at a position among those of an expression. -/
def StandsAt (r : Regex) (pos : Nat) (code : List Step) : Prop :=
  ∀ k step, code[k]? = some step → r.steps[pos + k]? = some step

namespace StandsAt

theorem left (h : StandsAt r pos (code ++ code')) : StandsAt r pos code := fun k step hstep =>
  h k step (List.getElem?_append_left (List.getElem?_eq_some_iff.mp hstep).1 ▸ hstep)

theorem right (h : StandsAt r pos (code ++ code')) (hlength : code.length = l) : StandsAt r (pos + l) code' := by
  intro k step hstep
  have hshifted : (code ++ code')[l + k]? = some step := by
    rw [List.getElem?_append_right (hlength ▸ Nat.le_add_right _ _), hlength, Nat.add_sub_cancel_left, hstep]
  rw [Nat.add_assoc]
  exact h _ _ hshifted

theorem head {step : Step} (h : StandsAt r pos (step :: code)) : r.steps[pos]? = some step := h 0 step rfl

theorem tail {step : Step} (h : StandsAt r pos (step :: code)) : StandsAt r (pos + 1) code :=
  StandsAt.right (show StandsAt r pos ([step] ++ code) from h) rfl

/-- Parts of the same length stand one behind the other. -/
theorem part {f : Nat → List Step} (hlength : ∀ t, (f t).length = l)
    (h : StandsAt r pos ((List.range n).flatMap f)) {t : Nat} (ht : t < n) : StandsAt r (pos + t * l) (f t) := by
  induction n with
  | zero => cases ht
  | succ n ih =>
      rw [List.range_succ, List.flatMap_append, List.flatMap_singleton] at h
      rcases Nat.lt_succ_iff_lt_or_eq.mp ht with ht | rfl
      · exact ih h.left ht
      · exact h.right (length_flatMap_range hlength t)

end StandsAt

/-- An expression stands behind a position with all its steps. -/
abbrev Holds (r : Regex) (pos : Nat) (node : Node) : Prop := StandsAt r pos (stepsOf pos node)

section Sizes

variable {first second : Node} {number : Nat}

theorem size_empty : Node.empty.size = 0 := by
  rw [Node.size, stepsOf, List.length_nil]

theorem size_oneOf {negated : Bool} {ranges : List (Char × Char)} : (Node.oneOf negated ranges).size = 1 := by
  rw [Node.size, stepsOf, List.length_singleton]

theorem size_anchor {edge : Anchor} : (Node.anchor edge).size = 1 := by
  rw [Node.size, stepsOf, List.length_singleton]

theorem size_sequence : (Node.sequence first second).size = first.size + second.size := by
  rw [Node.size, stepsOf, List.length_append, length_stepsOf, length_stepsOf]

theorem size_either : (Node.either first second).size = first.size + second.size + 2 := by
  rw [Node.size, stepsOf]
  simp only [List.length_append, List.length_cons, length_stepsOf]
  omega

theorem size_group : (Node.group number body).size = body.size + 2 := by
  rw [Node.size, stepsOf]
  simp only [List.length_append, List.length_cons, List.length_nil, length_stepsOf]

theorem length_needed : ((List.range least).flatMap fun i => stepsOf (pos + i * body.size) body).length =
    least * body.size :=
  length_flatMap_range (fun _ => length_stepsOf _ body) least

theorem size_loop : (Node.times least none body).size = least * body.size + body.size + 2 := by
  rw [Node.size, stepsOf, copies]
  simp only [List.length_append, List.length_cons, List.length_nil, length_stepsOf, length_needed]
  omega

theorem size_choices {limit : Nat} : (Node.times least (some limit) body).size =
    least * body.size + (limit - least) * (body.size + 1) := by
  rw [Node.size, stepsOf, copies]
  simp only [List.length_append, length_stepsOf, length_needed]
  rw [length_flatMap_range fun t => by rw [List.length_cons, length_stepsOf]]

end Sizes

section Parts

variable {first second : Node} {number : Nat}

theorem holds_sequence (h : Holds r pos (.sequence first second)) :
    Holds r pos first ∧ Holds r (pos + first.size) second := by
  rw [Holds, stepsOf] at h
  simp only [length_stepsOf] at h
  exact ⟨h.left, h.right (length_stepsOf _ _)⟩

theorem holds_either (h : Holds r pos (.either first second)) :
    r.steps[pos]? = some (.split (pos + 1) (pos + first.size + 2)) ∧ Holds r (pos + 1) first ∧
      r.steps[pos + 1 + first.size]? = some (.jump (pos + first.size + second.size + 2)) ∧
      Holds r (pos + first.size + 2) second := by
  rw [Holds, stepsOf] at h
  simp only [length_stepsOf, List.cons_append] at h
  have hback := h.tail.right (length_stepsOf _ _)
  refine ⟨h.head, h.tail.left, hback.head, ?_⟩
  have hsecond := hback.tail
  rwa [show pos + 1 + first.size + 1 = pos + first.size + 2 by omega] at hsecond

theorem holds_group (h : Holds r pos (.group number body)) :
    r.steps[pos]? = some (.mark (2 * number)) ∧ Holds r (pos + 1) body ∧
      r.steps[pos + 1 + body.size]? = some (.mark (2 * number + 1)) := by
  rw [Holds, stepsOf, List.cons_append] at h
  exact ⟨h.head, h.tail.left, (h.tail.right (length_stepsOf _ _)).head⟩

/-- The copies of a repetition that are needed. -/
theorem holds_needed (h : Holds r pos (.times least most body)) :
    ∀ t < least, Holds r (pos + t * body.size) body := by
  intro t ht
  rw [Holds, stepsOf] at h
  cases most with
  | none =>
      simp only [copies, length_stepsOf] at h
      exact h.left.left.part (fun _ => length_stepsOf _ body) ht
  | some limit =>
      simp only [copies, length_stepsOf] at h
      exact h.left.part (fun _ => length_stepsOf _ body) ht

/-- The loop of a repetition without a limit. -/
theorem holds_loop (h : Holds r pos (.times least none body)) (hnext : next = pos + least * body.size) :
    r.steps[next]? = some (.split (next + 1) (next + body.size + 2)) ∧ Holds r (next + 1) body ∧
      r.steps[next + 1 + body.size]? = some (.jump next) := by
  rw [Holds, stepsOf] at h
  simp only [copies, length_stepsOf, length_needed, ← hnext, List.append_assoc] at h
  have hloop := h.right length_needed
  rw [← hnext] at hloop
  exact ⟨hloop.head, hloop.tail.left, (hloop.tail.right (length_stepsOf _ body)).head⟩

/-- The copies of a repetition with a limit that are not needed. -/
theorem holds_choices {limit : Nat} (h : Holds r pos (.times least (some limit) body))
    (hnext : next = pos + least * body.size) : ∀ t < limit - least,
      r.steps[next + t * (body.size + 1)]? = some (.split (next + t * (body.size + 1) + 1)
        (next + (limit - least) * (body.size + 1))) ∧
      Holds r (next + t * (body.size + 1) + 1) body := by
  intro t ht
  rw [Holds, stepsOf] at h
  simp only [copies, length_stepsOf, length_needed, ← hnext] at h
  have hchoices := h.right length_needed
  rw [← hnext] at hchoices
  have hpart := hchoices.part (fun _ => by rw [List.length_cons, length_stepsOf]) ht
  exact ⟨hpart.head, hpart.tail⟩

end Parts

/-! ### Walks -/

/-- Where a step leads from a place in the text. -/
def Step.Leads (ignoreCase : Bool) (text : Text) (a b : Nat × Nat) : Step → Prop
  | .jump target => b = (target, a.2)
  | .split first second => b = (first, a.2) ∨ b = (second, a.2)
  | .mark _ => b = (a.1 + 1, a.2)
  | .anchor edge => edge.holds (placeAt text a.2) = true ∧ b = (a.1 + 1, a.2)
  | .oneOf negated ranges =>
    (∃ c, text[a.2]? = some c ∧ fits ignoreCase negated ranges c = true) ∧ b = (a.1 + 1, a.2 + 1)
  | .again _ | .accept => False

/-- From a step at a place in the text to another one. -/
def Edge (r : Regex) (text : Text) (a b : Nat × Nat) : Prop :=
  ∃ step, r.steps[a.1]? = some step ∧ step.Leads r.ignoreCase text a b

/-- A walk over so many edges. -/
inductive Walk (r : Regex) (text : Text) : Nat → Nat × Nat → Nat × Nat → Prop
  | done (a : Nat × Nat) : Walk r text 0 a a
  | more {n : Nat} {a b q : Nat × Nat} (h : Edge r text a b) (hrest : Walk r text n b q) : Walk r text (n + 1) a q

theorem Walk.trans {m : Nat} (h : Walk r text n a b) (h' : Walk r text m b q) : ∃ n, Walk r text n a q := by
  induction h with
  | done => exact ⟨m, h'⟩
  | more hedge _ ih =>
      obtain ⟨n, hwalk⟩ := ih h'
      exact ⟨n + 1, .more hedge hwalk⟩

/-- There is a walk of some length. -/
def Reaches (r : Regex) (text : Text) (a b : Nat × Nat) : Prop := ∃ n, Walk r text n a b

namespace Reaches

theorem refl (a : Nat × Nat) : Reaches r text a a := ⟨0, .done a⟩

theorem trans (h : Reaches r text a b) (h' : Reaches r text b q) : Reaches r text a q := by
  obtain ⟨_, hwalk⟩ := h
  obtain ⟨_, hwalk'⟩ := h'
  exact hwalk.trans hwalk'

theorem of_step {step : Step} (h : r.steps[k]? = some step) (hleads : step.Leads r.ignoreCase text (k, i) b) :
    Reaches r text (k, i) b :=
  ⟨1, .more ⟨step, h, hleads⟩ (.done b)⟩

/-- Parts that stand one behind the other are walked through one after the other. -/
theorem rounds {f : Nat → Nat} {limit : Nat}
    (h : ∀ t < limit, ∀ i j, rel i j → Reaches r text (f t, i) (f (t + 1), j)) (hn : n ≤ limit)
    (hrounds : Rounds rel n i j) : Reaches r text (f 0, i) (f n, j) := by
  induction n generalizing j with
  | zero => exact hrounds ▸ refl _
  | succ n ih =>
      obtain ⟨l, hfront, hlast⟩ := hrounds
      exact (ih (Nat.le_of_succ_le hn) hfront).trans (h n hn l j hlast)

end Reaches

/-- What an expression describes is walked through from its first step to behind its last one. -/
theorem reaches_of_describes (h : Holds r pos node) (hdescribes : node.Describes r.ignoreCase text i j) :
    Reaches r text (pos, i) (pos + node.size, j) := by
  induction node generalizing pos i j with
  | empty =>
      obtain rfl : i = j := hdescribes
      rw [size_empty]
      exact .refl _
  | oneOf negated ranges =>
      rw [Holds, stepsOf] at h
      obtain ⟨rfl, hfits⟩ := hdescribes
      rw [size_oneOf]
      exact .of_step h.head ⟨hfits, rfl⟩
  | anchor edge =>
      rw [Holds, stepsOf] at h
      obtain ⟨rfl, hholds⟩ := hdescribes
      rw [size_anchor]
      exact .of_step h.head ⟨hholds, rfl⟩
  | again number => exact hdescribes.elim
  | sequence first second ihfirst ihsecond =>
      obtain ⟨l, hfirst, hsecond⟩ := hdescribes
      obtain ⟨hholds, hholds'⟩ := holds_sequence h
      rw [size_sequence, ← Nat.add_assoc]
      exact (ihfirst hholds hfirst).trans (ihsecond hholds' hsecond)
  | either first second ihfirst ihsecond =>
      obtain ⟨hsplit, hholds, hjump, hholds'⟩ := holds_either h
      rw [size_either, ← Nat.add_assoc, ← Nat.add_assoc]
      rcases hdescribes with hfirst | hsecond
      · refine ((Reaches.of_step hsplit (Or.inl rfl)).trans (ihfirst hholds hfirst)).trans ?_
        exact .of_step hjump rfl
      · have hwalk := ihsecond hholds' hsecond
        rw [Nat.add_right_comm _ 2] at hwalk
        exact (Reaches.of_step hsplit (Or.inr rfl)).trans hwalk
  | group number body ih =>
      obtain ⟨hfront, hholds, hback⟩ := holds_group h
      rw [size_group, show pos + (body.size + 2) = pos + 1 + body.size + 1 by omega]
      exact ((Reaches.of_step hfront rfl).trans (ih hholds hdescribes)).trans (.of_step hback rfl)
  | times least most body ih =>
      obtain ⟨n, hleast, hmost, hrounds⟩ := hdescribes
      obtain ⟨c, rfl⟩ := Nat.exists_eq_add_of_le hleast
      obtain ⟨l, hneeded, hothers⟩ := hrounds.split
      have hfront : Reaches r text (pos + 0 * body.size, i) (pos + least * body.size, l) := by
        refine Reaches.rounds (f := fun t => pos + t * body.size) (fun t ht i j hround => ?_) (Nat.le_refl _)
          hneeded
        have hwalk := ih (holds_needed h t ht) hround
        rwa [Nat.add_assoc, ← Nat.succ_mul] at hwalk
      rw [Nat.zero_mul, Nat.add_zero] at hfront
      refine hfront.trans ?_
      cases most with
      | none =>
          obtain ⟨hsplit, hholds, hjump⟩ := holds_loop h rfl
          have hloop : Reaches r text (pos + least * body.size, l) (pos + least * body.size, j) := by
            refine Reaches.rounds (f := fun _ => pos + least * body.size) (fun t _ i j hround => ?_)
              (Nat.le_refl _) hothers
            exact ((Reaches.of_step hsplit (Or.inl rfl)).trans (ih hholds hround)).trans (.of_step hjump rfl)
          rw [size_loop, ← Nat.add_assoc, ← Nat.add_assoc]
          exact hloop.trans (.of_step hsplit (Or.inr rfl))
      | some limit =>
          have hc : c ≤ limit - least := by
            have := hmost limit rfl
            omega
          have hchoices := holds_choices h rfl
          have hwalk : Reaches r text (pos + least * body.size + 0 * (body.size + 1), l)
              (pos + least * body.size + c * (body.size + 1), j) := by
            refine Reaches.rounds (f := fun t => pos + least * body.size + t * (body.size + 1))
              (fun t ht i j hround => ?_) hc hothers
            obtain ⟨hsplit, hholds⟩ := hchoices t ht
            have hbody := (Reaches.of_step hsplit (Or.inl rfl)).trans (ih hholds hround)
            rwa [Nat.add_assoc _ 1, Nat.add_comm 1, Nat.add_assoc _ _ (body.size + 1), ← Nat.succ_mul] at hbody
          rw [Nat.zero_mul, Nat.add_zero] at hwalk
          rw [size_choices, ← Nat.add_assoc]
          refine hwalk.trans ?_
          rcases Nat.lt_or_eq_of_le hc with hless | rfl
          · obtain ⟨hsplit, -⟩ := hchoices c hless
            exact .of_step hsplit (Or.inr rfl)
          · exact .refl _

/-! ### Walks to the end -/

/-- Each walk from a step to the end comes by another step, behind what a relation describes. -/
def Passes (r : Regex) (text : Text) (q : Nat × Nat) (rel : Nat → Nat → Prop) (k l : Nat) : Prop :=
  ∀ n i, Walk r text n (k, i) q → ∃ j m, m ≤ n ∧ rel i j ∧ Walk r text m (l, j) q

theorem Passes.trans {m : Nat} (h : Passes r text q rel k l) (h' : Passes r text q rel' l m) :
    Passes r text q (fun i k => ∃ j, rel i j ∧ rel' j k) k m := by
  intro n i hwalk
  obtain ⟨j, n', hn', hrel, hwalk'⟩ := h n i hwalk
  obtain ⟨j', n'', hn'', hrel', hwalk''⟩ := h' n' j hwalk'
  exact ⟨j', n'', Nat.le_trans hn'' hn', ⟨j, hrel, hrel'⟩, hwalk''⟩

theorem Passes.imp (h : Passes r text q rel k l) (himp : ∀ i j, rel i j → rel' i j) : Passes r text q rel' k l := by
  intro n i hwalk
  obtain ⟨j, m, hm, hrel, hwalk'⟩ := h n i hwalk
  exact ⟨j, m, hm, himp i j hrel, hwalk'⟩

/-- A walk to the end goes on from any step that is not the end. -/
theorem Walk.of_step {step : Step} (h : Walk r text n a q) (hend : r.steps[q.1]? = some .accept)
    (hstep : r.steps[a.1]? = some step) (hne : step ≠ .accept) :
    ∃ m b, m + 1 = n ∧ step.Leads r.ignoreCase text a b ∧ Walk r text m b q := by
  cases h with
  | done =>
      rw [hend] at hstep
      exact absurd (Option.some.inj hstep).symm hne
  | @more m _ b _ hedge hrest =>
      obtain ⟨step', hstep', hleads⟩ := hedge
      obtain rfl := Option.some.inj (hstep.symm.trans hstep')
      exact ⟨m, b, rfl, hleads, hrest⟩

section Exits

variable (hend : r.steps[q.1]? = some .accept)

include hend

theorem passes_of_step {step : Step} (hstep : r.steps[k]? = some step) (hne : step ≠ .accept)
    (hleads : ∀ i b, step.Leads r.ignoreCase text (k, i) b → b.1 = l ∧ rel i b.2) :
    Passes r text q rel k l := by
  intro n i hwalk
  obtain ⟨m, b, rfl, hb, hrest⟩ := hwalk.of_step hend hstep hne
  obtain ⟨rfl, hrel⟩ := hleads i b hb
  exact ⟨b.2, m, Nat.le_succ m, hrel, hrest⟩

omit hend in
/-- Parts that stand one behind the other are passed one after the other. -/
theorem passes_rounds {f : Nat → Nat} (h : ∀ t < n, Passes r text q rel (f t) (f (t + 1))) :
    Passes r text q (Rounds rel n) (f 0) (f n) := by
  induction n with
  | zero => exact fun n i hwalk => ⟨i, n, Nat.le_refl n, rfl, hwalk⟩
  | succ n ih => exact (ih fun t ht => h t (Nat.lt_succ_of_lt ht)).trans (h n (Nat.lt_succ_self n))

/-- Before each part the walk may leave the rest out. -/
theorem passes_choices {f : Nat → Nat} {limit : Nat}
    (hbody : ∀ t < limit, Passes r text q rel (f t + 1) (f (t + 1)))
    (hsplit : ∀ t < limit, r.steps[f t]? = some (.split (f t + 1) (f limit))) :
    Passes r text q (fun i j => ∃ c ≤ limit, Rounds rel c i j) (f 0) (f limit) := by
  induction limit generalizing f with
  | zero => exact fun n i hwalk => ⟨i, n, Nat.le_refl n, ⟨0, Nat.le_refl 0, rfl⟩, hwalk⟩
  | succ limit ih =>
      intro n i hwalk
      obtain ⟨m, b, rfl, hb, hrest⟩ := hwalk.of_step hend (hsplit 0 (Nat.succ_pos _)) (by simp)
      rcases hb with rfl | rfl
      · obtain ⟨j, m', hm', hrel, hwalk'⟩ := hbody 0 (Nat.succ_pos _) m i hrest
        obtain ⟨j', m'', hm'', ⟨c, hc, hrounds⟩, hwalk''⟩ := ih (f := fun t => f (t + 1))
          (fun t ht => hbody (t + 1) (Nat.succ_lt_succ ht)) (fun t ht => hsplit (t + 1) (Nat.succ_lt_succ ht))
          m' j hwalk'
        exact ⟨j', m'', by omega, ⟨c + 1, Nat.succ_le_succ hc, hrounds.cons hrel⟩, hwalk''⟩
      · exact ⟨i, m, Nat.le_succ m, ⟨0, Nat.zero_le _, rfl⟩, hrest⟩

/-- A loop is left behind some number of rounds. The induction is on the length of the walk. -/
theorem passes_loop {back : Nat} (hsplit : r.steps[next]? = some (.split (next + 1) l))
    (hbody : Passes r text q rel (next + 1) back) (hjump : r.steps[back]? = some (.jump next)) :
    Passes r text q (fun i j => ∃ c, Rounds rel c i j) next l := by
  intro n
  induction n using Nat.strongRecOn with
  | ind n ih =>
      intro i hwalk
      obtain ⟨m, b, rfl, hb, hrest⟩ := hwalk.of_step hend hsplit (by simp)
      rcases hb with rfl | rfl
      · obtain ⟨j, m', hm', hrel, hwalk'⟩ := hbody m i hrest
        obtain ⟨m'', b, rfl, rfl, hagain⟩ := hwalk'.of_step hend hjump (by simp)
        obtain ⟨j', m, hm, ⟨c, hrounds⟩, hwalk''⟩ := ih m'' (by omega) j hagain
        exact ⟨j', m, by omega, ⟨c + 1, hrounds.cons hrel⟩, hwalk''⟩
      · exact ⟨i, m, Nat.le_succ m, ⟨0, rfl⟩, hrest⟩

/-- A walk to the end that enters an expression leaves it behind what the expression describes. -/
theorem passes_of_holds (hplain : node.Plain) (h : Holds r pos node) :
    Passes r text q (node.Describes r.ignoreCase text) pos (pos + node.size) := by
  induction node generalizing pos with
  | empty =>
      rw [size_empty]
      exact fun n i hwalk => ⟨i, n, Nat.le_refl n, rfl, hwalk⟩
  | oneOf negated ranges =>
      rw [Holds, stepsOf] at h
      rw [size_oneOf]
      refine passes_of_step hend h.head (by simp) fun i b hb => ?_
      obtain ⟨hfits, rfl⟩ := hb
      exact ⟨rfl, rfl, hfits⟩
  | anchor edge =>
      rw [Holds, stepsOf] at h
      rw [size_anchor]
      refine passes_of_step hend h.head (by simp) fun i b hb => ?_
      obtain ⟨hholds, rfl⟩ := hb
      exact ⟨rfl, rfl, hholds⟩
  | again number => exact hplain.elim
  | sequence first second ihfirst ihsecond =>
      obtain ⟨hholds, hholds'⟩ := holds_sequence h
      rw [size_sequence, ← Nat.add_assoc]
      exact (ihfirst hplain.1 hholds).trans (ihsecond hplain.2 hholds')
  | either first second ihfirst ihsecond =>
      obtain ⟨hsplit, hholds, hjump, hholds'⟩ := holds_either h
      rw [size_either, ← Nat.add_assoc, ← Nat.add_assoc]
      intro n i hwalk
      obtain ⟨m, b, rfl, hb, hrest⟩ := hwalk.of_step hend hsplit (by simp)
      rcases hb with rfl | rfl
      · obtain ⟨j, m', hm', hfirst, hwalk'⟩ := ihfirst hplain.1 hholds m i hrest
        obtain ⟨m'', b, rfl, rfl, hwalk''⟩ := hwalk'.of_step hend hjump (by simp)
        exact ⟨j, m'', by omega, Or.inl hfirst, hwalk''⟩
      · obtain ⟨j, m', hm', hsecond, hwalk'⟩ := ihsecond hplain.2 hholds' m i hrest
        rw [Nat.add_right_comm _ 2] at hwalk'
        exact ⟨j, m', by omega, Or.inr hsecond, hwalk'⟩
  | group number body ih =>
      obtain ⟨hfront, hholds, hback⟩ := holds_group h
      rw [size_group, show pos + (body.size + 2) = pos + 1 + body.size + 1 by omega]
      have hmark : ∀ {k slot}, r.steps[k]? = some (.mark slot) → Passes r text q Eq k (k + 1) := fun hstep =>
        passes_of_step hend hstep (by simp) fun i b hb => by
          obtain rfl : b = _ := hb
          exact ⟨rfl, rfl⟩
      refine (((hmark hfront).trans (ih hplain hholds)).trans (hmark hback)).imp ?_
      rintro i j ⟨_, ⟨_, rfl, hbody⟩, rfl⟩
      exact hbody
  | times least most body ih =>
      obtain ⟨hlimits, hbody⟩ := hplain
      have hneeded : Passes r text q (Rounds (body.Describes r.ignoreCase text) least) (pos + 0 * body.size)
          (pos + least * body.size) := by
        refine passes_rounds (f := fun t => pos + t * body.size) fun t ht => ?_
        have hpasses := ih hbody (holds_needed h t ht)
        rwa [Nat.add_assoc, ← Nat.succ_mul] at hpasses
      rw [Nat.zero_mul, Nat.add_zero] at hneeded
      cases most with
      | none =>
          obtain ⟨hsplit, hholds, hjump⟩ := holds_loop h rfl
          rw [size_loop, ← Nat.add_assoc, ← Nat.add_assoc]
          refine (hneeded.trans (passes_loop hend hsplit (ih hbody hholds) hjump)).imp ?_
          rintro i j ⟨l, hfront, c, hothers⟩
          exact ⟨least + c, Nat.le_add_right _ _, by simp, hfront.append hothers⟩
      | some limit =>
          have hchoices := holds_choices h rfl
          rw [size_choices, ← Nat.add_assoc]
          have hpasses : Passes r text q
              (fun i j => ∃ c ≤ limit - least, Rounds (body.Describes r.ignoreCase text) c i j)
              (pos + least * body.size + 0 * (body.size + 1))
              (pos + least * body.size + (limit - least) * (body.size + 1)) := by
            refine passes_choices hend (f := fun t => pos + least * body.size + t * (body.size + 1))
              (fun t ht => ?_) fun t ht => (hchoices t ht).1
            have hpart := ih hbody (hchoices t ht).2
            rwa [Nat.add_assoc _ 1, Nat.add_comm 1, Nat.add_assoc _ _ (body.size + 1), ← Nat.succ_mul] at hpart
          rw [Nat.zero_mul, Nat.add_zero] at hpasses
          refine (hneeded.trans hpasses).imp ?_
          rintro i j ⟨l, hfront, c, hc, hothers⟩
          refine ⟨least + c, Nat.le_add_right _ _, fun limit' hlimit => ?_, hfront.append hothers⟩
          obtain rfl := Option.mem_some_iff.mp hlimit
          have := hlimits limit rfl
          omega

end Exits

/-! ### The whole -/

/-- The steps are walked to the end from one place in the text to another. -/
def Ends (r : Regex) (text : Text) (i j : Nat) : Prop :=
  ∃ k, Reaches r text (0, i) (k, j) ∧ r.steps[k]? = some .accept

/-- The steps of an expression are walked to the end exactly over what it describes. -/
theorem ends_iff_describes (hplain : node.Plain) (groups : Nat) (ignoreCase : Bool) :
    Ends (ofNode node groups ignoreCase) text i j ↔ node.Describes ignoreCase text i j := by
  have hwhole : StandsAt (ofNode node groups ignoreCase) 0 (stepsOf 0 node ++ [Step.accept]) := fun k step hstep => by
    rw [Nat.zero_add, ofNode, List.getElem?_toArray, hstep]
  have haccept := (hwhole.right (length_stepsOf 0 node)).head
  rw [Nat.zero_add] at haccept
  constructor
  · rintro ⟨k, ⟨n, hwalk⟩, hend⟩
    obtain ⟨j', m, -, hdescribes, hrest⟩ := passes_of_holds (q := (k, j)) hend hplain hwhole.left n i hwalk
    rw [Nat.zero_add] at hrest
    cases hrest with
    | done => exact hdescribes
    | more hedge _ =>
        obtain ⟨step, hstep, hleads⟩ := hedge
        obtain rfl := Option.some.inj (haccept.symm.trans hstep)
        exact hleads.elim
  · intro hdescribes
    have hwalk := reaches_of_describes hwhole.left hdescribes
    rw [Nat.zero_add] at hwalk
    exact ⟨node.size, hwalk, haccept⟩

end CompileFail.Regex
