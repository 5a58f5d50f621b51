import CompileFail.Proofs.Blank
import CompileFail.Proofs.QuotedArguments
import Mathlib.Data.List.Count

/-! The rules of Windows for command lines, told over runs of backslashes and quotes, and what splitting makes
of them. Where the blanks are spaces and tabs the rules cut every line into pieces in one way, and splitting
follows them in all but one: two quotes within a quoted region stand for a quote there, and splitting drops
them. So it gives as many arguments as the rules, and the same ones exactly for the lines without such a
pair. -/

namespace CompileFail.CommandLine

/-- What separates arguments outside of quotes. -/
def isGap (c : Char) : Bool := c == ' ' || c == '\t'

/-- The pieces of a command line, each by what it stands for. -/
inductive Piece where
  /-- A blank between arguments. -/
  | gap
  /-- Characters that stand for themselves. -/
  | plain (s : Text)
  /-- Twice as many backslashes and a quote that opens or closes a region. -/
  | delimiter (backslashes : Nat)
  /-- Twice as many backslashes, one more, and a quote. -/
  | literal (backslashes : Nat)
  /-- Twice as many backslashes and two quotes within a region. -/
  | doubled (backslashes : Nat)
deriving DecidableEq, Repr

/-- What a piece adds to its argument, with `pair` for two quotes within a region. -/
def Piece.text (pair : Text) : Piece → Text
  | gap => []
  | plain s => s
  | delimiter n => List.replicate n '\\'
  | literal n => List.replicate n '\\' ++ ['"']
  | doubled n => List.replicate n '\\' ++ pair

/-- The rules: the piece at the front of a text that stands inside a quoted region or outside of one, and
where the text behind it stands. -/
inductive Rule : Bool → Text → Piece → Bool → Text → Prop
  | gap {c : Char} {s : Text} (hc : isGap c = true) : Rule false (c :: s) .gap false s
  | plain {quoted : Bool} {c : Char} {s : Text} (hslash : c ≠ '\\') (hquote : c ≠ '"')
      (hc : quoted = true ∨ isGap c = false) : Rule quoted (c :: s) (.plain [c]) quoted s
  /-- Backslashes that no quote follows. -/
  | backslashes {quoted : Bool} {n : Nat} {s : Text} (hn : 0 < n) (hs : ∀ c ∈ s.head?, c ≠ '\\' ∧ c ≠ '"') :
      Rule quoted (List.replicate n '\\' ++ s) (.plain (List.replicate n '\\')) quoted s
  | literal (quoted : Bool) (n : Nat) (s : Text) :
      Rule quoted (List.replicate (2 * n + 1) '\\' ++ '"' :: s) (.literal n) quoted s
  | delimiter {quoted : Bool} (n : Nat) {s : Text} (hs : quoted = true → s.head? ≠ some '"') :
      Rule quoted (List.replicate (2 * n) '\\' ++ '"' :: s) (.delimiter n) (!quoted) s
  | doubled (n : Nat) (s : Text) :
      Rule true (List.replicate (2 * n) '\\' ++ '"' :: '"' :: s) (.doubled n) true s

/-- The pieces of a text. A region may be left open at its end. -/
inductive Cut : Bool → Text → List Piece → Prop
  | nil {quoted : Bool} : Cut quoted [] []
  | cons {quoted after : Bool} {s rest : Text} {piece : Piece} {pieces : List Piece}
      (h : Rule quoted s piece after rest) (hrest : Cut after rest pieces) : Cut quoted s (piece :: pieces)

/-- The arguments that pieces make up behind the argument in progress. -/
def arguments (pair : Text) : Option Text → List Piece → List Text
  | current, [] => current.toList
  | current, .gap :: pieces => current.toList ++ arguments pair none pieces
  | current, piece :: pieces => arguments pair (some (current.getD [] ++ piece.text pair)) pieces

variable {quoted after : Bool} {s rest : Text} {piece : Piece} {pieces other : List Piece}

/-! ### Every text is cut in one way -/

theorem takeWhile_backslashes (n : Nat) (hs : s.head? ≠ some '\\') :
    (List.replicate n '\\' ++ s).takeWhile (· == '\\') = List.replicate n '\\' ∧
      (List.replicate n '\\' ++ s).dropWhile (· == '\\') = s := by
  have hrun : ∀ c ∈ List.replicate n '\\', (c == '\\') = true := by simp
  cases s with
  | nil => simp
  | cons c s =>
      have hc : (c == '\\') = false := by simpa using hs
      exact ⟨Text.takeWhile_run hrun hc, Text.dropWhile_run hrun hc⟩

/-- The front piece by the number of backslashes at the front and by what follows them. -/
def pieceBehind? (quoted : Bool) (n : Nat) : Text → Option (Piece × Bool × Text)
  | [] => if n = 0 then none else some (.plain (List.replicate n '\\'), quoted, [])
  | c :: rest =>
    if c = '"' then
      if n % 2 = 1 then some (.literal (n / 2), quoted, rest)
      else if quoted = true ∧ rest.head? = some '"' then some (.doubled (n / 2), true, rest.tail)
      else some (.delimiter (n / 2), !quoted, rest)
    else if 0 < n then some (.plain (List.replicate n '\\'), quoted, c :: rest)
    else if quoted = false ∧ isGap c = true then some (.gap, false, rest)
    else some (.plain [c], quoted, rest)

def next? (quoted : Bool) (s : Text) : Option (Piece × Bool × Text) :=
  pieceBehind? quoted (s.takeWhile (· == '\\')).length (s.dropWhile (· == '\\'))

theorem next?_replicate (quoted : Bool) (n : Nat) (hs : s.head? ≠ some '\\') :
    next? quoted (List.replicate n '\\' ++ s) = pieceBehind? quoted n s := by
  obtain ⟨htake, hdrop⟩ := takeWhile_backslashes n hs
  rw [next?, htake, hdrop, List.length_replicate]

theorem pieceBehind?_quote_odd (quoted : Bool) (n : Nat) (rest : Text) :
    pieceBehind? quoted (2 * n + 1) ('"' :: rest) = some (.literal n, quoted, rest) := by
  have hodd : (2 * n + 1) % 2 = 1 := by omega
  have hhalf : (2 * n + 1) / 2 = n := by omega
  rw [pieceBehind?, if_pos rfl, if_pos hodd, hhalf]

theorem pieceBehind?_quote_even (quoted : Bool) (n : Nat) (rest : Text) :
    pieceBehind? quoted (2 * n) ('"' :: rest) =
      if quoted = true ∧ rest.head? = some '"' then some (.doubled n, true, rest.tail)
      else some (.delimiter n, !quoted, rest) := by
  have heven : ¬2 * n % 2 = 1 := by omega
  have hhalf : 2 * n / 2 = n := by omega
  rw [pieceBehind?, if_pos rfl, if_neg heven, hhalf]

theorem next?_of_rule (h : Rule quoted s piece after rest) : next? quoted s = some (piece, after, rest) := by
  cases h with
  | @gap c rest hc =>
      have hother : c ≠ '\\' ∧ c ≠ '"' := by
        constructor
        · rintro rfl
          exact absurd hc (by decide)
        · rintro rfl
          exact absurd hc (by decide)
      have hnext := next?_replicate (s := c :: rest) false 0 (by simp [hother.1])
      simpa [pieceBehind?, hother.2, hc] using hnext
  | @plain _ c rest hslash hquote hc =>
      have hnext := next?_replicate (s := c :: rest) quoted 0 (by simp [hslash])
      rcases hc with rfl | hc <;> simpa [pieceBehind?, hquote, *] using hnext
  | @backslashes _ n rest hn hs =>
      rw [next?_replicate _ n fun hslash => (hs _ hslash).1 rfl]
      cases rest with
      | nil => rw [pieceBehind?, if_neg hn.ne']
      | cons c rest => rw [pieceBehind?, if_neg (hs c rfl).2, if_pos hn]
  | literal _ n rest => rw [next?_replicate _ (2 * n + 1) (by simp), pieceBehind?_quote_odd]
  | delimiter n hs =>
      rw [next?_replicate _ (2 * n) (by simp), pieceBehind?_quote_even, if_neg fun hpair => hs hpair.1 hpair.2]
  | doubled n rest =>
      rw [next?_replicate _ (2 * n) (by simp), pieceBehind?_quote_even, if_pos ⟨rfl, rfl⟩]
      rfl

theorem exists_backslashes (s : Text) : ∃ n t, s = List.replicate n '\\' ++ t ∧ t.head? ≠ some '\\' := by
  refine ⟨(s.takeWhile (· == '\\')).length, s.dropWhile (· == '\\'), ?_, ?_⟩
  · have hrun : s.takeWhile (· == '\\') = List.replicate (s.takeWhile (· == '\\')).length '\\' :=
      List.eq_replicate_iff.mpr ⟨rfl, fun c hc => by simpa using List.mem_takeWhile_imp hc⟩
    conv => lhs; rw [← List.takeWhile_append_dropWhile (p := (· == '\\')) (l := s), hrun]
  · intro hhead
    have hstop := List.head?_dropWhile_not (· == '\\') s
    rw [hhead] at hstop
    simp at hstop

/-- What backslashes and a quote come to is told by whether their number is even, and then by the next quote. -/
theorem exists_rule_quote (quoted : Bool) (n : Nat) (t : Text) :
    ∃ piece after rest, Rule quoted (List.replicate n '\\' ++ '"' :: t) piece after rest := by
  obtain ⟨m, rfl | rfl⟩ : ∃ m, n = 2 * m ∨ n = 2 * m + 1 := ⟨n / 2, by omega⟩
  · by_cases hpair : quoted = true ∧ t.head? = some '"'
    · obtain ⟨rfl, hhead⟩ := hpair
      obtain ⟨t, rfl⟩ := List.head?_eq_some_iff.mp hhead
      exact ⟨_, _, _, .doubled m t⟩
    · exact ⟨_, _, _, .delimiter m fun hquoted hhead => hpair ⟨hquoted, hhead⟩⟩
  · exact ⟨_, _, _, .literal quoted m t⟩

theorem exists_rule (quoted : Bool) (hs : s ≠ []) : ∃ piece after rest, Rule quoted s piece after rest := by
  obtain ⟨n, t, rfl, ht⟩ := exists_backslashes s
  cases t with
  | nil =>
      have hn : 0 < n := by
        rw [List.append_nil] at hs
        exact Nat.pos_of_ne_zero fun hzero => hs (by rw [hzero]; rfl)
      exact ⟨_, _, _, .backslashes hn (by simp)⟩
  | cons c t =>
      have hslash : c ≠ '\\' := by simpa using ht
      by_cases hquote : c = '"'
      · subst hquote
        exact exists_rule_quote quoted n t
      · rcases Nat.eq_zero_or_pos n with rfl | hn
        · by_cases hgap : quoted = false ∧ isGap c = true
          · obtain ⟨rfl, hgap⟩ := hgap
            exact ⟨_, _, _, .gap hgap⟩
          · have hkept : quoted = true ∨ isGap c = false := by
              cases quoted <;> simp_all
            exact ⟨_, _, _, .plain hslash hquote hkept⟩
        · exact ⟨_, _, _, .backslashes hn (by simp [hslash, hquote])⟩

theorem Rule.suffix (h : Rule quoted s piece after rest) : rest <:+ s := by
  cases h with
  | gap | plain => exact List.suffix_cons _ _
  | backslashes => exact List.suffix_append _ _
  | literal | delimiter => exact (List.suffix_cons _ _).trans (List.suffix_append _ _)
  | doubled =>
      exact ((List.suffix_cons _ _).trans (List.suffix_cons _ _)).trans (List.suffix_append _ _)

theorem Rule.length_lt (h : Rule quoted s piece after rest) : rest.length < s.length := by
  cases h <;> simp <;> omega

theorem exists_cut (quoted : Bool) (s : Text) : ∃ pieces, Cut quoted s pieces := by
  induction hlength : s.length using Nat.strong_induction_on generalizing quoted s with
  | h length ih =>
      by_cases hs : s = []
      · subst hs
        exact ⟨[], .nil⟩
      · obtain ⟨piece, after, rest, hrule⟩ := exists_rule quoted hs
        obtain ⟨pieces, hpieces⟩ := ih rest.length (hlength ▸ hrule.length_lt) after rest rfl
        exact ⟨piece :: pieces, .cons hrule hpieces⟩

theorem Cut.unique (h : Cut quoted s pieces) (h' : Cut quoted s other) : pieces = other := by
  induction h generalizing other with
  | nil =>
      cases h' with
      | nil => rfl
      | cons hrule' => exact absurd hrule'.length_lt (Nat.not_lt_zero _)
  | cons hrule _ ih =>
      cases h' with
      | nil => exact absurd hrule.length_lt (Nat.not_lt_zero _)
      | cons hrule' hrest' =>
          have hnext := (next?_of_rule hrule).symm.trans (next?_of_rule hrule')
          rw [Option.some.injEq, Prod.mk.injEq, Prod.mk.injEq] at hnext
          obtain ⟨rfl, rfl, rfl⟩ := hnext
          rw [ih hrest']

/-! ### Reading follows the pieces -/

namespace Reader

variable {args : List Text} {current : Option Text} {arg : Text} {n : Nat} {r : Reader}

/-- The reader behind a piece. Two quotes within a region add nothing: the first closes the region, and the
second opens it again. -/
def behind (args : List Text) (current : Option Text) (after : Bool) : Piece → Reader
  | .gap => ⟨args ++ current.toList, none, after, 0⟩
  | piece => ⟨args, some (current.getD [] ++ piece.text []), after, 0⟩

theorem foldl_backslashes (args : List Text) (current : Option Text) (quoted : Bool) (m n : Nat) :
    (List.replicate (n + 1) '\\').foldl step ⟨args, current, quoted, m⟩ =
      ⟨args, some (current.getD []), quoted, m + (n + 1)⟩ := by
  induction n generalizing current m with
  | zero => rfl
  | succ n ih =>
      rw [List.replicate_succ, List.foldl_cons, step_backslash, ih]
      congr 1
      omega

theorem foldl_backslashes_quote (args : List Text) (current : Option Text) (quoted : Bool) (n : Nat) (s : Text) :
    (List.replicate n '\\' ++ '"' :: s).foldl step ⟨args, current, quoted, 0⟩ =
      s.foldl step (step ⟨args, current, quoted, n⟩ '"') := by
  cases n with
  | zero => rfl
  | succ n =>
      rw [List.foldl_append, foldl_backslashes, Nat.zero_add, List.foldl_cons]
      rfl

/-- Backslashes that no quote follows may as well have been taken into the argument. -/
theorem finish_foldl_flushed (hs : ∀ c ∈ s.head?, c ≠ '\\' ∧ c ≠ '"') :
    (s.foldl step ⟨args, some arg, quoted, n⟩).finish =
      (s.foldl step ⟨args, some (arg ++ List.replicate n '\\'), quoted, 0⟩).finish := by
  cases s with
  | nil => simp [finish, flushed]
  | cons c s =>
      obtain ⟨hslash, hquote⟩ := hs c rfl
      simp [step, hslash, hquote, flushed]

theorem finish_foldl_of_rule (h : Rule quoted s piece after rest) (hblank : ∀ c ∈ s, isBlank c = isGap c)
    (args : List Text) (current : Option Text) :
    (s.foldl step ⟨args, current, quoted, 0⟩).finish =
      (rest.foldl step (behind args current after piece)).finish := by
  cases h with
  | @gap c rest hc =>
      have hc' : isBlank c = true := (hblank c List.mem_cons_self).trans hc
      rw [List.foldl_cons]
      cases current with
      | none => rw [step_blank_none hc', behind, Option.toList_none, List.append_nil]
      | some arg =>
          rw [step_blank_some hc', List.replicate_zero, List.append_nil]
          rfl
  | @plain _ c rest hslash hquote hc =>
      have hkept : quoted = true ∨ isBlank c = false := hc.imp_right (hblank c List.mem_cons_self).trans
      rw [List.foldl_cons, step_kept hslash hquote hkept, List.replicate_zero, List.append_nil]
      rfl
  | @backslashes _ n rest hn hs =>
      obtain ⟨n, rfl⟩ := Nat.exists_eq_succ_of_ne_zero hn.ne'
      rw [List.foldl_append, foldl_backslashes, Nat.zero_add, finish_foldl_flushed hs]
      rfl
  | literal _ n rest =>
      rw [foldl_backslashes_quote, step_quote_odd, List.append_assoc]
      rfl
  | delimiter n hs =>
      rw [foldl_backslashes_quote, step_quote_even]
      rfl
  | doubled n rest =>
      have hagain : step ⟨args, some (current.getD [] ++ List.replicate n '\\'), !true, 0⟩ '"' =
          behind args current true (.doubled n) :=
        (step_quote_even (n := 0)).trans (by simp [behind, Piece.text])
      rw [foldl_backslashes_quote, step_quote_even, List.foldl_cons, hagain]

theorem finish_foldl_of_cut (h : Cut quoted s pieces) (hblank : ∀ c ∈ s, isBlank c = isGap c)
    (args : List Text) (current : Option Text) :
    (s.foldl step ⟨args, current, quoted, 0⟩).finish = args ++ arguments [] current pieces := by
  induction h generalizing args current with
  | nil => cases current <;> simp [finish, flushed, arguments]
  | @cons _ _ _ rest piece pieces hrule _ ih =>
      have hrest : ∀ c ∈ rest, isBlank c = isGap c := fun c hc => hblank c (hrule.suffix.subset hc)
      rw [finish_foldl_of_rule hrule hblank]
      cases piece with
      | gap => rw [behind, ih hrest, arguments, List.append_assoc]
      | _ =>
          rw [behind, ih hrest, arguments]
          all_goals simp

end Reader

/-! ### Doubled quotes -/

section Doubled

variable {pair pair' : Text} {current current' : Option Text}

theorem arguments_congr (h : ∀ piece ∈ pieces, piece.text pair = piece.text pair') (current : Option Text) :
    arguments pair current pieces = arguments pair' current pieces := by
  induction pieces generalizing current with
  | nil => simp only [arguments]
  | cons piece pieces ih =>
      rw [List.forall_mem_cons] at h
      cases piece with
      | gap => simp only [arguments, ih h.2]
      | _ => simp only [arguments, h.1, ih h.2]

/-- How many arguments there are does not hang on what they hold. -/
theorem length_arguments (h : current.isSome = current'.isSome) :
    (arguments pair current pieces).length = (arguments pair' current' pieces).length := by
  have hlength : current.toList.length = current'.toList.length := by
    cases current <;> cases current' <;> simp_all
  induction pieces generalizing current current' with
  | nil => simpa only [arguments] using hlength
  | cons piece pieces ih =>
      cases piece with
      | gap => simp only [arguments, List.length_append, hlength, ih rfl rfl]
      | _ =>
          simp only [arguments]
          exact ih rfl rfl

theorem flatten_arguments (pair : Text) (current : Option Text) (pieces : List Piece) :
    (arguments pair current pieces).flatten = current.getD [] ++ pieces.flatMap (Piece.text pair) := by
  induction pieces generalizing current with
  | nil => cases current <;> simp [arguments]
  | cons piece pieces ih =>
      cases piece with
      | gap => cases current <;> simp [arguments, ih, Piece.text]
      | _ => simp [arguments, ih]

theorem length_flatMap_text (pair : Text) (pieces : List Piece) :
    (pieces.flatMap (Piece.text pair)).length = (pieces.flatMap (Piece.text [])).length +
      pair.length * pieces.countP fun piece => piece matches .doubled _ := by
  induction pieces with
  | nil => rfl
  | cons piece pieces ih =>
      rw [List.flatMap_cons, List.flatMap_cons, List.length_append, List.length_append, ih, List.countP_cons]
      cases piece <;> simp [Piece.text, Nat.mul_add] <;> omega

theorem arguments_eq_iff (current : Option Text) (pieces : List Piece) :
    arguments [] current pieces = arguments ['"'] current pieces ↔ ∀ n, .doubled n ∉ pieces := by
  constructor
  · intro h n hmem
    have hlength := congrArg (fun args => args.flatten.length) h
    simp only [flatten_arguments, List.length_append] at hlength
    rw [length_flatMap_text ['"']] at hlength
    have hpos : 0 < pieces.countP fun piece => piece matches .doubled _ :=
      List.countP_pos_iff.mpr ⟨.doubled n, hmem, rfl⟩
    rw [List.length_singleton] at hlength
    omega
  · intro h
    apply arguments_congr
    intro piece hmem
    cases piece with
    | doubled n => exact absurd hmem (h n)
    | _ => rfl

end Doubled

/-- The rules cut a line whose blanks are spaces and tabs in one way. Splitting it gives the arguments that the
pieces make up if two quotes within a region stand for nothing: as many as the rules give, and the same ones
exactly if there is no such pair. -/
theorem split_follows_rules (line : Text) (hblank : ∀ c ∈ line, isBlank c = true → c = ' ' ∨ c = '\t') :
    (∃! pieces, Cut false line pieces) ∧
    ∀ pieces, Cut false line pieces →
      split line = arguments [] none pieces ∧
      (split line).length = (arguments ['"'] none pieces).length ∧
      (split line = arguments ['"'] none pieces ↔ ∀ n, .doubled n ∉ pieces) := by
  have hgap : ∀ c ∈ line, isBlank c = isGap c := by
    intro c hc
    rw [Bool.eq_iff_iff, isGap, Bool.or_eq_true, beq_iff_eq, beq_iff_eq]
    constructor
    · exact hblank c hc
    · rintro (rfl | rfl) <;> decide
  refine ⟨?_, fun pieces h => ?_⟩
  · obtain ⟨pieces, h⟩ := exists_cut false line
    exact ⟨pieces, h, fun other hother => hother.unique h⟩
  · have hsplit : split line = arguments [] none pieces := Reader.finish_foldl_of_cut h hgap [] none
    refine ⟨hsplit, ?_, ?_⟩
    · rw [hsplit]
      exact length_arguments rfl
    · rw [hsplit]
      exact arguments_eq_iff none pieces

/-- Backslashes in front of an opening quote, two quotes within the region, and a quote at the end that is a
character. -/
theorem split_follows_rules_doubled :
    let line : Text := "a\\\\\"b \"\"c\"\td\\\""
    let pieces : List Piece := [.plain ['a'], .delimiter 1, .plain ['b'], .plain [' '], .doubled 0, .plain ['c'],
      .delimiter 0, .gap, .plain ['d'], .literal 0]
    (∀ c ∈ line, isBlank c = true → c = ' ' ∨ c = '\t') ∧ Cut false line pieces ∧
      split line = ["a\\b c".toList, "d\"".toList] ∧ split line ≠ arguments ['"'] none pieces := by
  intro line pieces
  have hblank : ∀ c ∈ line, isBlank c = true → c = ' ' ∨ c = '\t' :=
    List.forall_mem_iff_getElem.mpr (by decide)
  have hcut : Cut false line pieces := by
    apply Cut.cons (.plain (by decide) (by decide) (Or.inr (by decide)))
    apply Cut.cons (.delimiter 1 (by decide))
    apply Cut.cons (.plain (by decide) (by decide) (Or.inl rfl))
    apply Cut.cons (.plain (by decide) (by decide) (Or.inl rfl))
    apply Cut.cons (.doubled 0 _)
    apply Cut.cons (.plain (by decide) (by decide) (Or.inl rfl))
    apply Cut.cons (.delimiter 0 (by decide))
    apply Cut.cons (.gap (by decide))
    apply Cut.cons (.plain (by decide) (by decide) (Or.inr (by decide)))
    apply Cut.cons (.literal false 0 [])
    exact .nil
  obtain ⟨-, hfollows⟩ := split_follows_rules line hblank
  obtain ⟨hsplit, -, hequal⟩ := hfollows pieces hcut
  exact ⟨hblank, hcut, hsplit.trans (by decide), fun h => hequal.mp h 0 (by decide)⟩

/-- By the rules two quotes within a region are a quote there, and the region goes on. -/
theorem split_drops_doubled :
    let line : Text := "\"a\"\"b c\""
    let pieces : List Piece := [.delimiter 0, .plain ['a'], .doubled 0, .plain ['b'], .plain [' '], .plain ['c'],
      .delimiter 0]
    (∀ c ∈ line, isBlank c = true → c = ' ' ∨ c = '\t') ∧ Cut false line pieces ∧
      arguments ['"'] none pieces = ["a\"b c".toList] ∧ split line = ["ab c".toList] := by
  intro line pieces
  refine ⟨List.forall_mem_iff_getElem.mpr (by decide), ?_, by decide, by decide⟩
  apply Cut.cons (.delimiter 0 (by decide))
  apply Cut.cons (.plain (by decide) (by decide) (Or.inl rfl))
  apply Cut.cons (.doubled 0 _)
  apply Cut.cons (.plain (by decide) (by decide) (Or.inl rfl))
  apply Cut.cons (.plain (by decide) (by decide) (Or.inl rfl))
  apply Cut.cons (.plain (by decide) (by decide) (Or.inl rfl))
  apply Cut.cons (.delimiter 0 (by decide))
  exact .nil

end CompileFail.CommandLine
