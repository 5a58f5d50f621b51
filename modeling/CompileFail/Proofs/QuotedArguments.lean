import CompileFail.CommandLine
import Mathlib.Data.List.Basic

/-! Arguments and the command lines that they are written on. Between quotes an argument can hold anything,
since each quote in it gets a backslash, and the backslashes in front of a quote are written twice; an argument
without blanks and quotes can also stand as it is. However the arguments of a list are written and whatever
blanks stand around them, splitting the line gives the list again. -/

namespace CompileFail.CommandLine

/-! ### Written arguments -/

/-- Backslashes in front of this text stand before a quote or at the end. -/
def MeetsQuote (s : Text) : Prop := ∀ c ∈ (s.dropWhile (· == '\\')).head?, c = '"'

instance (s : Text) : Decidable (MeetsQuote s) :=
  Option.decidableForallMem (s.dropWhile (· == '\\')).head?

/-- What stands between the quotes of an argument. -/
def escape : Text → Text
  | [] => []
  | c :: s =>
    if c = '"' then '\\' :: '"' :: escape s
    else if c = '\\' ∧ MeetsQuote s then '\\' :: '\\' :: escape s
    else c :: escape s

/-- An argument between quotes. -/
def quote (arg : Text) : Text := '"' :: (escape arg ++ ['"'])

/-- The forms in which an argument can be written. -/
inductive Form (arg : Text) : Text → Prop
  | quoted : Form arg (quote arg)
  | bare (hne : arg ≠ []) (hplain : ∀ c ∈ arg, isBlank c = false ∧ c ≠ '"') : Form arg arg

/-- A text in which some arguments are written one after the other, each with blanks behind it; only behind
the last one there may be none. -/
inductive Written : List Text → Text → Prop
  | nil : Written [] []
  | cons {arg form gap rest : Text} {args : List Text} (hform : Form arg form)
      (hgap : ∀ c ∈ gap, isBlank c = true) (hapart : args ≠ [] → gap ≠ []) (hrest : Written args rest) :
      Written (arg :: args) (form ++ gap ++ rest)

/-! ### Reading a character -/

namespace Reader

variable {args : List Text} {current : Option Text} {arg s : Text} {quoted : Bool} {n : Nat} {c : Char}

theorem step_backslash :
    step ⟨args, current, quoted, n⟩ '\\' = ⟨args, some (current.getD []), quoted, n + 1⟩ := rfl

/-- Behind pairs of backslashes a quote opens or closes. -/
theorem step_quote_even :
    step ⟨args, current, quoted, 2 * n⟩ '"' =
      ⟨args, some (current.getD [] ++ List.replicate n '\\'), !quoted, 0⟩ := by
  have heven : 2 * n % 2 = 0 := by omega
  have hhalf : 2 * n / 2 = n := by omega
  simp [step, heven, hhalf]

/-- Behind pairs of backslashes and one more a quote is a character of the argument. -/
theorem step_quote_odd :
    step ⟨args, current, quoted, 2 * n + 1⟩ '"' =
      ⟨args, some (current.getD [] ++ List.replicate n '\\' ++ ['"']), quoted, 0⟩ := by
  have hodd : (2 * n + 1) % 2 = 1 := by omega
  have hhalf : (2 * n + 1) / 2 = n := by omega
  simp [step, hodd, hhalf]

theorem step_kept (hslash : c ≠ '\\') (hquote : c ≠ '"') (hkept : quoted = true ∨ isBlank c = false) :
    step ⟨args, current, quoted, n⟩ c =
      ⟨args, some (current.getD [] ++ List.replicate n '\\' ++ [c]), quoted, 0⟩ := by
  have hinside : ¬(isBlank c && !quoted) = true := by
    rcases hkept with h | h <;> simp [h]
  simp only [step, if_neg hslash, if_neg hquote, if_neg hinside, flushed]

theorem ne_of_isBlank (hc : isBlank c = true) : c ≠ '\\' ∧ c ≠ '"' := by
  constructor
  · rintro rfl
    exact absurd hc (by decide)
  · rintro rfl
    exact absurd hc (by decide)

theorem step_blank_none (hc : isBlank c = true) :
    step ⟨args, none, false, n⟩ c = ⟨args, none, false, n⟩ := by
  obtain ⟨hslash, hquote⟩ := ne_of_isBlank hc
  simp [step, hslash, hquote, hc]

/-- Outside quotes a blank ends the argument. -/
theorem step_blank_some (hc : isBlank c = true) :
    step ⟨args, some arg, false, n⟩ c = ⟨args ++ [arg ++ List.replicate n '\\'], none, false, 0⟩ := by
  obtain ⟨hslash, hquote⟩ := ne_of_isBlank hc
  simp [step, hslash, hquote, hc, flushed]

/-! ### Reading an argument -/

/-- A reader that has all of an argument behind it but does not know yet that it ends here. -/
inductive Holds (args : List Text) (arg : Text) : Reader → Prop
  | intro (front : Text) (n : Nat) (h : arg = front ++ List.replicate n '\\') :
      Holds args arg ⟨args, some front, false, n⟩

theorem Holds.finish {r : Reader} (h : Holds args arg r) : r.finish = args ++ [arg] := by
  obtain ⟨front, n, rfl⟩ := h
  rfl

theorem Holds.step_blank {r : Reader} (h : Holds args arg r) (hc : isBlank c = true) :
    r.step c = ⟨args ++ [arg], none, false, 0⟩ := by
  obtain ⟨front, n, rfl⟩ := h
  exact step_blank_some hc

theorem Holds.step_plain {r : Reader} (h : Holds args arg r) (hblank : isBlank c = false)
    (hquote : c ≠ '"') : Holds args (arg ++ [c]) (r.step c) := by
  obtain ⟨front, n, rfl⟩ := h
  by_cases hslash : c = '\\'
  · subst hslash
    rw [step_backslash]
    refine ⟨front, n + 1, ?_⟩
    rw [List.replicate_succ', List.append_assoc]
  · rw [step_kept hslash hquote (Or.inr hblank)]
    exact ⟨_, 0, (List.append_nil _).symm⟩

theorem Holds.foldl_plain {r : Reader} (h : Holds args arg r)
    (hplain : ∀ c ∈ s, isBlank c = false ∧ c ≠ '"') : Holds args (arg ++ s) (s.foldl step r) := by
  induction s generalizing arg r with
  | nil => simpa using h
  | cons c s ih =>
      rw [List.forall_mem_cons] at hplain
      have hnext := ih (h.step_plain hplain.1.1 hplain.1.2) hplain.2
      simpa using hnext

/-- The first character of a bare argument begins it, and the others go on with it. -/
theorem holds_foldl_bare (args : List Text) (hne : arg ≠ []) (hplain : ∀ c ∈ arg, isBlank c = false ∧ c ≠ '"') :
    Holds args arg (arg.foldl step ⟨args, none, false, 0⟩) := by
  have hstart : Holds args [] ⟨args, some [], false, 0⟩ := ⟨[], 0, rfl⟩
  have hread := hstart.foldl_plain hplain
  cases arg with
  | nil => exact absurd rfl hne
  | cons c arg =>
      -- An argument in progress that is still empty reads a character as no argument does.
      have hfirst : step ⟨args, none, false, 0⟩ c = step ⟨args, some [], false, 0⟩ c := by
        obtain ⟨hblank, hquote⟩ := hplain c List.mem_cons_self
        by_cases hslash : c = '\\'
        · rw [hslash, step_backslash, step_backslash]
          rfl
        · rw [step_kept hslash hquote (Or.inr hblank), step_kept hslash hquote (Or.inr hblank)]
          rfl
      rw [List.foldl_cons, hfirst]
      exact hread

theorem meetsQuote_nil : MeetsQuote [] := by simp [MeetsQuote]

theorem meetsQuote_quote (s : Text) : MeetsQuote ('"' :: s) := by simp [MeetsQuote]

theorem meetsQuote_backslash_iff : MeetsQuote ('\\' :: s) ↔ MeetsQuote s := by simp [MeetsQuote]

theorem not_meetsQuote (hslash : c ≠ '\\') (hquote : c ≠ '"') : ¬MeetsQuote (c :: s) := by
  simp [MeetsQuote, hslash, hquote]

/-- Reading what stands between the quotes, up to the closing one, gives the argument. The backslashes read so
far are `n` of the argument's own; they were written twice if the text behind them meets a quote. -/
theorem foldl_escape (args : List Text) (arg s : Text) (n : Nat) :
    (escape s ++ ['"']).foldl step ⟨args, some arg, true, if MeetsQuote s then 2 * n else n⟩ =
      ⟨args, some (arg ++ List.replicate n '\\' ++ s), false, 0⟩ := by
  induction s generalizing arg n with
  | nil =>
      rw [if_pos meetsQuote_nil, escape, List.nil_append, List.foldl_cons, List.foldl_nil, step_quote_even]
      simp
  | cons c s ih =>
      by_cases hquote : c = '"'
      · subst hquote
        rw [if_pos (meetsQuote_quote s), escape, if_pos rfl]
        have hrest := ih (arg ++ List.replicate n '\\' ++ ['"']) 0
        simp only [Nat.mul_zero, ite_self] at hrest
        rw [List.cons_append, List.cons_append, List.foldl_cons, List.foldl_cons, step_backslash,
          step_quote_odd, Option.getD_some, Option.getD_some, hrest]
        simp
      by_cases hslash : c = '\\'
      · subst hslash
        have hrest := ih arg (n + 1)
        have hnext : arg ++ List.replicate (n + 1) '\\' ++ s = arg ++ List.replicate n '\\' ++ '\\' :: s := by
          simp [List.replicate_succ']
        rw [hnext] at hrest
        by_cases hmeets : MeetsQuote s
        · rw [if_pos hmeets] at hrest
          rw [if_pos (meetsQuote_backslash_iff.mpr hmeets), escape, if_neg hquote, if_pos ⟨rfl, hmeets⟩,
            List.cons_append, List.cons_append, List.foldl_cons, List.foldl_cons, step_backslash,
            step_backslash]
          exact hrest
        · rw [if_neg hmeets] at hrest
          rw [if_neg (fun h => hmeets (meetsQuote_backslash_iff.mp h)), escape, if_neg hquote,
            if_neg (fun h => hmeets h.2), List.cons_append, List.foldl_cons, step_backslash]
          exact hrest
      · have hrest := ih (arg ++ List.replicate n '\\' ++ [c]) 0
        simp only [Nat.mul_zero, ite_self] at hrest
        rw [if_neg (not_meetsQuote hslash hquote), escape, if_neg hquote, if_neg (fun h => hslash h.1),
          List.cons_append, List.foldl_cons, step_kept hslash hquote (Or.inl rfl), Option.getD_some, hrest]
        simp

theorem holds_foldl_quote (args : List Text) (arg : Text) :
    Holds args arg ((quote arg).foldl step ⟨args, none, false, 0⟩) := by
  have hopen : step ⟨args, none, false, 0⟩ '"' = ⟨args, some [], true, 0⟩ := step_quote_even (n := 0)
  have hread : (escape arg ++ ['"']).foldl step ⟨args, some [], true, 0⟩ = ⟨args, some arg, false, 0⟩ := by
    simpa using foldl_escape args [] arg 0
  rw [quote, List.foldl_cons, hopen, hread]
  exact ⟨arg, 0, (List.append_nil arg).symm⟩

theorem holds_foldl_form (args : List Text) {form : Text} (h : Form arg form) :
    Holds args arg (form.foldl step ⟨args, none, false, 0⟩) := by
  cases h with
  | quoted => exact holds_foldl_quote args arg
  | bare hne hplain => exact holds_foldl_bare args hne hplain

theorem foldl_blanks (hs : ∀ c ∈ s, isBlank c = true) :
    s.foldl step ⟨args, none, false, 0⟩ = ⟨args, none, false, 0⟩ := by
  induction s with
  | nil => rfl
  | cons c s ih =>
      rw [List.forall_mem_cons] at hs
      rw [List.foldl_cons, step_blank_none hs.1, ih hs.2]

theorem Holds.foldl_blanks {r : Reader} (h : Holds args arg r) (hne : s ≠ [])
    (hs : ∀ c ∈ s, isBlank c = true) : s.foldl step r = ⟨args ++ [arg], none, false, 0⟩ := by
  cases s with
  | nil => exact absurd rfl hne
  | cons c s =>
      rw [List.forall_mem_cons] at hs
      rw [List.foldl_cons, h.step_blank hs.1]
      exact Reader.foldl_blanks hs.2

/-- Reading written arguments adds them to those read before. -/
theorem finish_foldl_written {more : List Text} (h : Written more s) (args : List Text) :
    (s.foldl step ⟨args, none, false, 0⟩).finish = args ++ more := by
  induction h generalizing args with
  | nil => exact (List.append_nil args).symm
  | @cons arg form gap rest more hform hgap hapart hrest ih =>
      have hheld := holds_foldl_form args hform
      rw [List.foldl_append, List.foldl_append]
      by_cases hgapped : gap = []
      · have hlast : more = [] := by
          by_contra hmore
          exact hapart hmore hgapped
        subst hgapped hlast
        cases hrest
        exact hheld.finish
      · rw [hheld.foldl_blanks hgapped hgap, ih, List.append_assoc, List.singleton_append]

end Reader

/-- Splitting a command line gives the arguments that are written on it. -/
theorem split_of_written {args : List Text} {before line : Text} (hbefore : ∀ c ∈ before, isBlank c = true)
    (h : Written args line) : split (before ++ line) = args := by
  rw [split, List.foldl_append, Reader.foldl_blanks hbefore]
  exact Reader.finish_foldl_written h []

/-- Backslashes at the end of a quoted argument, in front of a quote in it, and at the end of a bare one. -/
theorem split_of_written_backslashes :
    let args : List Text := ["a b\\\\", "", "c\\\"d", "/I\\"]
    let line : Text := "\"a b\\\\\\\\\" \"\"\t\"c\\\\\\\"d\"  /I\\"
    (∀ c ∈ ("\u3000 " : Text), isBlank c = true) ∧ Written args line ∧
      split (("\u3000 " : Text) ++ line) = args := by
  intro args line
  have hbefore : ∀ c ∈ ("\u3000 " : Text), isBlank c = true := List.all_eq_true.mp (by decide)
  have hline : line = quote "a b\\\\" ++ [' '] ++ (quote "" ++ ['\t'] ++ (quote "c\\\"d" ++ [' ', ' '] ++
      (("/I\\" : Text) ++ [] ++ []))) := by decide
  have hwritten : Written args line := by
    rw [hline]
    apply Written.cons .quoted (List.all_eq_true.mp (by decide)) (by simp)
    apply Written.cons .quoted (List.all_eq_true.mp (by decide)) (by simp)
    apply Written.cons .quoted (List.all_eq_true.mp (by decide)) (by simp)
    have hplain : ∀ c ∈ ("/I\\" : Text), isBlank c = false ∧ c ≠ '"' :=
      List.forall_mem_iff_getElem.mpr (by decide)
    apply Written.cons (.bare (by decide) hplain) (by simp) (fun h => absurd rfl h)
    exact .nil
  exact ⟨hbefore, hwritten, split_of_written hbefore hwritten⟩

end CompileFail.CommandLine
