import CompileFail.Proofs.LinePrograms
import CompileFail.Proofs.RegexExchange
import CompileFail.Utility.Sed.Run
import Mathlib.Data.List.Forall2

/-! Programs of edits for the stream editor. A command that is for every line and only changes what it says goes on with
the next command and leaves all else as it was. So a program of such commands edits each line for itself, and one
without commands passes the text on as it is. -/

namespace CompileFail.Utility.Sed

variable {p : Program} {c : Command} {f : Octets → Octets} {fs : List (Octets → Octets)} {s : State} {i fuel : Nat}
  {lines : List Line}

/-! ### Edits -/

/-- What a command makes of each line, if it does nothing else. -/
inductive Edits : Command → (Octets → Octets) → Prop
  | exchange (r : Regex) (pieces : List Piece) (first : Nat) (every : Bool) :
    Edits { action := .exchange { regex := some r, pieces := pieces, first := first, every := every } }
      fun line => (r.exchange line (replacement pieces line) first every).1
  | map (table : List (Char × Char)) :
    Edits { action := .map table } (List.map fun c => ((table.find? (·.1 == c)).map (·.2)).getD c)
  | comment : Edits { action := .comment } id

/-- What commands make of a line one after the other. -/
def editAll (fs : List (Octets → Octets)) (line : Octets) : Octets := fs.foldl (fun line f => f line) line

/-- The state after an edit. Only the line is another one, and what was looked for last and whether something was
found may be. -/
def State.Edited (f : Octets → Octets) (s s' : State) : Prop :=
  ∃ regex replaced, s' = { s with space := f s.space, regex := regex, replaced := replaced }

theorem run_edit (hc : p.commands[i]? = some c) (h : Edits c f) (fuel : Nat) :
    ∃ s', s.Edited f s' ∧ s.run p (fuel + 1) i = s'.run p fuel (i + 1) := by
  rw [State.run, hc]
  cases h with
  | exchange r pieces first every =>
      by_cases hchanges : (r.exchange s.space (replacement pieces s.space) first every).2 = 0
      · refine ⟨{ s with regex := some r }, ⟨some r, s.replaced, ?_⟩, ?_⟩
        · dsimp only
          rw [Regex.exchange_of_unchanged hchanges]
        · simp [State.selects, State.carryOut, State.resolve, hchanges]
      · refine ⟨_, ⟨some r, true, rfl⟩, ?_⟩
        simp [State.selects, State.carryOut, State.resolve, hchanges]
  | map table => exact ⟨_, ⟨s.regex, s.replaced, rfl⟩, rfl⟩
  | comment => exact ⟨s, ⟨s.regex, s.replaced, rfl⟩, rfl⟩

/-- The commands from one of them on edit the line up to the end of the program. -/
theorem run_edits (h : List.Forall₂ Edits (p.commands.toList.drop i) fs) (hi : i ≤ p.commands.size) (fuel : Nat) :
    ∃ s', s.Edited (editAll fs) s' ∧ s.run p (fuel + fs.length) i = s'.run p fuel p.commands.size := by
  induction fs generalizing i s with
  | nil =>
      have hend : p.commands.size ≤ i := by simpa using List.drop_eq_nil_iff.mp (List.forall₂_nil_right_iff.mp h)
      obtain rfl := Nat.le_antisymm hi hend
      exact ⟨s, ⟨s.regex, s.replaced, rfl⟩, rfl⟩
  | cons f fs ih =>
      obtain ⟨c, rest, hedits, hrest, hcommands⟩ := List.forall₂_cons_right_iff.mp h
      have hc : p.commands[i]? = some c := by
        rw [← Array.getElem?_toList, ← List.head?_drop, hcommands, List.head?_cons]
      have hlater : p.commands.toList.drop (i + 1) = rest := by rw [← List.tail_drop, hcommands, List.tail_cons]
      obtain ⟨s', ⟨regex, replaced, rfl⟩, hrun⟩ := run_edit (s := s) hc hedits (fuel + fs.length)
      obtain ⟨s'', ⟨regex', replaced', rfl⟩, hrun'⟩ := ih (hlater ▸ hrest) (Array.getElem?_eq_some_iff.mp hc).1
      exact ⟨_, ⟨regex', replaced', rfl⟩, hrun.trans hrun'⟩

/-! ### Lines that are printed -/

/-- Lines with their ends; between two of them there always is one. -/
def shown (ending : Char) : List Line → Octets
  | [] => []
  | [line] => line.text ++ if line.ended then [ending] else []
  | line :: next :: lines => line.text ++ ending :: shown ending (next :: lines)

/-- All that was written. -/
def State.written (s : State) : Octets := s.out.reverse.flatten

theorem written_writeSpace (s : State) : s.writeSpace.written =
    s.written ++ (if s.open_ then [s.ending] else []) ++ s.space ++ if s.ended then [s.ending] else [] := by
  cases hopen : s.open_ <;> cases hended : s.ended <;>
    simp [State.writeSpace, State.writeLine, State.written, hopen, hended]

/-- What printing a line leaves as it was. -/
theorem writeSpace_eq (s : State) : s.writeSpace = { s with out := s.writeSpace.out, open_ := !s.ended } := by
  cases hopen : s.open_ <;> cases hended : s.ended <;> simp [State.writeSpace, State.writeLine, hopen, hended]

theorem finishCycle_eq (hquiet : s.quiet = false) (hqueue : s.queue = []) : s.finishCycle = s.writeSpace := by
  have hnothing : s.writeSpace.queue = [] := by rw [writeSpace_eq, hqueue]
  rw [State.finishCycle, if_neg (hquiet ▸ Bool.false_ne_true), State.writeQueue, hnothing, List.foldl_nil]
  exact congrArg (fun queue => { s.writeSpace with queue := queue }) hnothing.symm

/-- What a cycle leaves behind: the line was edited and printed, and the lines that follow are still to be read. -/
structure State.Printed (fs : List (Octets → Octets)) (s t : State) : Prop where
  written : t.written =
    s.written ++ (if s.open_ then [s.ending] else []) ++ editAll fs s.space ++ if s.ended then [s.ending] else []
  open_ : t.open_ = !s.ended
  ending : t.ending = s.ending
  rest : t.rest = s.rest
  quiet : t.quiet = false
  queue : t.queue = []

theorem run_cycle (h : List.Forall₂ Edits p.commands.toList fs) (hquiet : s.quiet = false) (hqueue : s.queue = [])
    (fuel : Nat) : ∃ t, s.Printed fs t ∧ s.run p (fuel + (fs.length + 1)) 0 = State.run.nextLine p fuel t := by
  obtain ⟨s', hedited, hrun⟩ := run_edits (s := s) (i := 0) (by rwa [List.drop_zero]) (Nat.zero_le _) (fuel + 1)
  rw [Nat.add_right_comm, Nat.add_assoc] at hrun
  refine ⟨s'.writeSpace, ?_, ?_⟩
  · obtain ⟨regex, replaced, rfl⟩ := hedited
    refine ⟨written_writeSpace _, ?_, ?_, ?_, ?_, ?_⟩ <;> rw [writeSpace_eq] <;> assumption
  · have hfinish : s'.finishCycle = s'.writeSpace := by
      obtain ⟨regex, replaced, rfl⟩ := hedited
      exact finishCycle_eq hquiet hqueue
    rw [hrun, State.run, Array.getElem?_size]
    exact congrArg (State.run.nextLine p fuel) hfinish

/-- The line that is being edited. -/
def State.line (s : State) : Line := ⟨s.space, s.ended, s.file⟩

/-- A line after edits. -/
def Line.edited (fs : List (Octets → Octets)) (line : Line) : Line := { line with text := editAll fs line.text }

/-- The program edits and prints the line it is at and all that follow. The induction is on those that follow. -/
theorem written_run (h : List.Forall₂ Edits p.commands.toList fs) (hquiet : s.quiet = false) (hqueue : s.queue = [])
    (hfuel : (s.rest.length + 1) * (fs.length + 1) ≤ fuel) :
    (s.run p fuel 0).written = s.written ++ (if s.open_ then [s.ending] else []) ++
      shown s.ending ((s.line :: s.rest).map (Line.edited fs)) := by
  generalize hrest : s.rest = rest at hfuel
  induction rest generalizing s fuel with
  | nil =>
      obtain ⟨fuel, rfl⟩ := Nat.exists_eq_add_of_le' hfuel
      obtain ⟨t, ht, hrun⟩ := run_cycle h hquiet hqueue fuel
      have hlast : State.run.nextLine p fuel t = t := by
        rw [State.run.nextLine, State.advance, ht.rest, hrest]
      rw [List.length_nil, Nat.zero_add, Nat.one_mul, hrun, hlast, ht.written, List.append_assoc]
      rfl
  | cons next rest ih =>
      rw [List.length_cons, Nat.succ_mul] at hfuel
      obtain ⟨fuel, rfl⟩ := Nat.exists_eq_add_of_le' hfuel
      rw [← Nat.add_assoc]
      obtain ⟨t, ht, hrun⟩ := run_cycle h hquiet hqueue (fuel + (rest.length + 1) * (fs.length + 1))
      rw [hrun, State.run.nextLine, State.advance, ht.rest, hrest]
      dsimp only
      refine Eq.trans (ih ht.quiet ht.queue rfl (Nat.le_add_left _ _)) ?_
      change t.written ++ (if t.open_ = true then [t.ending] else []) ++
        shown t.ending ((next :: rest).map (Line.edited fs)) = _
      rw [ht.written, ht.open_, ht.ending, List.map_cons, List.map_cons, List.map_cons, shown]
      cases hended : s.ended <;> simp [State.line, Line.edited]

/-- A run on lines prints them after the edits, behind what was written before. -/
theorem written_runOn (h : List.Forall₂ Edits p.commands.toList fs) (hquiet : s.quiet = false) (hqueue : s.queue = [])
    (hstopped : s.stopped = false) (hopen : s.open_ = false) (hlimit : lines.length * (fs.length + 1) ≤ stepLimit) :
    (s.runOn p lines).written = s.written ++ shown s.ending (lines.map (Line.edited fs)) := by
  rw [State.runOn, if_neg (hstopped ▸ Bool.false_ne_true), State.advance]
  cases lines with
  | nil => exact (List.append_nil _).symm
  | cons line lines =>
      refine Eq.trans (written_run h hquiet hqueue hlimit) ?_
      change s.written ++ (if s.open_ = true then [s.ending] else []) ++
        shown s.ending ((line :: lines).map (Line.edited fs)) = _
      rw [hopen, if_neg Bool.false_ne_true, List.append_nil]

theorem shown_concat (ending : Char) (lines : List Line) (line : Line) : shown ending (lines ++ [line]) =
    endAll ending (lines.map Line.text) ++ line.text ++ if line.ended then [ending] else [] := by
  induction lines with
  | nil => rfl
  | cons first lines ih =>
      obtain ⟨next, more, hmore⟩ := List.exists_cons_of_ne_nil (List.append_ne_nil_of_right_ne_nil lines
        (List.cons_ne_nil line []))
      rw [List.cons_append, hmore, shown, ← hmore, ih]
      simp [endAll]

theorem shown_of_ended (ending : Char) (h : ∀ line ∈ lines, line.ended = true) :
    shown ending lines = endAll ending (lines.map Line.text) := by
  rcases List.eq_nil_or_concat lines with rfl | ⟨front, last, rfl⟩
  · rfl
  · rw [List.concat_eq_append] at h ⊢
    rw [shown_concat, if_pos (h last List.mem_concat_self)]
    simp [endAll]

/-- The lines of a text are all of it. -/
theorem shown_linesOf (ending : Char) (file text : Octets) : shown ending (linesOf ending file text) = text := by
  have hall := endAll_splitOn ending text
  rcases List.eq_nil_or_concat (Text.splitOn ending text) with hnil | ⟨front, last, hpieces⟩
  · rw [hnil] at hall
    cases text <;> cases hall
  · rw [List.concat_eq_append] at hpieces
    rw [hpieces, endAll, List.flatMap_append, ← endAll] at hall
    have htexts : ∀ n,
        (front.zipIdx.map fun found => Line.mk found.1 (found.2 + 1 < n) file).map Line.text = front := by
      intro n
      rw [List.map_map]
      exact List.zipIdx_map_fst 0 front
    rw [linesOf, hpieces]
    simp only [List.zipIdx_append, List.map_append, List.getLast?_concat]
    split
    · next hlast =>
      obtain rfl := Option.some.inj hlast
      rw [List.zipIdx_singleton, List.map_singleton, List.dropLast_concat, shown_of_ended, htexts]
      · exact List.append_cancel_right hall
      · intro line hline
        obtain ⟨found, hfound, rfl⟩ := List.mem_map.mp hline
        have hlt := List.snd_lt_of_mem_zipIdx hfound
        simpa using hlt
    · rw [List.zipIdx_singleton, List.map_singleton, shown_concat, htexts]
      simp only [Nat.zero_add, List.length_append, List.length_singleton, Nat.lt_irrefl, decide_false]
      refine (List.append_left_inj [ending]).mp ?_
      simpa using hall

/-- A program without commands passes the text on as it is. -/
theorem written_runOn_linesOf (hp : p.commands.size = 0) (hquiet : s.quiet = false) (hqueue : s.queue = [])
    (hstopped : s.stopped = false) (hopen : s.open_ = false) (file text : Octets)
    (hlimit : (linesOf s.ending file text).length ≤ stepLimit) :
    (s.runOn p (linesOf s.ending file text)).written = s.written ++ text := by
  have hcommands : p.commands.toList = [] := by simpa using hp
  have hedits : List.Forall₂ Edits p.commands.toList [] := hcommands ▸ .nil
  have hsame : (linesOf s.ending file text).map (Line.edited []) = linesOf s.ending file text :=
    List.map_id'' (fun _ => rfl) _
  rw [written_runOn hedits hquiet hqueue hstopped hopen (by simpa using hlimit), hsame, shown_linesOf]

end CompileFail.Utility.Sed
