import CompileFail.Script.Run

/-! What commands of a script leave as it was. A shell of its own has effects on the machine alone, and so have the
stages of a pipeline: variables, functions, arguments, streams and the present directory of the shell around stay as
they were, whatever the commands do and however they end. Control commands keep what the commands inside of them keep. -/

namespace CompileFail.Script.Run

variable {α β : Type} {m : Means} {sh sh' sh'' : Shell} {P : Shell → Prop}

/-- Whatever becomes of it, an action keeps a property of the shell. -/
def Keeps (P : Shell → Prop) (act : Exec α) : Prop := ∀ sh, P sh → P (act sh).2

/-- What follows an action starts from the shell that the action leaves behind, if it comes to its end. -/
theorem bind_keeps {act : Exec α} {next : α → Exec β} (h : P (act sh).2) (hnext : ∀ a, Keeps P (next a)) :
    P ((act >>= next) sh).2 := by
  have hbind : (act >>= next) sh = ExceptT.bindCont next (act sh).1 (act sh).2 := rfl
  rw [hbind]
  cases (act sh).1 with
  | ok a => exact hnext a _ h
  | error flow => exact h

theorem Keeps.bind {act : Exec α} {next : α → Exec β} (h : Keeps P act) (hnext : ∀ a, Keeps P (next a)) :
    Keeps P (act >>= next) :=
  fun sh hsh => bind_keeps (h sh hsh) hnext

theorem keeps_pure (a : α) : Keeps P (pure a : Exec α) := fun _ h => h

theorem afterwards_snd (body : Exec α) (after : Shell → Shell → Shell) (sh : Shell) :
    (Exec.afterwards body after sh).2 = after sh (body sh).2 := rfl

/-! ### Shells of their own -/

/-- The shell differs in no more than what it shares with what it starts: the machine, seen from the same directory, and
the streams. -/
def Shares (sh sh' : Shell) : Prop :=
  ∃ machine descriptors freshDocument,
    sh' = { sh with machine := machine, descriptors := descriptors, freshDocument := freshDocument } ∧
      machine.tree.workDir = sh.machine.tree.workDir

theorem Shares.trans (h : Shares sh sh') (h' : Shares sh' sh'') : Shares sh sh'' := by
  obtain ⟨machine, descriptors, fresh, rfl, hdir⟩ := h
  obtain ⟨machine', descriptors', fresh', rfl, hdir'⟩ := h'
  exact ⟨machine', descriptors', fresh', rfl, hdir'.trans hdir⟩

/-- A shell of its own gives back the streams too. -/
theorem inSubshell_shares (m : Means) (body : Exec Nat) (sh : Shell) :
    Shares sh (Source.inSubshell m body sh).2 ∧ (Source.inSubshell m body sh).2.descriptors = sh.descriptors := by
  rw [Source.inSubshell]
  dsimp only
  split
  split
  split <;> exact ⟨⟨_, _, _, rfl, rfl⟩, rfl⟩

/-- The stages of a pipeline. The induction is on their list; the streams are put in place for each stage. -/
theorem stages_shares (m : Means) (commands : List Command) (sh : Shell) : Shares sh (stages m commands sh).2 := by
  induction commands generalizing sh with
  | nil => exact ⟨sh.machine, sh.descriptors, sh.freshDocument, rfl, rfl⟩
  | cons stage rest ih =>
      cases rest with
      | nil => exact bind_keeps (inSubshell_shares m (m.run stage) sh).1 fun _ _ h => h
      | cons next rest =>
          rw [stages]
          · have hstart : Shares sh { sh with
                machine := (sh.machine.addPipe []).2
                descriptors := sh.descriptors.set 1 (sh.machine.addPipe []).1 } := ⟨_, _, _, rfl, rfl⟩
            refine hstart.trans ?_
            change Shares _ ((Source.inSubshell m (m.run stage) >>= fun status => _) _).2
            refine bind_keeps (inSubshell_shares m (m.run stage) _).1 fun status sh' h => h.trans ?_
            have hnext : Shares sh' { sh' with descriptors := sh.descriptors.set 0 (sh.machine.addPipe []).1 } :=
              ⟨_, _, _, rfl, rfl⟩
            refine hnext.trans ?_
            change Shares _ ((stages m (next :: rest) >>= fun statuses => _) _).2
            exact bind_keeps (ih _) fun _ _ h => h
          · nofun

/-- The shell goes on as it was: only the machine is another one, which is seen from the same directory, and the line,
the statuses of the last pipeline and the count of texts may be. -/
def GoesOn (sh sh' : Shell) : Prop :=
  ∃ machine freshDocument stages line,
    sh' = { sh with machine := machine, freshDocument := freshDocument, stages := stages, line := line } ∧
      machine.tree.workDir = sh.machine.tree.workDir

/-- Behind a shell of its own the shell goes on as it was. -/
theorem perform_subshell_goesOn (m : Means) (line : Nat) (body : Command) (sh : Shell) :
    GoesOn sh (perform m (.subshell line body) sh).2 := by
  obtain ⟨⟨machine, descriptors, fresh, heq, hdir⟩, hdescriptors⟩ :=
    inSubshell_shares m (m.run body) { sh with line := line }
  rw [heq] at hdescriptors
  obtain rfl : descriptors = sh.descriptors := hdescriptors
  rw [perform]
  change GoesOn sh ((Source.inSubshell m (m.run body) >>= fun status => _) { sh with line := line }).2
  refine bind_keeps ?_ fun _ _ h => h
  rw [heq]
  exact ⟨machine, fresh, sh.stages, line, rfl, hdir⟩

/-- Behind a pipeline the shell goes on as it was. -/
theorem perform_pipeline_goesOn (m : Means) (commands : List Command) (sh : Shell) :
    GoesOn sh (perform m (.pipeline commands) sh).2 := by
  obtain ⟨machine, descriptors, fresh, heq, hdir⟩ := stages_shares m commands sh
  have hstages : GoesOn sh (Exec.withDescriptors (stages m commands) sh).2 := by
    refine ⟨machine, fresh, sh.stages, sh.line, ?_, hdir⟩
    rw [Exec.withDescriptors, afterwards_snd, heq]
  rw [perform, pipeline]
  refine bind_keeps hstages fun statuses sh' h => ?_
  obtain ⟨machine', fresh', stages', line', rfl, hdir'⟩ := h
  change GoesOn sh ((if _ then pure _ else pure _ : Exec Nat) _).2
  split <;> exact ⟨machine', fresh', statuses, line', rfl, hdir'⟩

/-! ### Control commands -/

/-- Repeating keeps what the condition and the body keep. The induction is on the rounds. -/
theorem repeating_keeps {condition body : Exec (Nat × Bool)} (hcondition : Keeps P condition) (hbody : Keeps P body)
    (sense : Bool) (rounds last : Nat) : Keeps P (repeating condition sense body rounds last) := by
  induction rounds generalizing last with
  | zero => exact fun _ h => h
  | succ rounds ih =>
      rw [repeating]
      refine hcondition.bind fun found => ?_
      obtain ⟨status, goesOn⟩ := found
      dsimp only
      split
      · exact keeps_pure 0
      · split
        · exact keeps_pure last
        · refine hbody.bind fun found => ?_
          obtain ⟨status, goesOn⟩ := found
          dsimp only
          split
          · exact ih _
          · exact keeps_pure _

theorem round_keeps {body : Exec Nat} (hbody : Keeps P body) : Keeps P (round body) := by
  intro sh h
  have hafter := hbody sh h
  obtain ⟨result, sh', hresult⟩ : ∃ result sh', body sh = (result, sh') := ⟨_, _, rfl⟩
  rw [hresult] at hafter
  rw [round, hresult]
  dsimp only
  split <;> exact hafter

/-- Commands that say which of the commands inside of them are run and how often, and nothing else. -/
inductive IsControl : Command → Prop
  | sequence (commands : List Command) : IsControl (.sequence commands)
  | negation (command : Command) : IsControl (.negation command)
  | both (first second : Command) : IsControl (.both first second)
  | either (first second : Command) : IsControl (.either first second)
  | branch (condition body otherwise : Command) : IsControl (.branch condition body otherwise)
  | repetition (sense : Bool) (condition body : Command) : IsControl (.repetition sense condition body)

/-- Control commands keep what the commands inside of them keep, if it does not depend on whether a status is looked at
and how many loops there are. -/
theorem perform_keeps {command : Command} (hcontrol : IsControl command) (hrun : ∀ command, Keeps P (m.run command))
    (hflags : ∀ sh tested loops, P sh → P { sh with tested := tested, loops := loops }) :
    Keeps P (perform m command) := by
  have htesting : ∀ command, Keeps P (Exec.testing (m.run command)) := by
    intro command sh h
    rw [Exec.testing, afterwards_snd]
    exact hflags _ _ _ (hrun command _ (hflags sh true sh.loops h))
  cases hcontrol with
  | sequence commands =>
      have hall : ∀ (last : Nat), Keeps P (commands.foldlM (fun _ command => m.run command) last) := by
        induction commands with
        | nil => exact fun last => keeps_pure last
        | cons command commands ih => exact fun last => (hrun command).bind ih
      exact hall 0
  | negation command => exact (htesting command).bind fun _ => keeps_pure _
  | both first second =>
      refine (htesting first).bind fun status => ?_
      split
      · exact hrun second
      · exact keeps_pure status
  | either first second =>
      refine (htesting first).bind fun status => ?_
      split
      · exact keeps_pure 0
      · exact hrun second
  | branch condition body otherwise =>
      refine (htesting condition).bind fun status => ?_
      split
      · exact hrun body
      · exact hrun otherwise
  | repetition sense condition body =>
      intro sh h
      rw [perform, inLoop, afterwards_snd]
      have hrounds := repeating_keeps (round_keeps (htesting condition)) (round_keeps (hrun body)) sense roundLimit 0
      exact hflags _ _ _ (hrounds _ (hflags sh sh.tested (sh.loops + 1) h))

end CompileFail.Script.Run
