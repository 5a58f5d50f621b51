import CompileFail.Proofs.Submission
import Mathlib.Logic.Relation

/-! Runs in which the units of work are done side by side. The files are read in order, and each unit goes
through its own steps in order: it announces the file, writes the copy, has it compiled, removes it and
reports. In between, the other units may take any number of steps. What the pool of threads does is one of
these runs, and so is the run in which one unit is done after the other. -/

namespace CompileFail

namespace Checks

/-! ### The steps of a unit -/

namespace Task

/-- What the next step of a unit may leave of it. -/
inductive LeadsTo : Task → Task → Prop
  | announced (file : Path) (lines : List Text) (index : Nat) :
      LeadsTo (.due (.verify file lines index)) (.announced file lines index)
  | passedOver (file : Path) (lines : List Text) (index : Nat) (result : Except Fault Verdict) :
      LeadsTo (.announced file lines index) (.settled file index result)
  | copied (file : Path) (lines : List Text) (index : Nat) (o : Tag.Occurrence) (content : Text) :
      LeadsTo (.announced file lines index) (.copied file index o content)
  | refused (file : Path) (lines : List Text) (index : Nat) (fault : Fault) :
      LeadsTo (.announced file lines index) (.compiled file index none (.error fault))
  | compiled (file : Path) (index : Nat) (o : Tag.Occurrence) (content : Text) (result : Except Fault Verdict) :
      LeadsTo (.copied file index o content) (.compiled file index (some content) result)
  | settled (file : Path) (index : Nat) (content : Option Text) (result : Except Fault Verdict) :
      LeadsTo (.compiled file index content result) (.settled file index result)

theorem leadsTo_of_step {v : Verifier} {task next : Task} {s s' : Session} (h : task.step v s = (some next, s')) :
    task.LeadsTo next := by
  cases task with
  | due work =>
      cases work with
      | announce file => cases h
      | verify file lines index =>
          cases h
          exact .announced file lines index
  | announced file lines index =>
      simp only [step] at h
      split at h
      · cases h
        exact .passedOver file lines index _
      · split at h
        · cases h
          exact .copied file lines index _ _
        · cases h
          exact .refused file lines index _
  | copied file index o content =>
      cases h
      exact .compiled file index o content _
  | compiled file index content result =>
      cases h
      exact .settled file index content result
  | settled file index result => cases h

/-- The number of steps that a unit may still take. -/
def rank : Task → Nat
  | .due _ => stepsToEnd
  | .announced .. => 4
  | .copied .. => 3
  | .compiled .. => 2
  | .settled .. => 1

theorem rank_le_stepsToEnd (task : Task) : task.rank ≤ stepsToEnd := by
  cases task <;> simp [rank, stepsToEnd]

/-- A step brings a unit nearer to its end. -/
theorem LeadsTo.rank_lt {task next : Task} (h : task.LeadsTo next) : next.rank < task.rank := by
  cases h <;> simp [rank, stepsToEnd]

theorem advance_succ (v : Verifier) (steps : Nat) (task : Task) (s : Session) :
    task.advance v (steps + 1) s =
      match task.step v s with
      | (none, s') => (none, s')
      | (some next, s') => next.advance v steps s' := by
  rw [advance]
  cases hstep : task.step v s with
  | mk next s' =>
      simp only [bind, StateT.bind, hstep]
      cases next <;> rfl

/-- A unit that takes all its steps comes to its end. -/
theorem advance_eq_none (v : Verifier) {steps : Nat} {task : Task} (h : task.rank ≤ steps) (s : Session) :
    (task.advance v steps s).1 = none := by
  induction steps generalizing task s with
  | zero => cases task <;> cases h
  | succ steps ih =>
      rw [advance_succ]
      split
      · rfl
      · next next s' hstep => exact ih (by have := (leadsTo_of_step hstep).rank_lt; omega) s'

end Task

/-! ### The steps of a run -/

/-- The state of a run: the files that are still to be read, the units under way, and the session. -/
structure Progress where
  unread : List Path
  tasks : List Task
  session : Session

/-- One step of a run: the next file is read, or any unit under way takes its next step. -/
inductive Move (v : Verifier) : Progress → Progress → Prop
  | read (file : Path) (unread : List Path) (tasks : List Task) (s : Session) :
      Move v ⟨file :: unread, tasks, s⟩
        ⟨unread, tasks ++ (submit file s).1.map .due, (submit file s).2⟩
  | advance (unread : List Path) (before : List Task) (task : Task) (after : List Task) (s : Session) :
      Move v ⟨unread, before ++ task :: after, s⟩
        ⟨unread, before ++ (task.step v s).1.toList ++ after, (task.step v s).2⟩

/-- The step of a run by choice: reading the next file, or the next step of the unit with a given number. -/
def Progress.next (v : Verifier) (p : Progress) : Option Nat → Option Progress
  | none =>
    match p.unread with
    | [] => none
    | file :: unread =>
      some ⟨unread, p.tasks ++ (submit file p.session).1.map .due, (submit file p.session).2⟩
  | some number =>
    p.tasks[number]?.map fun task =>
      ⟨p.unread, p.tasks.take number ++ (task.step v p.session).1.toList ++ p.tasks.drop (number + 1),
        (task.step v p.session).2⟩

/-- The run that makes the given choices. -/
def Progress.follow (v : Verifier) (p : Progress) (choices : List (Option Nat)) : Option Progress :=
  choices.foldlM (Progress.next v) p

/-- Any number of steps, in any order that the units allow. -/
def Reaches (v : Verifier) : Progress → Progress → Prop := Relation.ReflTransGen (Move v)

/-- The state in which a run starts. -/
def start (files : List Path) (workers : Nat) (s : Session) : Progress :=
  ⟨files, [], s.add (.logged (opening files workers))⟩

/-- All files are read and all units are done. -/
def Progress.Done (p : Progress) : Prop := p.unread = [] ∧ p.tasks = []

section

variable {v : Verifier} {unread : List Path} {tasks : List Task} {s : Session}

/-- A step of the first unit under way. -/
theorem reaches_of_step {task : Task} {next : Option Task} {s' : Session} (h : task.step v s = (next, s')) :
    Reaches v ⟨unread, task :: tasks, s⟩ ⟨unread, next.toList ++ tasks, s'⟩ := by
  have hmove : Move v ⟨unread, task :: tasks, s⟩ _ := .advance unread [] task tasks s
  rw [h] at hmove
  exact Relation.ReflTransGen.single hmove

/-- Two steps of a unit finish it once there is a result. -/
theorem reaches_compiled (file : Path) (index : Nat) (content : Option Text) (result : Except Fault Verdict) :
    Reaches v ⟨unread, .compiled file index content result :: tasks, s⟩
      ⟨unread, tasks, (Verifier.removeCopy (copyPath file index v.toolName) s).add
        (.reported (Verdict.step file index result))⟩ :=
  (reaches_of_step rfl).trans (reaches_of_step rfl)

theorem verifyLine_of_applicable {file : Path} {lines : List Text} {index : Nat} {o : Tag.Occurrence}
    (h : v.applicable? lines index = some o) :
    v.verifyLine file lines index s =
      Verifier.withCopy (copyPath file index v.toolName) (Tag.activate lines index o)
        (compileCopy v file index o.expected) s := by
  unfold Verifier.applicable? at h
  split at h
  · next o' hscan =>
    split_ifs at h with happlies
    obtain rfl := Option.some.inj h
    simp only [Verifier.verifyLine, hscan, if_pos happlies]
    rfl
  · cases h

theorem verifyLine_of_not_applicable {lines : List Text} {index : Nat} (h : v.applicable? lines index = none)
    (file : Path) : ∃ result events, Event.steps events = [] ∧
      ∀ s, v.verifyLine file lines index s = (result, s.addAll events) := by
  unfold Verifier.applicable? at h
  unfold Verifier.verifyLine
  cases hscan : Tag.scan (lines.getD index []) with
  | untagged => exact ⟨.ok .skip, [], rfl, fun s => by rw [Session.addAll_nil]; rfl⟩
  | malformed reason => exact ⟨_, [], rfl, fun s => by rw [Session.addAll_nil]; rfl⟩
  | occurrence o =>
      rw [hscan] at h
      by_cases happlies : o.appliesTo v.configuration = true
      · simp only [happlies, if_true] at h
        cases h
      · simp only [if_neg happlies]
        exact ⟨_, _, rfl, fun s => rfl⟩

/-- The steps of a unit from its announcement on, taken without a break, are its check and the report. -/
theorem reaches_announced (file : Path) (lines : List Text) (index : Nat) :
    Reaches v ⟨unread, .announced file lines index :: tasks, s⟩
      ⟨unread, tasks, (v.verifyLine file lines index s).2.add
        (.reported (Verdict.step file index (v.verifyLine file lines index s).1))⟩ := by
  cases happlicable : v.applicable? lines index with
  | none =>
      have hstep : (Task.announced file lines index).step v s =
          (some (.settled file index (v.verifyLine file lines index s).1),
            (v.verifyLine file lines index s).2) := by
        simp only [Task.step, happlicable]
        rfl
      exact (reaches_of_step hstep).trans (reaches_of_step rfl)
  | some o =>
      rw [verifyLine_of_applicable happlicable, Verifier.withCopy, Act.bind_apply]
      rcases hwrite : Verifier.writeCopy (copyPath file index v.toolName) (Tag.activate lines index o) s with
        ⟨fault | _, s'⟩
      · have hstep : (Task.announced file lines index).step v s =
            (some (.compiled file index none (.error fault)), s') := by
          simp only [Task.step, happlicable, hwrite]
        exact (reaches_of_step hstep).trans (reaches_compiled file index none (.error fault))
      · have hstep : (Task.announced file lines index).step v s =
            (some (.copied file index o (Tag.activate lines index o)), s') := by
          simp only [Task.step, happlicable, hwrite]
        exact (reaches_of_step hstep).trans
          ((reaches_of_step rfl).trans (reaches_compiled file index _ _))

/-- The steps of a unit, taken without a break, are the unit as it is run on its own. -/
theorem reaches_run (work : Work) :
    Reaches v ⟨unread, .due work :: tasks, s⟩ ⟨unread, tasks, (work.run v s).2⟩ := by
  cases work with
  | announce file => exact reaches_of_step rfl
  | verify file lines index => exact (reaches_of_step rfl).trans (reaches_announced file lines index)

theorem reaches_forM (works : List Work) :
    Reaches v ⟨unread, works.map .due, s⟩ ⟨unread, [], (works.forM (Work.run v) s).2⟩ := by
  induction works generalizing s with
  | nil => exact Relation.ReflTransGen.refl
  | cons work works ih => exact (reaches_run work).trans ih

theorem mapM_submit_cons (file : Path) (files : List Path) (s : Session) :
    (file :: files).mapM submit s =
      ((submit file s).1 :: (files.mapM submit (submit file s).2).1,
        (files.mapM submit (submit file s).2).2) := by
  rw [List.mapM_cons]
  rfl

/-- Some files are read, one after the other. -/
theorem reaches_mapM (files : List Path) :
    Reaches v ⟨files ++ unread, tasks, s⟩
      ⟨unread, tasks ++ (files.mapM submit s).1.flatten.map .due, (files.mapM submit s).2⟩ := by
  induction files generalizing tasks s with
  | nil =>
      have hnil : tasks ++ (([].mapM submit : StateM Session _) s).1.flatten.map .due = tasks :=
        List.append_nil tasks
      rw [hnil]
      exact Relation.ReflTransGen.refl
  | cons file files ih =>
      have hread : Reaches v ⟨file :: (files ++ unread), tasks, s⟩ _ :=
        Relation.ReflTransGen.single (.read file (files ++ unread) tasks s)
      refine hread.trans ?_
      rw [mapM_submit_cons, List.flatten_cons, List.map_append, ← List.append_assoc]
      exact ih

theorem reaches_mapM_all (files : List Path) :
    Reaches v ⟨files, tasks, s⟩
      ⟨[], tasks ++ (files.mapM submit s).1.flatten.map .due, (files.mapM submit s).2⟩ := by
  have hread : Reaches v ⟨files ++ [], tasks, s⟩ _ := reaches_mapM files
  rwa [List.append_nil] at hread

theorem reaches_advance (steps : Nat) (before after : List Task) (task : Task) :
    Reaches v ⟨unread, before ++ task :: after, s⟩
      ⟨unread, before ++ (task.advance v steps s).1.toList ++ after, (task.advance v steps s).2⟩ := by
  induction steps generalizing task s with
  | zero =>
      rw [List.append_assoc]
      exact Relation.ReflTransGen.refl
  | succ steps ih =>
      have hmove : Move v ⟨unread, before ++ task :: after, s⟩ _ := .advance unread before task after s
      rw [Task.advance_succ]
      rcases hstep : task.step v s with ⟨_ | next, s'⟩
      · rw [hstep] at hmove
        exact Relation.ReflTransGen.single hmove
      · rw [hstep, Option.toList_some, List.append_assoc] at hmove
        exact (Relation.ReflTransGen.single hmove).trans (ih next)

/-- A unit takes all its steps that are left. -/
theorem reaches_finish (task : Task) :
    Reaches v ⟨unread, task :: tasks, s⟩ ⟨unread, tasks, (task.finish v s).2⟩ := by
  have hadvance : Reaches v ⟨unread, task :: tasks, s⟩ _ := reaches_advance Task.stepsToEnd [] tasks task
  rw [Task.advance_eq_none v task.rank_le_stepsToEnd] at hadvance
  exact hadvance

theorem reaches_forM_finish (tasks : List Task) :
    Reaches v ⟨unread, tasks, s⟩ ⟨unread, [], (tasks.forM (Task.finish v) s).2⟩ := by
  induction tasks generalizing s with
  | nil => exact Relation.ReflTransGen.refl
  | cons task tasks ih => exact (reaches_finish task).trans ih

theorem launch_cons (v : Verifier) (idle : Nat) (work : Work) (works : List Work) (s : Session) :
    launch v (idle + 1) (work :: works) s =
      match (Task.due work).advance v Task.stepsToCopy s with
      | (none, s') => launch v (idle + 1) works s'
      | (some task, s') => (task :: (launch v idle works s').1, (launch v idle works s').2) := by
  rw [launch]
  cases hadvance : (Task.due work).advance v Task.stepsToCopy s with
  | mk next s' =>
      simp only [bind, StateT.bind, hadvance]
      cases next <;> rfl

/-- Some units begin, and none of them is lost. -/
theorem reaches_launch (idle : Nat) (works : List Work) (before : List Task) :
    Reaches v ⟨unread, before ++ works.map .due, s⟩
      ⟨unread, before ++ (launch v idle works s).1, (launch v idle works s).2⟩ := by
  induction works generalizing idle before s with
  | nil => cases idle <;> exact Relation.ReflTransGen.refl
  | cons work works ih =>
      cases idle with
      | zero => exact Relation.ReflTransGen.refl
      | succ idle =>
          have hbegun : Reaches v ⟨unread, before ++ .due work :: works.map .due, s⟩ _ :=
            reaches_advance Task.stepsToCopy before (works.map .due) (.due work)
          rw [launch_cons]
          rcases hadvance : (Task.due work).advance v Task.stepsToCopy s with ⟨_ | task, s'⟩
          · rw [hadvance, Option.toList_none, List.append_nil] at hbegun
            exact hbegun.trans (ih (idle + 1) before)
          · rw [hadvance, Option.toList_some] at hbegun
            have hrest := ih (s := s') idle (before ++ [task])
            rw [List.append_assoc _ [task] (Prod.fst _)] at hrest
            exact hbegun.trans hrest

/-- What the pool of threads does is one of the interleavings. -/
theorem reaches_perform (files : List Path) (workers : Nat) :
    Reaches v (start files workers s) ⟨[], [], (perform v files workers s).2⟩ := by
  have hread :
      Reaches v ⟨files.take readAhead ++ files.drop readAhead, [], s.add (.logged (opening files workers))⟩ _ :=
    reaches_mapM (files.take readAhead)
  rw [List.take_append_drop] at hread
  exact hread.trans ((reaches_launch _ _ []).trans ((reaches_mapM_all _).trans (reaches_forM_finish _)))

end

end Checks

end CompileFail
