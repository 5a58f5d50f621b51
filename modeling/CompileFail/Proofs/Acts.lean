import CompileFail.Session
import Mathlib.Data.List.Basic

/-! What acts do to a session. A look-up leaves it alone, an event goes to its end, and a change of files
shows in the tree alone; an act made of two runs the second one in the session that the first one left,
unless the first one failed. -/

namespace CompileFail

namespace Session

variable {s : Session}

/-- The session with further events. -/
def addAll (s : Session) (events : List Event) : Session := { s with events := s.events ++ events }

@[simp] theorem tree_addAll (events : List Event) : (s.addAll events).tree = s.tree := rfl

@[simp] theorem events_addAll (events : List Event) : (s.addAll events).events = s.events ++ events := rfl

@[simp] theorem addAll_nil : s.addAll [] = s := by
  simp [addAll]

@[simp] theorem addAll_addAll (events events' : List Event) :
    (s.addAll events).addAll events' = s.addAll (events ++ events') := by
  simp [addAll]

/-- The session with another tree. -/
def withTree (s : Session) (tree : FileTree) : Session := { s with tree := tree }

@[simp] theorem tree_withTree (tree : FileTree) : (s.withTree tree).tree = tree := rfl

@[simp] theorem events_withTree (tree : FileTree) : (s.withTree tree).events = s.events := rfl

@[simp] theorem withTree_self : s.withTree s.tree = s := rfl

@[simp] theorem withTree_withTree (tree tree' : FileTree) :
    (s.withTree tree).withTree tree' = s.withTree tree' := rfl

@[simp] theorem withTree_addAll (events : List Event) (tree : FileTree) :
    (s.addAll events).withTree tree = (s.withTree tree).addAll events := rfl

end Session

/-- The steps of the report among some events. -/
def Event.steps (events : List Event) : List Report.Step :=
  events.filterMap fun
    | .reported step => some step
    | _ => none

theorem Event.steps_map_logged (entries : List Log.Entry) : steps (entries.map .logged) = [] := by
  induction entries with
  | nil => rfl
  | cons entry entries ih => exact ih

theorem Event.steps_compiled (file : Path) (content : Option Text) (events : List Event) :
    Event.steps (.compiled file content :: events) = Event.steps events := rfl

/-- The compilations among some events, each with the path and the text of what was compiled. -/
def Event.compilations (events : List Event) : List (Path × Option Text) :=
  events.filterMap fun
    | .compiled file content => some (file, content)
    | _ => none

theorem Event.compilations_append (before after : List Event) :
    Event.compilations (before ++ after) = Event.compilations before ++ Event.compilations after :=
  List.filterMap_append

theorem Event.compilations_map_logged (entries : List Log.Entry) : compilations (entries.map .logged) = [] := by
  induction entries with
  | nil => rfl
  | cons entry entries ih => exact ih

theorem Session.steps_addAll (s : Session) (events : List Event) :
    (s.addAll events).steps = s.steps ++ Event.steps events := List.filterMap_append

namespace Act

variable {α β : Type} {s : Session}

theorem bind_apply (act : Act α) (next : α → Act β) (s : Session) :
    (act >>= next) s = match act s with
      | (.ok a, s) => next a s
      | (.error fault, s) => (.error fault, s) := by
  simp only [bind, ExceptT.bind, ExceptT.mk, StateT.bind]
  rcases act s with ⟨fault | a, s'⟩ <;> rfl

theorem pure_apply (a : α) (s : Session) : (pure a : Act α) s = (.ok a, s) := rfl

theorem emit_apply (event : Event) (s : Session) : emit event s = (.ok (), s.addAll [event]) := rfl

theorem log_apply (level : Log.Level) (source : Log.Source) (message : Text) (s : Session) :
    log level source message s = (.ok (), s.addAll [.logged ⟨level, source, message⟩]) := rfl

theorem inspect_apply (f : FileTree → α) (s : Session) : inspect f s = (.ok (f s.tree), s) := rfl

theorem inspect?_apply (f : FileTree → Except Fault α) (s : Session) : inspect? f s = (f s.tree, s) := by
  have hlift : ∀ result : Except Fault α, inspect?.liftExcept result s = (result, s) := by
    rintro (fault | a) <;> rfl
  exact hlift (f s.tree)

theorem change_apply (f : FileTree → Except Fault α × FileTree) (s : Session) :
    change f s = ((f s.tree).1, s.withTree (f s.tree).2) := rfl

end Act

end CompileFail
