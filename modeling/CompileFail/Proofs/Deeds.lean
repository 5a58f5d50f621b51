import CompileFail.Proofs.Acts

/-! What an act comes to, its log aside: the result, the tree that it leaves, and its deeds, which are the
events but those of the log. An act of several parts comes to what the parts come to one after another, and
the parts behind one that fails come to nothing. -/

namespace CompileFail

/-- Whether the event is more than an entry of the log. -/
def Event.isDeed : Event → Bool
  | .logged _ => false
  | _ => true

/-- What was done in the session so far, the log aside. -/
def Session.deeds (s : Session) : List Event := s.events.filter Event.isDeed

@[simp] theorem Session.deeds_addAll (s : Session) (events : List Event) :
    (s.addAll events).deeds = s.deeds ++ events.filter Event.isDeed := List.filter_append ..

@[simp] theorem Session.deeds_withTree (s : Session) (tree : FileTree) : (s.withTree tree).deeds = s.deeds := rfl

namespace Act

variable {α β : Type} {act : Act α} {next : α → Act β} {tree after final : FileTree} {a : α} {fault : Fault}
  {result : Except Fault β} {deeds more : List Event}

/-- What the act comes to in any session with the given tree. -/
structure Does (act : Act α) (tree : FileTree) (result : Except Fault α) (after : FileTree) (deeds : List Event) :
    Prop where
  run : ∀ s : Session, s.tree = tree → ∃ events,
    act s = (result, (s.addAll events).withTree after) ∧ events.filter Event.isDeed = deeds

theorem Does.result_eq {result : Except Fault α} (h : act.Does tree result after deeds) {s : Session}
    (hs : s.tree = tree) : (act s).1 = result := by
  obtain ⟨events, hact, -⟩ := h.run s hs
  rw [hact]

theorem Does.tree_eq {result : Except Fault α} (h : act.Does tree result after deeds) {s : Session}
    (hs : s.tree = tree) : (act s).2.tree = after := by
  obtain ⟨events, hact, -⟩ := h.run s hs
  rw [hact]
  rfl

theorem Does.deeds_eq {result : Except Fault α} (h : act.Does tree result after deeds) {s : Session}
    (hs : s.tree = tree) : (act s).2.deeds = s.deeds ++ deeds := by
  obtain ⟨events, hact, rfl⟩ := h.run s hs
  rw [hact]
  simp

theorem Does.bind (h : act.Does tree (.ok a) after deeds) (hnext : (next a).Does after result final more) :
    (act >>= next).Does tree result final (deeds ++ more) := by
  refine ⟨fun s hs => ?_⟩
  obtain ⟨events, hact, rfl⟩ := h.run s hs
  obtain ⟨events', hrest, rfl⟩ := hnext.run ((s.addAll events).withTree after) rfl
  refine ⟨events ++ events', ?_, List.filter_append ..⟩
  rw [bind_apply, hact]
  dsimp only
  rw [hrest]
  simp [Session.addAll, Session.withTree]

theorem Does.bind_error (h : act.Does tree (.error fault) after deeds) :
    (act >>= next).Does tree (.error fault) after deeds := by
  refine ⟨fun s hs => ?_⟩
  obtain ⟨events, hact, hdeeds⟩ := h.run s hs
  exact ⟨events, by rw [bind_apply, hact], hdeeds⟩

theorem Does.unique {result result' : Except Fault α} {after' : FileTree} {deeds' : List Event}
    (h : act.Does tree result after deeds) (h' : act.Does tree result' after' deeds') :
    result = result' ∧ after = after' :=
  ⟨(h.result_eq (s := ⟨tree, []⟩) rfl).symm.trans (h'.result_eq rfl),
    (h.tree_eq (s := ⟨tree, []⟩) rfl).symm.trans (h'.tree_eq rfl)⟩

theorem does_pure (a : α) (tree : FileTree) : (pure a : Act α).Does tree (.ok a) tree [] := by
  refine ⟨?_⟩
  rintro s rfl
  exact ⟨[], by simp [pure_apply], rfl⟩

theorem does_throw (fault : Fault) (tree : FileTree) :
    (throw fault : Act α).Does tree (.error fault) tree [] := by
  refine ⟨?_⟩
  rintro s rfl
  exact ⟨[], by rw [Session.addAll_nil]; rfl, rfl⟩

theorem does_log (level : Log.Level) (source : Log.Source) (message : Text) (tree : FileTree) :
    (log level source message).Does tree (.ok ()) tree [] := by
  refine ⟨?_⟩
  rintro s rfl
  exact ⟨_, log_apply level source message s, rfl⟩

theorem does_emit {event : Event} (h : event.isDeed = true) (tree : FileTree) :
    (emit event).Does tree (.ok ()) tree [event] := by
  refine ⟨?_⟩
  rintro s rfl
  exact ⟨[event], emit_apply event s, by simp [h]⟩

theorem does_inspect (f : FileTree → α) (tree : FileTree) : (inspect f).Does tree (.ok (f tree)) tree [] := by
  refine ⟨?_⟩
  rintro s rfl
  exact ⟨[], by simp [inspect_apply], rfl⟩

theorem does_inspect? (f : FileTree → Except Fault α) (tree : FileTree) :
    (inspect? f).Does tree (f tree) tree [] := by
  refine ⟨?_⟩
  rintro s rfl
  exact ⟨[], by simp [inspect?_apply], rfl⟩

theorem Does.after_inspect {f : FileTree → α} (h : (next (f tree)).Does tree result after deeds) :
    (inspect f >>= next).Does tree result after deeds :=
  (does_inspect f tree).bind h

theorem Does.after_inspect? {f : FileTree → Except Fault α} (hf : f tree = .ok a)
    (h : (next a).Does tree result after deeds) : (inspect? f >>= next).Does tree result after deeds :=
  (hf ▸ does_inspect? f tree).bind h

theorem does_of_inspect?_error {f : FileTree → Except Fault α} (hf : f tree = .error fault) :
    (inspect? f >>= next).Does tree (.error fault) tree [] :=
  (hf ▸ does_inspect? f tree).bind_error

theorem does_of_change {f : FileTree → Except Fault α × FileTree} {result : Except Fault α}
    (hf : f tree = (result, after)) : (change f).Does tree result after [] := by
  refine ⟨?_⟩
  rintro s rfl
  exact ⟨[], by simp [change_apply, hf], rfl⟩

/-- An entry of the log in front makes no difference. -/
theorem Does.after_log {act : Act α} {result : Except Fault α} (level : Log.Level) (source : Log.Source)
    (message : Text) (h : act.Does tree result after deeds) :
    (log level source message >>= fun _ => act).Does tree result after deeds :=
  (does_log level source message tree).bind h

/-- All that the act comes to has the property. -/
def Ends (act : Act α) (tree : FileTree) (property : Except Fault α → FileTree → List Event → Prop) : Prop :=
  ∃ result after deeds, act.Does tree result after deeds ∧ property result after deeds

section Ends

variable {property : Except Fault β → FileTree → List Event → Prop} {first : Except Fault α}

theorem Does.ends_bind (h : act.Does tree first after deeds)
    (herror : ∀ fault, first = .error fault → property (.error fault) after deeds)
    (hok : ∀ a, first = .ok a →
      (next a).Ends after fun result final more => property result final (deeds ++ more)) :
    (act >>= next).Ends tree property := by
  cases first with
  | error fault => exact ⟨_, _, _, h.bind_error, herror fault rfl⟩
  | ok a =>
      obtain ⟨result, final, more, hnext, hproperty⟩ := hok a rfl
      exact ⟨_, _, _, h.bind hnext, hproperty⟩

end Ends

end Act

end CompileFail
