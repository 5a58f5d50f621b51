import CompileFail.Machine.Process
import CompileFail.Proofs.OccupiedCopy
import CompileFail.Proofs.StrictText
import Mathlib.Logic.Relation

/-! The streams of a machine. A new stream has a number that no stream has, and what is done with one stream leaves the
others alone. A pipe gives back what was written to it, in the order in which it was written, and what is written to
the end of a file stands there behind what the file held. -/

namespace CompileFail.Machine

open Relation (ReflTransGen)

variable {m m' : Machine} {id other position : Nat} {stream : Stream} {s t rest : Octets} {place : Place}
  {appends : Bool}

/-! ### One stream among others -/

theorem getElem?_setStream : (m.setStream id stream).streams[other]? =
    if other = id then some stream else m.streams[other]? := by
  simp only [setStream, Std.ExtTreeMap.getElem?_insert, Std.compare_eq_iff_eq, @eq_comm _ other]

theorem getElem?_addStream : (m.addStream stream).2.streams[id]? =
    if id = m.fresh then some stream else m.streams[id]? :=
  getElem?_setStream

theorem stream_of_addStream (h : m.addStream stream = (id, m')) :
    m'.streams[id]? = some stream ∧ m'.tree = m.tree := by
  cases h
  exact ⟨getElem?_addStream.trans (if_pos rfl), rfl⟩

theorem streams_setFileAt : (m.setFileAt place s).streams = m.streams := by
  unfold setFileAt
  split <;> rfl

theorem fresh_setFileAt : (m.setFileAt place s).fresh = m.fresh := by
  unfold setFileAt
  split <;> rfl

/-- Writing to a stream leaves the others alone. -/
theorem getElem?_write_of_ne (hne : other ≠ id) : (m.write id s).streams[other]? = m.streams[other]? := by
  unfold write
  split
  · rfl
  · split
    · rw [getElem?_setStream, if_neg hne]
    · rw [getElem?_setStream, if_neg hne, streams_setFileAt]
    · rfl

/-- Reading from a stream leaves the others alone. -/
theorem getElem?_leaveUnread_of_ne (hne : other ≠ id) :
    (m.leaveUnread id rest).streams[other]? = m.streams[other]? := by
  unfold leaveUnread
  split
  · rw [getElem?_setStream, if_neg hne]
  · rw [getElem?_setStream, if_neg hne]
  · rfl

/-! ### The numbers of streams -/

/-- What programs do with a machine. -/
inductive Use : Machine → Machine → Prop
  | add (m : Machine) (stream : Stream) : Use m (m.addStream stream).2
  | drop (m : Machine) (id : Nat) : Use m (m.dropStream id)
  | write (m : Machine) (id : Nat) (s : Octets) : Use m (m.write id s)
  | leave (m : Machine) (id : Nat) (rest : Octets) : Use m (m.leaveUnread id rest)
  | change (m : Machine) (tree : FileTree) : Use m { m with tree := tree }

/-- All streams have numbers below the next one. -/
def Numbered (m : Machine) : Prop := ∀ id, m.fresh ≤ id → m.streams[id]? = none

theorem Numbered.setStream (h : m.Numbered) (hid : m.streams[id]? ≠ none) : (m.setStream id stream).Numbered := by
  intro other hother
  rw [getElem?_setStream, if_neg]
  · exact h other hother
  · rintro rfl
    exact hid (h other hother)

theorem Numbered.use (h : m.Numbered) (huse : Use m m') : m'.Numbered := by
  cases huse with
  | add stream =>
      intro id hid
      rw [getElem?_addStream, if_neg (Nat.ne_of_gt hid)]
      exact h id (Nat.le_of_succ_le hid)
  | drop id =>
      intro other hother
      rw [dropStream, Std.ExtTreeMap.getElem?_erase]
      split
      · rfl
      · exact h other hother
  | write id s =>
      unfold Machine.write
      split
      · exact h
      · split
        · next hstream => exact h.setStream (by rw [hstream]; nofun)
        · next hstream =>
          refine Numbered.setStream (m := m.setFileAt ..) (fun other hother => ?_) ?_
          · rw [fresh_setFileAt] at hother
            rw [streams_setFileAt]
            exact h other hother
          · rw [streams_setFileAt, hstream]
            nofun
        · exact h
  | leave id rest =>
      unfold Machine.leaveUnread
      split
      · next hstream => exact h.setStream (by rw [hstream]; nofun)
      · next hstream => exact h.setStream (by rw [hstream]; nofun)
      · exact h
  | change tree => exact h

/-- Whatever programs do, a new stream takes the place of none. -/
theorem Numbered.uses (h : m.Numbered) (huses : ReflTransGen Use m m') : m'.streams[m'.fresh]? = none := by
  have hnumbered : m'.Numbered := by
    induction huses with
    | refl => exact h
    | tail _ huse ih => exact ih.use huse
  exact hnumbered m'.fresh (Nat.le_refl _)

theorem numbered_start (tree : FileTree) : ({ tree := tree } : Machine).Numbered := fun _ _ =>
  Std.ExtTreeMap.getElem?_empty

/-! ### Pipes -/

/-- A stream is a pipe. -/
def IsPipe (m : Machine) (id : Nat) : Prop := ∃ unread written, m.streams[id]? = some (.pipe unread written)

theorem unread_setStream_pipe {unread : Octets} {written : List Octets} :
    (m.setStream id (.pipe unread written)).unread id = unread ++ written.reverse.flatten := by
  rw [Machine.unread, getElem?_setStream, if_pos rfl]

/-- What is written to a pipe waits behind what waits already. -/
theorem IsPipe.write (h : m.IsPipe id) (s : Octets) :
    (m.write id s).IsPipe id ∧ (m.write id s).unread id = m.unread id ++ s := by
  obtain ⟨unread, written, hstream⟩ := h
  unfold Machine.write
  split
  · next hempty => exact ⟨⟨_, _, hstream⟩, by rw [List.isEmpty_iff.mp hempty, List.append_nil]⟩
  · rw [hstream]
    refine ⟨⟨unread, s :: written, by rw [getElem?_setStream, if_pos rfl]⟩, ?_⟩
    rw [unread_setStream_pipe, Machine.unread, hstream]
    simp

/-- What is left in a pipe is what waits. -/
theorem IsPipe.leave (h : m.IsPipe id) (rest : Octets) :
    (m.leaveUnread id rest).IsPipe id ∧ (m.leaveUnread id rest).unread id = rest := by
  obtain ⟨unread, written, hstream⟩ := h
  unfold Machine.leaveUnread
  rw [hstream]
  exact ⟨⟨rest, [], by rw [getElem?_setStream, if_pos rfl]⟩, by rw [unread_setStream_pipe]; simp⟩

theorem IsPipe.of_eq (h : m.IsPipe id) (heq : m'.streams[id]? = m.streams[id]?) :
    m'.IsPipe id ∧ m'.unread id = m.unread id := by
  obtain ⟨unread, written, hstream⟩ := h
  refine ⟨⟨unread, written, heq.trans hstream⟩, ?_⟩
  rw [Machine.unread, Machine.unread, heq, hstream]

/-- Programs write to streams and take what waits in them, up to a number of bytes. -/
inductive Act where
  | write (id : Nat) (s : Octets)
  | take (id : Nat) (count : Nat)

def perform (m : Machine) : Act → Machine
  | .write id s => m.write id s
  | .take id count => m.leaveUnread id ((m.unread id).drop count)

/-- What is put into a stream. -/
def putInto (id : Nat) : List Act → Octets
  | [] => []
  | .write other s :: acts => if other = id then s ++ putInto id acts else putInto id acts
  | .take .. :: acts => putInto id acts

/-- What is taken from a stream. -/
def takenFrom (id : Nat) (m : Machine) : List Act → Octets
  | [] => []
  | .write other s :: acts => takenFrom id (m.write other s) acts
  | .take other count :: acts =>
    let taken := takenFrom id (m.perform (.take other count)) acts
    if other = id then (m.unread id).take count ++ taken else taken

/-- What is taken from a pipe, and what waits in it then, is what waited in it before and what was put into it since,
in this order. -/
theorem takenFrom_append_unread (h : m.IsPipe id) (acts : List Act) :
    m.takenFrom id acts ++ (acts.foldl perform m).unread id = m.unread id ++ putInto id acts := by
  induction acts generalizing m with
  | nil => exact (List.append_nil _).symm
  | cons act acts ih =>
      rw [List.foldl_cons]
      cases act with
      | write other s =>
          rw [takenFrom, putInto]
          split
          · next heq =>
            subst heq
            obtain ⟨hpipe, hunread⟩ := h.write s
            have hrest := ih (m := m.perform (.write other s)) hpipe
            rw [show (m.perform (.write other s)).unread other = _ from hunread, List.append_assoc] at hrest
            exact hrest
          · next hne =>
            obtain ⟨hpipe, hunread⟩ := h.of_eq (getElem?_write_of_ne (s := s) (Ne.symm hne))
            have hrest := ih (m := m.perform (.write other s)) hpipe
            rw [show (m.perform (.write other s)).unread id = _ from hunread] at hrest
            exact hrest
      | take other count =>
          rw [takenFrom, putInto]
          split
          · next heq =>
            subst heq
            obtain ⟨hpipe, hunread⟩ := h.leave ((m.unread other).drop count)
            have hrest := ih (m := m.perform (.take other count)) hpipe
            rw [show (m.perform (.take other count)).unread other = _ from hunread] at hrest
            rw [List.append_assoc, hrest, ← List.append_assoc, List.take_append_drop]
          · next hne =>
            obtain ⟨hpipe, hunread⟩ := h.of_eq (getElem?_leaveUnread_of_ne (Ne.symm hne))
            have hrest := ih (m := m.perform (.take other count)) hpipe
            rw [show (m.perform (.take other count)).unread id = _ from hunread] at hrest
            exact hrest

/-! ### Files -/

/-- Each character stands for a byte. -/
def AreBytes (s : Octets) : Prop := ∀ c ∈ s, c.toNat < 256

theorem areBytes_ofBytes (bytes : Bytes) : AreBytes (Octets.ofBytes bytes) := by
  intro c hc
  obtain ⟨b, -, rfl⟩ := List.mem_map.mp hc
  have hb : b.toNat < 256 := b.toNat_lt
  rwa [toNat_charOfNat (by unfold Nat.isValidChar; omega)]

theorem ofBytes_toBytes (h : AreBytes s) : Octets.ofBytes s.toBytes = s := by
  rw [Octets.ofBytes, Octets.toBytes, List.map_map]
  refine (List.map_congr_left fun c hc => ?_).trans (List.map_id s)
  have hlt := h c hc
  rw [Function.comp_apply, Nat.min_eq_left (by omega), Bytes.toNat_ofNat_of_lt hlt, Char.ofNat_toNat, id]

theorem AreBytes.append (hs : AreBytes s) (ht : AreBytes t) : AreBytes (s ++ t) :=
  List.forall_mem_append.mpr ⟨hs, ht⟩

theorem areBytes_fileAt (m : Machine) (place : Place) : AreBytes (m.fileAt place) := by
  unfold fileAt
  split
  · exact areBytes_ofBytes _
  · exact List.forall_mem_nil _

/-- Bytes that are put into a file are what it holds. -/
theorem fileAt_setFileAt {content : Content} {executable : Bool} {modified : Nat}
    (hfile : m.tree.entry? place = some (.file content executable modified)) (hs : AreBytes s) :
    (m.setFileAt place s).tree.entry? place = some (.file (.ofBytes s.toBytes) executable m.tree.clock) ∧
      (m.setFileAt place s).fileAt place = s := by
  have hne : place ≠ [] := FileTree.ne_nil_of_entry?_ne_dir (by rw [hfile]; nofun)
  have hentry : (m.setFileAt place s).tree.entry? place =
      some (.file (.ofBytes s.toBytes) executable m.tree.clock) := by
    unfold setFileAt
    rw [hfile]
    exact FileTree.entry?_insert_self hne
  refine ⟨hentry, ?_⟩
  rw [fileAt, hentry]
  exact (congrArg Octets.ofBytes (Content.toBytes_ofBytes _)).trans (ofBytes_toBytes hs)

/-- What is written at the end stands behind the rest. -/
theorem splice_length (old new : Octets) : splice old old.length new = old ++ new := by
  simp [splice]

/-- A stream writes to a file at its end. -/
structure AtEnd (m : Machine) (id : Nat) (place : Place) : Prop where
  stream : ∃ position appends, m.streams[id]? = some (.file place position appends) ∧
    (appends = false → position = (m.fileAt place).length)
  file : ∃ content executable modified, m.tree.entry? place = some (.file content executable modified)

/-- What is written to a stream at the end of a file goes there, and the stream stays at the end. -/
theorem AtEnd.write (h : m.AtEnd id place) (hs : AreBytes s) :
    (m.write id s).AtEnd id place ∧ (m.write id s).fileAt place = m.fileAt place ++ s := by
  by_cases hempty : s = []
  · rw [hempty, List.append_nil]
    exact ⟨h, rfl⟩
  obtain ⟨⟨position, appends, hstream, hposition⟩, content, executable, modified, hfile⟩ := h
  have hwhere : (if appends then (m.fileAt place).length else position) = (m.fileAt place).length := by
    cases appends with
    | true => rfl
    | false => exact hposition rfl
  have hwrite : m.write id s = (m.setFileAt place (m.fileAt place ++ s)).setStream id
      (.file place ((m.fileAt place).length + s.length) appends) := by
    rw [Machine.write, if_neg (by simpa using hempty), hstream]
    simp only [hwhere, splice_length]
  obtain ⟨hentry, hheld⟩ := fileAt_setFileAt hfile ((areBytes_fileAt m place).append hs)
  rw [hwrite]
  refine ⟨⟨⟨_, appends, by rw [getElem?_setStream, if_pos rfl], fun _ => ?_⟩, _, _, _, hentry⟩, hheld⟩
  rw [← List.length_append]
  exact congrArg List.length hheld.symm

/-- What is written to a file piece by piece from its end on stands behind what it held. -/
theorem AtEnd.writes (h : m.AtEnd id place) {pieces : List Octets} (hpieces : ∀ piece ∈ pieces, AreBytes piece) :
    (pieces.foldl (fun m piece => m.write id piece) m).fileAt place = m.fileAt place ++ pieces.flatten := by
  induction pieces generalizing m with
  | nil => exact (List.append_nil _).symm
  | cons piece pieces ih =>
      obtain ⟨hpiece, hpieces⟩ := List.forall_mem_cons.mp hpieces
      obtain ⟨hend, hfile⟩ := h.write hpiece
      rw [List.foldl_cons, ih hend hpieces, hfile, List.append_assoc, List.flatten_cons]

variable {p : Path} {opening : Opening}

/-- A file that is opened for more than reading is the one that was stored at the path. -/
theorem find_of_openFile (h : m.openFile p opening = .ok (id, m')) (hopening : opening ≠ .reading)
    (hstream : m'.streams[id]? = some (.file place position appends)) :
    (∃ content executable modified, m'.tree.find p true = .ok (place, .file content executable modified)) ∧
      position = 0 ∧ appends = (opening == .appending) ∧
      (opening = .writing → m.tree.write p [] = .ok m'.tree) := by
  rw [openFile, if_neg hopening] at h
  obtain ⟨tree, hstore, h⟩ := FileTree.bind_eq_ok h
  obtain ⟨⟨found, entry⟩, hfind, h⟩ := FileTree.bind_eq_ok h
  have hwrite : opening = .writing → m.tree.write p [] = .ok tree := by
    rintro rfl
    exact hstore
  split at h
  · next heq =>
    obtain ⟨rfl, rfl⟩ := Prod.mk.inj heq
    obtain ⟨hadded, htree⟩ := stream_of_addStream (Except.ok.inj h)
    cases hadded.symm.trans hstream
    rw [htree]
    exact ⟨⟨_, _, _, hfind⟩, rfl, rfl, hwrite⟩
  · obtain ⟨hadded, -⟩ := stream_of_addStream (Except.ok.inj h)
    cases hadded.symm.trans hstream

/-- A file that is opened to be written to its end is written there. -/
theorem atEnd_of_appending (h : m.openFile p .appending = .ok (id, m'))
    (hstream : m'.streams[id]? = some (.file place position appends)) : m'.AtEnd id place := by
  obtain ⟨⟨content, executable, modified, hfind⟩, -, rfl, -⟩ := find_of_openFile h (by nofun) hstream
  exact ⟨⟨position, _, hstream, nofun⟩, content, executable, modified, (FileTree.find_eq_ok_iff.mp hfind).2⟩

/-- A file that is opened to be written is empty and is written from its start. -/
theorem atEnd_of_writing (h : m.openFile p .writing = .ok (id, m'))
    (hstream : m'.streams[id]? = some (.file place position appends)) :
    m'.AtEnd id place ∧ m'.fileAt place = [] := by
  obtain ⟨⟨content, executable, modified, hfind⟩, rfl, rfl, hwrite⟩ := find_of_openFile h (by nofun) hstream
  obtain ⟨hlocate, hentry⟩ := FileTree.find_eq_ok_iff.mp hfind
  have hempty : m'.fileAt place = [] := by
    obtain ⟨target, htarget, hdir, ⟨hdevice, heq⟩ | ⟨-, _, heq⟩⟩ := FileTree.write_eq_ok (hwrite rfl)
    · -- A device would have been found again.
      rw [heq] at hlocate hentry
      cases (FileTree.locateFor_target_of_creation htarget).symm.trans hlocate
      cases hdevice.symm.trans hentry
    · have hne := FileTree.ne_nil_of_entry?_ne_dir hdir
      obtain rfl : place = target := by
        rw [heq] at hlocate
        rcases FileTree.locateFor_insert_file hne hlocate with rfl | hbefore
        · rfl
        · exact Except.ok.inj (hbefore.symm.trans (FileTree.locateFor_target_of_creation htarget))
      rw [fileAt, heq, FileTree.entry?_insert_self hne]
      rfl
  exact ⟨⟨⟨0, _, hstream, fun _ => by rw [hempty]; rfl⟩, content, executable, modified, hentry⟩, hempty⟩

end CompileFail.Machine
