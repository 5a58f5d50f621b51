import CompileFail.Proofs.RegexExchange
import CompileFail.Utility.Awk.Run
import CompileFail.Utility.Lines

/-! How a record falls apart into fields, and how a table is gone through. Fields between blanks are the pieces that are
not empty, fields between finds are with those finds all of the record, and each key of a table has its turn once. -/

namespace CompileFail.Utility

variable {r : Regex} {s : Octets}

/-! ### Words -/

theorem modifyHead_same (pieces : List Octets) : pieces.modifyHead (fun piece => piece) = pieces := by
  cases pieces <;> rfl

/-- Words that are put together from the front are the pieces between blanks that are not empty. -/
theorem foldl_words (isBlank : Char → Bool) (s current : Octets) (done : List Octets) :
    let last := s.foldl (fun state c =>
      if isBlank c then ([], if state.1.isEmpty then state.2 else state.1.reverse :: state.2)
      else (c :: state.1, state.2)) (current, done)
    (if last.1.isEmpty then last.2 else last.1.reverse :: last.2).reverse =
      done.reverse ++ ((s.splitOnP isBlank).modifyHead (current.reverse ++ ·)).filter (!·.isEmpty) := by
  induction s generalizing current done with
  | nil => cases current <;> simp
  | cons c s ih =>
      rw [List.foldl_cons, List.splitOnP_cons_eq_if_modifyHead]
      split
      · have hrest := ih [] (if current.isEmpty then done else current.reverse :: done)
        refine hrest.trans ?_
        cases current <;> simp [modifyHead_same]
      · have hrest := ih (c :: current) done
        refine hrest.trans ?_
        simp [Function.comp_def]

/-- Words are the pieces between blanks that are not empty. -/
theorem wordsOf_eq (s : Octets) : wordsOf s = (s.splitOnP isSpace).filter (!·.isEmpty) := by
  refine (foldl_words isSpace s [] []).trans ?_
  simp [modifyHead_same]

namespace Awk

theorem blankFields_eq (s : Octets) : blankFields s = (s.splitOnP isSpace).filter (!·.isEmpty) := by
  refine (foldl_words isSpace s [] []).trans ?_
  simp [modifyHead_same]

/-! ### Fields between finds -/

/-- Fields with the gaps between them. -/
def weave : List Octets → List Octets → Octets
  | field :: fields, gap :: gaps => field ++ gap ++ weave fields gaps
  | fields, _ => fields.flatten

/-- Fields with the finds between them are the record. -/
theorem exists_regexFields (r : Regex) (s : Octets) (fuel : Nat) {start pos : Nat} (hle : start ≤ pos) :
    ∃ finds : List Regex.Find, finds.length + 1 = (regexFields r s fuel start pos).length ∧
      (∀ f ∈ finds, f.start < f.finish ∧ ∃ place, r.search s place = some f) ∧
      weave (regexFields r s fuel start pos) (finds.map (·.text s)) = s.drop start := by
  have hwhole : ∀ start, ∃ finds : List Regex.Find, finds.length + 1 = [s.drop start].length ∧
      (∀ f ∈ finds, f.start < f.finish ∧ ∃ place, r.search s place = some f) ∧
      weave [s.drop start] (finds.map (·.text s)) = s.drop start :=
    fun start => ⟨[], rfl, List.forall_mem_nil _, List.append_nil _⟩
  induction fuel generalizing start pos with
  | zero => exact hwhole start
  | succ fuel ih =>
      cases hfound : r.search s pos with
      | none =>
          rw [regexFields, hfound]
          exact hwhole start
      | some f =>
          obtain ⟨hstart, hfinish⟩ := Regex.le_of_findFrom hfound
          rw [regexFields, hfound]
          dsimp only
          split
          · split
            · exact ih (by omega)
            · exact hwhole start
          · next hne =>
            obtain ⟨finds, hlength, hfinds, hweave⟩ := ih (Nat.le_refl f.finish)
            refine ⟨f :: finds, congrArg (· + 1) hlength, ?_, ?_⟩
            · exact List.forall_mem_cons.mpr ⟨⟨by omega, pos, hfound⟩, hfinds⟩
            · rw [List.map_cons, weave, hweave]
              exact Regex.Find.gap_append (Nat.le_trans hle hstart) hfinish s

/-! ### Tables -/

namespace Table

/-- All keys have their turn, each of them once. -/
theorem keys_perm (t : Table) : t.keys.Perm t.cells.keys := by
  rw [keys, ← Std.ExtTreeMap.map_fst_toList_eq_keys]
  refine ((List.mergeSort_perm _ _).map _).trans ?_
  rw [List.map_map]
  exact List.Perm.refl _

theorem mem_keys_iff (t : Table) (key : Octets) : key ∈ t.keys ↔ (t.get? key).isSome = true := by
  rw [t.keys_perm.mem_iff, Std.ExtTreeMap.mem_keys, get?, Option.isSome_map]
  exact Std.ExtTreeMap.mem_iff_isSome_getElem?

theorem nodup_keys (t : Table) : t.keys.Nodup := t.keys_perm.nodup_iff.mpr Std.ExtTreeMap.nodup_keys

end Table

end Awk

end CompileFail.Utility
