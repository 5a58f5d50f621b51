import CompileFail.Proofs.PathTitles
import Mathlib.Data.List.Nodup

/-! Going up from an absolute path. The parent of a path has one component less, and only the root has no
parent. So the ancestors of a path are told apart by their components, and a directory is an ancestor of
another one only if its components start the other's. -/

namespace CompileFail

theorem Text.length_splitOn_le (sep : Char) (s : Text) : (splitOn sep s).length ≤ s.length + 1 := by
  induction s with
  | nil => exact Nat.le_refl _
  | cons c s ih =>
      rw [splitOn]
      split
      · exact Nat.succ_le_succ ih
      · split
        · exact Nat.succ_le_succ (Nat.zero_le _)
        · next hcons =>
          rw [hcons] at ih
          exact ih.trans (Nat.le_succ _)

namespace Path

variable {p q : Path} {pieces front : List Text} {piece last : Text}

theorem components_eq_pieces (h : p.isAbsolute = true) :
    p.components = .root :: ((Text.splitOn '/' p.text).filter (!isFiller ·)).map .ofPiece := by
  rw [components_of_isAbsolute h, ← filter_hostPieces, hostPieces_of_isAbsolute h]
  rfl

theorem dropEndFillers_concat (pieces : List Text) (last : Text) :
    dropEndFillers (pieces ++ [last]) = if isFiller last then dropEndFillers pieces else pieces ++ [last] := by
  cases hlast : isFiller last <;> simp [dropEndFillers, hlast]

theorem filter_dropEndFillers (pieces : List Text) :
    (dropEndFillers pieces).filter (!isFiller ·) = pieces.filter (!isFiller ·) := by
  induction pieces using List.reverseRecOn with
  | nil => rfl
  | append_singleton pieces last ih =>
      rw [dropEndFillers_concat]
      split
      · next hlast => rw [ih, List.filter_append, List.filter_cons_of_neg (by simp [hlast]), List.filter_nil,
          List.append_nil]
      · rfl

theorem dropEndFillers_subset (pieces : List Text) : dropEndFillers pieces ⊆ pieces := by
  intro piece hpiece
  rw [dropEndFillers, List.mem_reverse] at hpiece
  exact List.mem_reverse.mp (List.dropWhile_subset _ hpiece)

theorem isFiller_of_dropEndFillers (h : dropEndFillers pieces = front ++ [last]) : isFiller last = false := by
  induction pieces using List.reverseRecOn with
  | nil => simp [dropEndFillers] at h
  | append_singleton pieces other ih =>
      rw [dropEndFillers_concat] at h
      split at h
      · exact ih h
      · next hother =>
        obtain ⟨-, rfl⟩ := List.append_inj' h rfl |>.imp_right List.singleton_inj.mp
        exact Bool.eq_false_iff.mpr hother

theorem filter_splitOn_intercalate (hpieces : ∀ piece ∈ pieces, '/' ∉ piece) :
    (Text.splitOn '/' (['/'].intercalate pieces)).filter (!isFiller ·) = pieces.filter (!isFiller ·) := by
  rw [Text.splitOn_eq]
  cases pieces with
  | nil => rfl
  | cons piece rest => rw [List.splitOn_intercalate '/' hpieces (List.cons_ne_nil _ _)]

theorem components_ofParts_root (hpieces : ∀ piece ∈ pieces, '/' ∉ piece) :
    (ofParts .root pieces).components = .root :: (pieces.filter (!isFiller ·)).map .ofPiece := by
  have hsplit : Text.splitOn '/' (ofParts .root pieces).text =
      [] :: Text.splitOn '/' (['/'].intercalate pieces) := rfl
  rw [components_eq_pieces rfl, hsplit, List.filter_cons_of_neg (by decide), filter_splitOn_intercalate hpieces]

theorem parent_of_dropEndFillers (h : dropEndFillers p.parts.2 = front ++ [last]) :
    p.parent = some (ofParts p.parts.1 (dropEndFillers front)) := by
  obtain ⟨piece, rest, hcons⟩ := List.exists_cons_of_ne_nil
    (List.append_ne_nil_of_right_ne_nil front (List.cons_ne_nil last []))
  rw [hcons] at h
  simp only [parent, h]
  rw [← hcons, List.dropLast_concat]

/-- The root has no parent; any other absolute path has one, which lacks the last component. -/
theorem parent_cases (h : p.isAbsolute = true) :
    p.parent = none ∧ p.components = [.root] ∨
      ∃ q last, p.parent = some q ∧ q.isAbsolute = true ∧ p.components = q.components ++ [last] := by
  have hparts := parts_of_isAbsolute h
  have hfilter := filter_dropEndFillers (Text.splitOn '/' p.text).tail
  have hcomponents : p.components =
      .root :: ((dropEndFillers (Text.splitOn '/' p.text).tail).filter (!isFiller ·)).map .ofPiece := by
    rw [hfilter, components, hparts]
    rfl
  have hslash : ∀ piece ∈ dropEndFillers (Text.splitOn '/' p.text).tail, '/' ∉ piece := fun piece hpiece =>
    Text.not_mem_of_mem_splitOn (List.mem_of_mem_tail (dropEndFillers_subset _ hpiece))
  rcases List.eq_nil_or_concat (dropEndFillers (Text.splitOn '/' p.text).tail) with hnil | ⟨front, last, hlast⟩
  · rw [hnil] at hcomponents
    have hnone : p.parent = none := by
      simp only [parent, hparts, hnil]
      rfl
    exact Or.inl ⟨hnone, hcomponents⟩
  · rw [List.concat_eq_append] at hlast
    have hfiller := isFiller_of_dropEndFillers hlast
    refine Or.inr ⟨ofParts .root (dropEndFillers front), .ofPiece last, ?_, rfl, ?_⟩
    · have hdrop : dropEndFillers p.parts.2 = front ++ [last] := by
        rw [hparts]
        exact hlast
      rw [parent_of_dropEndFillers hdrop, hparts]
    · rw [hlast] at hcomponents hslash
      have hfront : ∀ piece ∈ dropEndFillers front, '/' ∉ piece := fun piece hpiece =>
        hslash piece (List.mem_append_left _ (dropEndFillers_subset _ hpiece))
      rw [hcomponents, components_ofParts_root hfront, filter_dropEndFillers, List.filter_append,
        List.filter_cons_of_pos (by simp [hfiller])]
      simp

theorem isAbsolute_of_parent (h : p.isAbsolute = true) (hparent : p.parent = some q) : q.isAbsolute = true := by
  rcases parent_cases h with ⟨hnone, -⟩ | ⟨q', -, hsome, habsolute, -⟩
  · cases hnone.symm.trans hparent
  · exact Option.some.inj (hsome.symm.trans hparent) ▸ habsolute

theorem components_of_parent (h : p.isAbsolute = true) (hparent : p.parent = some q) :
    ∃ last, p.components = q.components ++ [last] := by
  rcases parent_cases h with ⟨hnone, -⟩ | ⟨q', last, hsome, -, hcomponents⟩
  · cases hnone.symm.trans hparent
  · exact ⟨last, Option.some.inj (hsome.symm.trans hparent) ▸ hcomponents⟩

theorem length_components_le (h : p.isAbsolute = true) : p.components.length ≤ p.text.length + 1 := by
  obtain ⟨pieces, -, hpieces⟩ := splitOn_of_isAbsolute h
  have hsplit := Text.length_splitOn_le '/' p.text
  rw [components_eq_pieces h, List.length_cons, List.length_map]
  rw [hpieces, List.length_cons] at hsplit
  calc (List.filter (!isFiller ·) (Text.splitOn '/' p.text)).length + 1
      = (pieces.filter (!isFiller ·)).length + 1 := by rw [hpieces]; rfl
    _ ≤ pieces.length + 1 := Nat.succ_le_succ (List.length_filter_le _ _)
    _ ≤ p.text.length + 1 := hsplit

/-! ### The way up -/

/-- What holds of an absolute path whenever it holds of its parent holds of all of them. -/
theorem induction_on_parent {motive : ∀ p : Path, p.isAbsolute = true → Prop}
    (step : ∀ p h, (∀ q hparent, motive q (isAbsolute_of_parent (q := q) h hparent)) → motive p h)
    (p : Path) (h : p.isAbsolute = true) : motive p h := by
  induction hlength : p.components.length generalizing p with
  | zero => simp [components_eq_pieces h] at hlength
  | succ length ih =>
      refine step p h fun q hparent => ih q (isAbsolute_of_parent h hparent) ?_
      obtain ⟨last, hlast⟩ := components_of_parent h hparent
      rw [hlast, List.length_append, List.length_singleton] at hlength
      exact Nat.succ.inj hlength

theorem go_eq_go {limit limit' : Nat} (h : p.isAbsolute = true) (hlimit : p.components.length ≤ limit)
    (hlimit' : p.components.length ≤ limit') : ancestors.go limit p = ancestors.go limit' p := by
  induction p, h using induction_on_parent generalizing limit limit' with
  | step p h ih =>
      have hpos : 0 < p.components.length := by simp [components_eq_pieces h]
      obtain ⟨limit, rfl⟩ := Nat.exists_eq_succ_of_ne_zero (Nat.ne_of_gt (hpos.trans_le hlimit))
      obtain ⟨limit', rfl⟩ := Nat.exists_eq_succ_of_ne_zero (Nat.ne_of_gt (hpos.trans_le hlimit'))
      rw [ancestors.go, ancestors.go]
      cases hparent : p.parent with
      | none => rfl
      | some q =>
          obtain ⟨last, hlast⟩ := components_of_parent h hparent
          rw [hlast, List.length_append, List.length_singleton] at hlimit hlimit'
          exact congrArg _ (ih q hparent (Nat.le_of_succ_le_succ hlimit) (Nat.le_of_succ_le_succ hlimit'))

/-- The ancestors of an absolute path are the path and the ancestors of its parent. -/
theorem ancestors_eq (h : p.isAbsolute = true) :
    p.ancestors = p :: match p.parent with | none => [] | some q => q.ancestors := by
  rw [ancestors, ancestors.go]
  cases hparent : p.parent with
  | none => rfl
  | some q =>
      obtain ⟨last, hlast⟩ := components_of_parent h hparent
      have hq := isAbsolute_of_parent h hparent
      have hlimit : q.components.length ≤ p.text.length := by
        have hp := length_components_le h
        rw [hlast, List.length_append, List.length_singleton] at hp
        exact Nat.le_of_succ_le_succ hp
      exact congrArg _ (go_eq_go hq hlimit (length_components_le hq))

theorem self_mem_ancestors (h : p.isAbsolute = true) : p ∈ p.ancestors := by
  rw [ancestors_eq h]
  exact List.mem_cons_self

theorem mem_ancestors_iff (h : p.isAbsolute = true) :
    q ∈ p.ancestors ↔ q = p ∨ ∃ r, p.parent = some r ∧ q ∈ r.ancestors := by
  rw [ancestors_eq h, List.mem_cons]
  cases p.parent <;> simp

theorem components_prefix_of_mem_ancestors (h : p.isAbsolute = true) (hq : q ∈ p.ancestors) :
    q.isAbsolute = true ∧ q.components <+: p.components := by
  induction p, h using induction_on_parent with
  | step p h ih =>
      rcases (mem_ancestors_iff h).mp hq with rfl | ⟨r, hparent, hq⟩
      · exact ⟨h, List.prefix_rfl⟩
      · obtain ⟨last, hlast⟩ := components_of_parent h hparent
        obtain ⟨habsolute, hprefix⟩ := ih r hparent hq
        exact ⟨habsolute, hlast ▸ hprefix.trans (List.prefix_append _ _)⟩

theorem parent_mem_ancestors {r : Path} (h : p.isAbsolute = true) (hq : q ∈ p.ancestors)
    (hparent : q.parent = some r) : r ∈ p.ancestors := by
  induction p, h using induction_on_parent with
  | step p h ih =>
      refine (mem_ancestors_iff h).mpr (Or.inr ?_)
      rcases (mem_ancestors_iff h).mp hq with rfl | ⟨next, hnext, hq⟩
      · exact ⟨r, hparent, self_mem_ancestors (isAbsolute_of_parent h hparent)⟩
      · exact ⟨next, hnext, ih next hnext hq⟩

/-- The way up leads through less and less components. -/
theorem pairwise_ancestors (h : p.isAbsolute = true) :
    p.ancestors.Pairwise fun lower upper => upper.components.length < lower.components.length := by
  induction p, h using induction_on_parent with
  | step p h ih =>
      rw [ancestors_eq h]
      cases hparent : p.parent with
      | none => exact List.pairwise_singleton _ _
      | some q =>
          obtain ⟨last, hlast⟩ := components_of_parent h hparent
          refine List.pairwise_cons.mpr ⟨fun upper hupper => ?_, ih q hparent⟩
          have hprefix := (components_prefix_of_mem_ancestors (isAbsolute_of_parent h hparent) hupper).2
          rw [hlast, List.length_append, List.length_singleton]
          exact Nat.lt_succ_of_le hprefix.length_le

/-- Of the ancestors of a path, different ones have different components. -/
theorem eq_of_mem_ancestors {r : Path} (h : p.isAbsolute = true) (hq : q ∈ p.ancestors) (hr : r ∈ p.ancestors)
    (hsame : q.components = r.components) : q = r := by
  have hnodup : (p.ancestors.map components).Nodup := by
    refine List.pairwise_map.mpr ((pairwise_ancestors h).imp fun hlt heq => ?_)
    rw [heq] at hlt
    exact Nat.lt_irrefl _ hlt
  exact List.inj_on_of_nodup_map hnodup hq hr hsame

theorem same_iff_of_mem_ancestors {r : Path} (h : p.isAbsolute = true) (hq : q ∈ p.ancestors)
    (hr : r ∈ p.ancestors) : q.same r = true ↔ q = r := by
  rw [same, beq_iff_eq]
  exact ⟨eq_of_mem_ancestors h hq hr, congrArg components⟩

end Path

end CompileFail
