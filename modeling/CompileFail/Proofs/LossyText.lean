import CompileFail.Text.Octets
import Mathlib.Data.List.Basic
import Mathlib.Tactic.SplitIfs

/-! Text in bytes and back. What the bytes of a text are read as is the text again, and bytes below 128 stand
for the same characters wherever they are. So two names that are UTF-8 are shown alike only if they are the
same; names that are not may be shown alike and be different. -/

namespace CompileFail

theorem toNat_charOfNat {n : Nat} (h : n.isValidChar) : (Char.ofNat n).toNat = n := by
  rw [Char.ofNat, dif_pos h]
  rfl

theorem charOfNat_of_not_isValidChar {n : Nat} (h : ¬n.isValidChar) : Char.ofNat n = '\x00' := by
  rw [Char.ofNat, dif_neg h]
  rfl

namespace Bytes

namespace Stage

/-- Within a character neither its last byte nor the character itself can be below 128. -/
def Sound : Stage → Prop
  | start => True
  | within 0 low _ bits => 0x80 ≤ low ∧ 0x80 ≤ bits * 64 + (low - 0x80)
  | within (_ + 1) low _ bits => 0x80 ≤ low ∧ 2 ≤ bits * 64 + (low - 0x80)

theorem sound_enter (n : Nat) : (enter n).2.Sound := by
  unfold enter
  split_ifs <;> simp only [Sound] <;> omega

theorem Sound.step {stage : Stage} (h : stage.Sound) (n : Nat) : (stage.step n).2.Sound := by
  rcases stage with _ | ⟨_ | more, low, high, bits⟩
  · exact sound_enter n
  · simp only [Stage.step]
    split_ifs
    · exact trivial
    · exact sound_enter n
  · simp only [Stage.step]
    split_ifs with hn
    · simp only [Sound] at h ⊢
      cases more <;> simp only <;> omega
    · exact sound_enter n

end Stage

theorem decodeFrom_cons (stage : Stage) (b : UInt8) (rest : Bytes) :
    decodeFrom stage (b :: rest) = (stage.step b.toNat).1 ++ decodeFrom (stage.step b.toNat).2 rest := by
  cases stage <;> rfl

/-- A byte below 128 ends an invalid part and is a character. -/
theorem Stage.Sound.step_of_ascii {stage : Stage} (h : stage.Sound) {n : Nat} (hn : n < 0x80) :
    stage.step n = (decodeFrom stage [] ++ [some (Char.ofNat n)], .start) := by
  have henter : enter n = ([some (Char.ofNat n)], .start) := if_pos hn
  rcases stage with _ | ⟨more, low, high, bits⟩
  · exact henter
  · have hlow : 0x80 ≤ low := by cases more <;> exact h.1
    have hout : ¬(low ≤ n ∧ n ≤ high) := by omega
    rw [Stage.step, if_neg hout, henter]
    rfl

theorem decodeFrom_append_ascii {stage : Stage} (hstage : stage.Sound) {b : UInt8} (hb : b.toNat < 0x80)
    (bytes rest : Bytes) :
    decodeFrom stage (bytes ++ b :: rest) =
      decodeFrom stage bytes ++ some (Char.ofNat b.toNat) :: decodeFrom .start rest := by
  induction bytes generalizing stage with
  | nil => rw [List.nil_append, decodeFrom_cons, hstage.step_of_ascii hb, List.append_assoc]; rfl
  | cons first bytes ih =>
      rw [List.cons_append, decodeFrom_cons, decodeFrom_cons, ih (hstage.step _), List.append_assoc]

/-- What a step completes is not below 128 unless the byte is. -/
theorem Stage.Sound.eq_of_mem_step {stage : Stage} (h : stage.Sound) {n : Nat} {c : Char}
    (hmem : some c ∈ (stage.step n).1) (hc : c.toNat < 0x80) (hnul : c ≠ '\x00') : c.toNat = n := by
  have henter : some c ∈ (enter n).1 → c.toNat = n := by
    intro hmem
    unfold enter at hmem
    split_ifs at hmem with hn
    · obtain rfl := Option.some.inj (List.mem_singleton.mp hmem)
      have hvalid : n.isValidChar := by unfold Nat.isValidChar; omega
      exact toNat_charOfNat hvalid
    all_goals simp at hmem
  rcases stage with _ | ⟨_ | more, low, high, bits⟩
  · exact henter hmem
  · simp only [Stage.step] at hmem
    split_ifs at hmem with hn
    · have heq : c = Char.ofNat (bits * 64 + (n - 0x80)) := Option.some.inj (List.mem_singleton.mp hmem)
      have hlarge : 0x80 ≤ bits * 64 + (n - 0x80) := by
        simp only [Sound] at h
        omega
      by_cases hvalid : (bits * 64 + (n - 0x80)).isValidChar
      · rw [heq, toNat_charOfNat hvalid] at hc
        omega
      · exact absurd (heq.trans (charOfNat_of_not_isValidChar hvalid)) hnul
    · exact henter ((List.mem_cons.mp hmem).resolve_left (by simp))
  · simp only [Stage.step] at hmem
    split_ifs at hmem with hn
    · cases hmem
    · exact henter ((List.mem_cons.mp hmem).resolve_left (by simp))

theorem exists_of_mem_decodeFrom {stage : Stage} (hstage : stage.Sound) {bytes : Bytes} {c : Char}
    (hmem : some c ∈ decodeFrom stage bytes) (hc : c.toNat < 0x80) (hnul : c ≠ '\x00') :
    ∃ b ∈ bytes, b.toNat = c.toNat := by
  induction bytes generalizing stage with
  | nil => cases stage <;> simp [decodeFrom] at hmem
  | cons b bytes ih =>
      rw [decodeFrom_cons, List.mem_append] at hmem
      rcases hmem with hmem | hmem
      · exact ⟨b, List.mem_cons_self, (hstage.eq_of_mem_step hmem hc hnul).symm⟩
      · obtain ⟨b', hb', heq⟩ := ih (hstage.step _) hmem
        exact ⟨b', List.mem_cons_of_mem _ hb', heq⟩

/-- A character that is begun is completed, or else it is an invalid part. -/
theorem decodeFrom_within_ne_nil (more low high bits : Nat) (bytes : Bytes) :
    decodeFrom (.within more low high bits) bytes ≠ [] := by
  induction bytes generalizing more low high bits with
  | nil => simp [decodeFrom]
  | cons b bytes ih =>
      rw [decodeFrom_cons, Stage.step]
      split_ifs
      · cases more with
        | zero => simp
        | succ more => exact ih more 0x80 0xBF _
      · simp

theorem decodeParts_ne_nil {bytes : Bytes} (h : bytes ≠ []) : decodeParts bytes ≠ [] := by
  obtain ⟨b, rest, rfl⟩ := List.exists_cons_of_ne_nil h
  rw [decodeParts, decodeFrom_cons, Stage.step, Stage.enter]
  split_ifs
  all_goals first
    | exact List.cons_ne_nil _ _
    | exact decodeFrom_within_ne_nil _ _ _ _ rest

theorem toNat_ofNat_of_lt {n : Nat} (h : n < 256) : (UInt8.ofNat n).toNat = n := Nat.mod_eq_of_lt h

theorem decodeFrom_encodeChar_append (c : Char) (rest : Bytes) :
    decodeFrom .start (String.utf8EncodeChar c ++ rest) = some c :: decodeFrom .start rest := by
  have hvalid : c.toNat.isValidChar := c.valid
  have hself : Char.ofNat c.toNat = c := Char.ofNat_toNat c
  have hval : c.val.toNat = c.toNat := rfl
  simp only [String.utf8EncodeChar, hval]
  generalize c.toNat = v at hvalid hself
  unfold Nat.isValidChar at hvalid
  split_ifs with h1 h2 h3
  · rw [List.singleton_append, decodeFrom_cons, toNat_ofNat_of_lt (by omega)]
    simp only [Stage.step, Stage.enter]
    rw [if_pos (by omega), hself]
    rfl
  · simp only [List.cons_append, List.nil_append, decodeFrom_cons]
    rw [toNat_ofNat_of_lt (by omega), toNat_ofNat_of_lt (by omega)]
    simp only [Stage.step, Stage.enter]
    rw [if_neg (by omega), if_neg (by omega), if_pos (by omega)]
    simp only
    rw [if_pos (by omega), show (v / 64 % 32 + 192 - 192) * 64 + (v % 64 + 128 - 128) = v by omega, hself]
    rfl
  · simp only [List.cons_append, List.nil_append, decodeFrom_cons]
    rw [toNat_ofNat_of_lt (by omega), toNat_ofNat_of_lt (by omega), toNat_ofNat_of_lt (by omega)]
    simp only [Stage.step, Stage.enter]
    rw [if_neg (by omega), if_neg (by omega), if_neg (by omega), if_pos (by omega)]
    simp only
    rw [if_pos (by split_ifs <;> omega)]
    simp only
    rw [if_pos (by omega), show ((v / 4096 % 16 + 224 - 224) * 64 + (v / 64 % 64 + 128 - 128)) * 64 +
      (v % 64 + 128 - 128) = v by omega, hself]
    rfl
  · simp only [List.cons_append, List.nil_append, decodeFrom_cons]
    rw [toNat_ofNat_of_lt (by omega), toNat_ofNat_of_lt (by omega), toNat_ofNat_of_lt (by omega),
      toNat_ofNat_of_lt (by omega)]
    simp only [Stage.step, Stage.enter]
    rw [if_neg (by omega), if_neg (by omega), if_neg (by omega), if_neg (by omega), if_pos (by omega)]
    simp only
    rw [if_pos (by split_ifs <;> omega)]
    simp only
    rw [if_pos (by omega)]
    simp only
    rw [if_pos (by omega), show (((v / 262144 % 8 + 240 - 240) * 64 + (v / 4096 % 64 + 128 - 128)) * 64 +
      (v / 64 % 64 + 128 - 128)) * 64 + (v % 64 + 128 - 128) = v by omega, hself]
    rfl

theorem decodeParts_encode (s : Text) : decodeParts (Text.encode s) = s.map some := by
  induction s with
  | nil => rfl
  | cons c s ih =>
      rw [List.map_cons, ← ih]
      exact decodeFrom_encodeChar_append c (Text.encode s)

end Bytes

namespace Octets

variable {s t : Octets} {text text' : Text} {c : Char}

theorem toBytes_ofBytes (bytes : Bytes) : toBytes (ofBytes bytes) = bytes := by
  rw [toBytes, ofBytes, List.map_map]
  refine (List.map_congr_left fun b _ => ?_).trans (List.map_id bytes)
  have hb : b.toNat < 256 := b.toNat_lt
  have hvalid : b.toNat.isValidChar := by unfold Nat.isValidChar; omega
  rw [Function.comp_apply, toNat_charOfNat hvalid, Nat.min_eq_left (by omega)]
  exact UInt8.ofNat_toNat

/-- A text is read back from its bytes. -/
theorem toText_ofText (text : Text) : toText (ofText text) = text := by
  rw [toText, ofText, toBytes_ofBytes, Bytes.decodeLossy, Bytes.decodeParts_encode, List.map_map]
  exact List.map_id text

theorem ofText_injective (h : ofText text = ofText text') : text = text' := by
  rw [← toText_ofText text, h, toText_ofText]

theorem ofText_append (text text' : Text) : ofText (text ++ text') = ofText text ++ ofText text' := by
  simp [ofText, ofBytes, Text.encode]

theorem ofText_cons_of_ascii (hc : c.toNat < 0x80) (text : Text) : ofText (c :: text) = c :: ofText text := by
  have hencode : String.utf8EncodeChar c = [UInt8.ofNat c.toNat] := if_pos (Nat.le_of_lt_succ hc)
  rw [ofText, Text.encode, List.flatMap_cons, hencode, ofBytes, List.singleton_append, List.map_cons,
    Bytes.toNat_ofNat_of_lt (by omega), Char.ofNat_toNat]
  rfl

/-- The bytes are the UTF-8 form of a text. -/
def IsText (s : Octets) : Prop := ∃ text, s = ofText text

/-- Bytes that are UTF-8 can be told by what they are shown as. -/
theorem IsText.eq_of_toText_eq (hs : IsText s) (ht : IsText t) (h : toText s = toText t) : s = t := by
  obtain ⟨text, rfl⟩ := hs
  obtain ⟨text', rfl⟩ := ht
  rw [toText_ofText, toText_ofText] at h
  rw [h]

theorem IsText.ofText_toText (h : IsText s) : ofText (toText s) = s := by
  obtain ⟨text, rfl⟩ := h
  rw [toText_ofText]

theorem IsText.append_cons (hs : IsText s) (hc : c.toNat < 0x80) (ht : IsText t) : IsText (s ++ c :: t) := by
  obtain ⟨text, rfl⟩ := hs
  obtain ⟨text', rfl⟩ := ht
  exact ⟨text ++ c :: text', by rw [ofText_append, ofText_cons_of_ascii hc]⟩

/-- The text that is shown is cut at a character below 128 just as the bytes are. -/
theorem toText_append_cons (hc : c.toNat < 0x80) (s t : Octets) :
    toText (s ++ c :: t) = toText s ++ c :: toText t := by
  have hb : (UInt8.ofNat (min c.toNat 0xFF)).toNat = c.toNat := by
    rw [Nat.min_eq_left (by omega), Bytes.toNat_ofNat_of_lt (by omega)]
  rw [toText, toBytes, List.map_append, List.map_cons, Bytes.decodeLossy, Bytes.decodeParts,
    Bytes.decodeFrom_append_ascii (by trivial) (by rw [hb]; exact hc), List.map_append, List.map_cons, hb,
    Char.ofNat_toNat]
  rfl

/-- No character below 128 is shown that is not there. -/
theorem mem_of_mem_toText (hc : c.toNat < 0x80) (hnul : c ≠ '\x00') (h : c ∈ toText s) : c ∈ s := by
  obtain ⟨part, hpart, heq⟩ := List.mem_map.mp h
  cases part with
  | none =>
      have hlow : Bytes.replacementChar = c := heq
      rw [← hlow] at hc
      exact absurd hc (by decide)
  | some d =>
      obtain rfl : d = c := heq
      have hsound : Bytes.Stage.start.Sound := trivial
      obtain ⟨b, hb, hnat⟩ := Bytes.exists_of_mem_decodeFrom hsound hpart hc hnul
      obtain ⟨d', hd', rfl⟩ := List.mem_map.mp hb
      rw [Bytes.toNat_ofNat_of_lt (by omega)] at hnat
      obtain rfl : d' = d := Char.toNat_inj.mp (by omega)
      exact hd'

theorem mem_ofText_iff (hc : c.toNat < 0x80) : c ∈ ofText text ↔ c ∈ text := by
  constructor
  · intro h
    obtain ⟨before, after, heq⟩ := List.append_of_mem h
    have hshown := toText_ofText text
    rw [heq, toText_append_cons hc] at hshown
    rw [← hshown]
    exact List.mem_append_right _ List.mem_cons_self
  · intro h
    obtain ⟨before, after, rfl⟩ := List.append_of_mem h
    rw [ofText_append, ofText_cons_of_ascii hc]
    exact List.mem_append_right _ List.mem_cons_self

theorem toText_ne_nil (h : s ≠ []) : toText s ≠ [] := by
  have hbytes : toBytes s ≠ [] := by simpa [toBytes] using h
  simpa [toText, Bytes.decodeLossy] using Bytes.decodeParts_ne_nil hbytes

end Octets

end CompileFail
