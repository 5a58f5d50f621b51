import CompileFail.FileTree.Basic
import CompileFail.Proofs.LossyText

/-! Text in bytes, read strictly. Bytes are read as a text exactly if they are its UTF-8 form, so that what a file
holds is kept whole: as the text, or as bytes if there is no such text. -/

namespace CompileFail

namespace Bytes

variable {bytes rest : Bytes} {text : Text} {more low high bits x y z w : Nat} {b : UInt8}

/-- Within a character the next byte goes on with it, if there is no invalid part. -/
theorem exists_next_of_within (h : none ∉ decodeFrom (.within more low high bits) bytes) :
    ∃ b rest, bytes = b :: rest ∧ low ≤ b.toNat ∧ b.toNat ≤ high ∧ ∀ more', more = more' + 1 →
      none ∉ decodeFrom (.within more' 0x80 0xBF (bits * 64 + (b.toNat - 0x80))) rest := by
  cases bytes with
  | nil => exact absurd (by simp [decodeFrom]) h
  | cons b rest =>
      rw [decodeFrom_cons, Stage.step] at h
      split_ifs at h with hb
      · refine ⟨b, rest, rfl, hb.1, hb.2, ?_⟩
        rintro more' rfl hnone
        exact h hnone
      · exact absurd (by simp) h

/-! ### The forms of characters -/

theorem encodeChar_one (hx : x < 0x80) : String.utf8EncodeChar (Char.ofNat x) = [UInt8.ofNat x] := by
  have hval : (Char.ofNat x).val.toNat = x := toNat_charOfNat (by unfold Nat.isValidChar; omega)
  rw [String.utf8EncodeChar, hval, if_pos (by omega)]

theorem encodeChar_two (hx : 0xC2 ≤ x ∧ x < 0xE0) (hy : 0x80 ≤ y ∧ y ≤ 0xBF) :
    String.utf8EncodeChar (Char.ofNat ((x - 0xC0) * 64 + (y - 0x80))) = [UInt8.ofNat x, UInt8.ofNat y] := by
  obtain ⟨v, hv⟩ : ∃ v, v = (x - 0xC0) * 64 + (y - 0x80) := ⟨_, rfl⟩
  have hval : (Char.ofNat v).val.toNat = v := toNat_charOfNat (by unfold Nat.isValidChar; omega)
  rw [← hv, String.utf8EncodeChar, hval, if_neg (by omega), if_pos (by omega),
    show v / 64 % 32 + 192 = x by omega, show v % 64 + 128 = y by omega]

theorem encodeChar_three (hx : 0xE0 ≤ x ∧ x < 0xF0)
    (hy : (if x = 0xE0 then 0xA0 else 0x80) ≤ y ∧ y ≤ if x = 0xED then 0x9F else 0xBF)
    (hz : 0x80 ≤ z ∧ z ≤ 0xBF) :
    String.utf8EncodeChar (Char.ofNat (((x - 0xE0) * 64 + (y - 0x80)) * 64 + (z - 0x80))) =
      [UInt8.ofNat x, UInt8.ofNat y, UInt8.ofNat z] := by
  obtain ⟨v, hv⟩ : ∃ v, v = ((x - 0xE0) * 64 + (y - 0x80)) * 64 + (z - 0x80) := ⟨_, rfl⟩
  have hrange : 0x80 ≤ y ∧ y ≤ 0xBF ∧ 0x800 ≤ v ∧ v < 0x10000 ∧ (v < 0xD800 ∨ 0xE000 ≤ v) := by
    split_ifs at hy <;> omega
  have hval : (Char.ofNat v).val.toNat = v := toNat_charOfNat (by unfold Nat.isValidChar; omega)
  rw [← hv, String.utf8EncodeChar, hval, if_neg (by omega), if_neg (by omega), if_pos (by omega),
    show v / 4096 % 16 + 224 = x by omega, show v / 64 % 64 + 128 = y by omega, show v % 64 + 128 = z by omega]

theorem encodeChar_four (hx : 0xF0 ≤ x ∧ x < 0xF5)
    (hy : (if x = 0xF0 then 0x90 else 0x80) ≤ y ∧ y ≤ if x = 0xF4 then 0x8F else 0xBF)
    (hz : 0x80 ≤ z ∧ z ≤ 0xBF) (hw : 0x80 ≤ w ∧ w ≤ 0xBF) :
    String.utf8EncodeChar (Char.ofNat ((((x - 0xF0) * 64 + (y - 0x80)) * 64 + (z - 0x80)) * 64 + (w - 0x80))) =
      [UInt8.ofNat x, UInt8.ofNat y, UInt8.ofNat z, UInt8.ofNat w] := by
  obtain ⟨v, hv⟩ : ∃ v, v = (((x - 0xF0) * 64 + (y - 0x80)) * 64 + (z - 0x80)) * 64 + (w - 0x80) := ⟨_, rfl⟩
  have hrange : 0x80 ≤ y ∧ y ≤ 0xBF ∧ 0x10000 ≤ v ∧ v < 0x110000 := by
    split_ifs at hy <;> omega
  have hval : (Char.ofNat v).val.toNat = v := toNat_charOfNat (by unfold Nat.isValidChar; omega)
  rw [← hv, String.utf8EncodeChar, hval, if_neg (by omega), if_neg (by omega), if_neg (by omega),
    show v / 262144 % 8 + 240 = x by omega, show v / 4096 % 64 + 128 = y by omega,
    show v / 64 % 64 + 128 = z by omega, show v % 64 + 128 = w by omega]

/-! ### Reading -/

/-- Bytes without an invalid part begin with the form of a character. -/
theorem exists_char (h : none ∉ decodeFrom .start (b :: rest)) :
    ∃ c rest', b :: rest = String.utf8EncodeChar c ++ rest' := by
  rw [decodeFrom_cons, Stage.step, Stage.enter] at h
  by_cases h1 : b.toNat < 0x80
  · exact ⟨_, rest, by rw [encodeChar_one h1, UInt8.ofNat_toNat, List.singleton_append]⟩
  rw [if_neg h1] at h
  by_cases h2 : b.toNat < 0xC2
  · rw [if_pos h2] at h
    exact absurd (by simp) h
  rw [if_neg h2] at h
  by_cases h3 : b.toNat < 0xE0
  · rw [if_pos h3] at h
    obtain ⟨b₂, rest, rfl, hlow, hhigh, -⟩ := exists_next_of_within h
    have hform := encodeChar_two ⟨Nat.le_of_not_lt h2, h3⟩ ⟨hlow, hhigh⟩
    rw [UInt8.ofNat_toNat, UInt8.ofNat_toNat] at hform
    exact ⟨_, rest, by rw [hform]; rfl⟩
  rw [if_neg h3] at h
  by_cases h4 : b.toNat < 0xF0
  · rw [if_pos h4] at h
    obtain ⟨b₂, rest, rfl, hlow, hhigh, hrest⟩ := exists_next_of_within h
    obtain ⟨b₃, rest, rfl, hlow₃, hhigh₃, -⟩ := exists_next_of_within (hrest 0 rfl)
    have hform := encodeChar_three ⟨Nat.le_of_not_lt h3, h4⟩ ⟨hlow, hhigh⟩ ⟨hlow₃, hhigh₃⟩
    rw [UInt8.ofNat_toNat, UInt8.ofNat_toNat, UInt8.ofNat_toNat] at hform
    exact ⟨_, rest, by rw [hform]; rfl⟩
  rw [if_neg h4] at h
  by_cases h5 : b.toNat < 0xF5
  · rw [if_pos h5] at h
    obtain ⟨b₂, rest, rfl, hlow, hhigh, hrest⟩ := exists_next_of_within h
    obtain ⟨b₃, rest, rfl, hlow₃, hhigh₃, hrest₃⟩ := exists_next_of_within (hrest 1 rfl)
    obtain ⟨b₄, rest, rfl, hlow₄, hhigh₄, -⟩ := exists_next_of_within (hrest₃ 0 rfl)
    have hform := encodeChar_four ⟨Nat.le_of_not_lt h4, h5⟩ ⟨hlow, hhigh⟩ ⟨hlow₃, hhigh₃⟩ ⟨hlow₄, hhigh₄⟩
    rw [UInt8.ofNat_toNat, UInt8.ofNat_toNat, UInt8.ofNat_toNat, UInt8.ofNat_toNat] at hform
    exact ⟨_, rest, by rw [hform]; rfl⟩
  · rw [if_neg h5] at h
    exact absurd (by simp) h

/-- Bytes without an invalid part are the form of what they are read as. -/
theorem encode_of_decodeParts (h : decodeParts bytes = text.map some) : Text.encode text = bytes := by
  induction text generalizing bytes with
  | nil =>
      have hnil : bytes = [] := by
        by_contra hne
        exact decodeParts_ne_nil hne h
      rw [hnil]
      rfl
  | cons c text ih =>
      cases bytes with
      | nil => cases h
      | cons b rest =>
          have hvalid : none ∉ decodeFrom .start (b :: rest) := by
            rw [show decodeFrom .start (b :: rest) = (c :: text).map some from h]
            simp
          obtain ⟨c', rest', hbytes⟩ := exists_char hvalid
          rw [decodeParts, hbytes, decodeFrom_encodeChar_append, List.map_cons, List.cons.injEq] at h
          obtain ⟨hc, hrest⟩ := h
          rw [hbytes, ← ih hrest, Option.some.inj hc]
          rfl

theorem mapM_id_eq_some_iff {parts : List (Option Char)} : parts.mapM id = some text ↔ parts = text.map some := by
  induction parts generalizing text with
  | nil => cases text <;> simp
  | cons part parts ih =>
      cases part with
      | none => cases text <;> simp
      | some c =>
          have hstep : (some c :: parts).mapM id = some text ↔
              ∃ rest, parts.mapM id = some rest ∧ c :: rest = text := by
            simp [Option.bind_eq_some_iff]
          rw [hstep]
          cases text with
          | nil => simp
          | cons d text => simp [ih, and_comm]

/-- Bytes are read as a text exactly if they are its form. -/
theorem decode?_eq_some_iff : decode? bytes = some text ↔ Text.encode text = bytes := by
  rw [decode?, mapM_id_eq_some_iff]
  constructor
  · exact encode_of_decodeParts
  · rintro rfl
    exact decodeParts_encode text

end Bytes

namespace Content

theorem ofBytes_encode (text : Text) : ofBytes (Text.encode text) = .text text := by
  rw [ofBytes, Bytes.decode?_eq_some_iff.mpr rfl]

/-- What a file holds is kept whole. -/
theorem toBytes_ofBytes (bytes : Bytes) : (ofBytes bytes).toBytes = bytes := by
  unfold ofBytes
  split
  · next text hread => exact Bytes.decode?_eq_some_iff.mp hread
  · rfl

/-- Bytes are kept as such exactly if they are the form of no text. -/
theorem ofBytes_eq_binary_iff {bytes : Bytes} : ofBytes bytes = .binary bytes ↔ ∀ text, Text.encode text ≠ bytes := by
  unfold ofBytes
  split
  · next text hread =>
    refine ⟨nofun, fun h => absurd (Bytes.decode?_eq_some_iff.mp hread) (h text)⟩
  · next hread =>
    refine ⟨fun _ text htext => ?_, fun _ => rfl⟩
    rw [Bytes.decode?_eq_some_iff.mpr htext] at hread
    cases hread

end Content

end CompileFail
