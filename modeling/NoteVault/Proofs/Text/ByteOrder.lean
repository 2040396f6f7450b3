import NoteVault.Proofs.Index.Fingerprint

/-!
# The order of texts is the order of their bytes

Texts are compared character by character.  In UTF-8, of two characters the smaller one
has the smaller bytes, whatever stands behind them (`utf8EncodeChar_append_lt`); so it
makes no difference whether texts are compared by their characters or by their bytes
(`textBytes_lt_iff`).
-/

namespace NoteVault.Fingerprint

theorem toNat_lt_of_char (c : Char) : c.val.toNat < 0x110000 := by
  have h := c.valid
  simp only [UInt32.isValidChar, Nat.isValidChar] at h
  omega

/-- **The smaller character has the smaller bytes.** -/
theorem utf8EncodeChar_append_lt {c d : Char} (h : c < d) (x y : List UInt8) :
    String.utf8EncodeChar c ++ x < String.utf8EncodeChar d ++ y := by
  have hlt : c.val.toNat < d.val.toNat := h
  have hc := toNat_lt_of_char c
  have hd := toNat_lt_of_char d
  unfold String.utf8EncodeChar
  generalize c.val.toNat = v at *
  generalize d.val.toNat = w at *
  dsimp only
  -- The bytes are digits, and the greater number has no smaller leading digits.
  have hlow : v / 64 ≤ w / 64 := Nat.div_le_div_right (Nat.le_of_lt hlt)
  have hmiddle : v / 4096 ≤ w / 4096 := Nat.div_le_div_right (Nat.le_of_lt hlt)
  have hhigh : v / 262144 ≤ w / 262144 := Nat.div_le_div_right (Nat.le_of_lt hlt)
  repeat' split
  all_goals
    simp only [List.cons_append, List.nil_append, List.cons_lt_cons_iff, UInt8.lt_iff_toNat_lt,
      UInt8.toNat_ofNat', ← UInt8.toNat_inj]
    simp (disch := omega) only [Nat.mod_eq_of_lt]
    omega

theorem flatMap_utf8EncodeChar_lt {cs ds : List Char} (h : cs < ds) :
    cs.flatMap String.utf8EncodeChar < ds.flatMap String.utf8EncodeChar := by
  induction cs generalizing ds with
  | nil =>
    cases ds with
    | nil => exact absurd h (List.lt_irrefl _)
    | cons d ds =>
      obtain ⟨byte, bytes, hbytes⟩ :=
        List.exists_cons_of_ne_nil (String.utf8EncodeChar_ne_nil (c := d))
      rw [List.flatMap_cons, hbytes]
      exact List.nil_lt_cons _ _
  | cons c cs ih =>
    cases ds with
    | nil => exact absurd h (List.not_lt_nil _)
    | cons d ds =>
      rw [List.flatMap_cons, List.flatMap_cons]
      rcases List.cons_lt_cons_iff.1 h with hcd | ⟨rfl, hrest⟩
      · exact utf8EncodeChar_append_lt hcd _ _
      · exact List.append_left_lt (ih hrest)

/-- **Comparing bytes is comparing texts.** -/
theorem textBytes_lt_iff {s t : String} : textBytes s < textBytes t ↔ s < t := by
  have hmono : ∀ {s t : String}, s < t → textBytes s < textBytes t := by
    intro s t h
    rw [textBytes_eq_flatMap, textBytes_eq_flatMap]
    exact flatMap_utf8EncodeChar_lt (String.lt_iff.1 h)
  refine ⟨fun h => Decidable.byContradiction fun hnot => ?_, hmono⟩
  by_cases heq : s = t
  · exact List.lt_irrefl _ (heq ▸ h)
  · have hgt : t < s := Std.lt_of_le_of_ne (String.not_lt.1 hnot) (Ne.symm heq)
    exact List.lt_asymm h (hmono hgt)

end NoteVault.Fingerprint
