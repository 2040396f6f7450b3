import Mathlib.Algebra.Group.Nat.Defs
import NoteVault.Text.Number

/-!
# Numbers in a fixed number of digits

A number that has room in a width is written in exactly so many digits, with zeros in
front (`digits_padded`), and reads back (`digitsValue_padded`).  Texts of as many digits
that read as the same number are the same (`digitsValue_inj`), so each number has one
text of a width (`eq_padded_iff`).
-/

namespace NoteVault.Text

/-- A text of so many decimal digits. -/
structure Digits (width : Nat) (cs : List Char) : Prop where
  length_eq : cs.length = width
  isDigit : ∀ c ∈ cs, c.isDigit = true

/-! ## Reading -/

theorem digitsValue_nil (acc : Nat) : digitsValue acc [] = acc := by rfl

theorem digitsValue_cons (acc : Nat) (c : Char) (cs : List Char) :
    digitsValue acc (c :: cs) = digitsValue (acc * 10 + (c.toNat - '0'.toNat)) cs := by rfl

/-- A digit stands for a number below ten, and different digits for different numbers. -/
theorem digit_bounds {c : Char} (h : c.isDigit = true) :
    '0'.toNat ≤ c.toNat ∧ c.toNat - '0'.toNat < 10 := by
  obtain ⟨hlow, hhigh⟩ := Char.isDigit_iff_toNat.1 h
  have hnine : '9'.toNat = '0'.toNat + 9 := rfl
  omega

theorem natural?_of_digits {width : Nat} {cs : List Char} (h : Digits width cs)
    (hwidth : 0 < width) : natural? cs = some (digitsValue 0 cs) := by
  have hne : cs ≠ [] := by
    rintro rfl
    exact absurd h.length_eq (Nat.ne_of_lt hwidth)
  have hall : cs.all Char.isDigit = true := List.all_eq_true.2 h.isDigit
  rw [natural?, hall, if_pos]
  simpa using hne

/-- Only digits write a number, and at least one of them. -/
theorem digits_of_natural? {cs : List Char} {n : Nat} (h : natural? cs = some n) :
    Digits cs.length cs ∧ digitsValue 0 cs = n := by
  unfold natural? at h
  split at h
  · rename_i hcs
    obtain ⟨-, hall⟩ := Bool.and_eq_true_iff.1 hcs
    exact ⟨⟨rfl, List.all_eq_true.1 hall⟩, Option.some.inj h⟩
  · cases h

/-- A number in so many digits is below the power of ten. -/
theorem digitsValue_lt {cs : List Char} (h : ∀ c ∈ cs, c.isDigit = true) (acc : Nat) :
    digitsValue acc cs < (acc + 1) * 10 ^ cs.length := by
  induction cs generalizing acc with
  | nil => simp [digitsValue_nil]
  | cons c cs ih =>
    obtain ⟨hc, hcs⟩ := List.forall_mem_cons.1 h
    have hdigit := (digit_bounds hc).2
    calc digitsValue acc (c :: cs)
        < (acc * 10 + (c.toNat - '0'.toNat) + 1) * 10 ^ cs.length := by
          rw [digitsValue_cons]
          exact ih hcs _
      _ ≤ ((acc + 1) * 10) * 10 ^ cs.length := Nat.mul_le_mul_right _ (by omega)
      _ = (acc + 1) * 10 ^ (c :: cs).length := by
        rw [List.length_cons, Nat.pow_succ, Nat.mul_assoc, Nat.mul_comm 10]

theorem Digits.value_lt {width : Nat} {cs : List Char} (h : Digits width cs) :
    digitsValue 0 cs < 10 ^ width := by
  have hlt := digitsValue_lt h.isDigit 0
  rwa [h.length_eq, Nat.zero_add, Nat.one_mul] at hlt

/-- **As many digits that read as the same number are the same digits**, on top of
anything that has been read before them. -/
theorem digitsValue_inj {cs ds : List Char} (hlength : cs.length = ds.length)
    (hcs : ∀ c ∈ cs, c.isDigit = true) (hds : ∀ d ∈ ds, d.isDigit = true) {a b : Nat}
    (h : digitsValue a cs = digitsValue b ds) : a = b ∧ cs = ds := by
  induction cs generalizing ds a b with
  | nil =>
    obtain rfl := List.length_eq_zero_iff.1 hlength.symm
    exact ⟨h, rfl⟩
  | cons c cs ih =>
    cases ds with
    | nil => cases hlength
    | cons d ds =>
      obtain ⟨hc, hcs⟩ := List.forall_mem_cons.1 hcs
      obtain ⟨hd, hds⟩ := List.forall_mem_cons.1 hds
      rw [digitsValue_cons, digitsValue_cons] at h
      obtain ⟨hacc, rfl⟩ := ih (Nat.succ.inj hlength) hcs hds h
      have hboundsc := digit_bounds hc
      have hboundsd := digit_bounds hd
      have hsame : c = d := Char.toNat_inj.1 (by omega)
      exact ⟨by omega, by rw [hsame]⟩

/-! ## Writing -/

theorem digitsValue_eq_ofDigitChars (acc : Nat) (cs : List Char) :
    digitsValue acc cs = Nat.ofDigitChars 10 cs acc := by
  induction cs generalizing acc with
  | nil => rfl
  | cons c cs ih => rw [digitsValue_cons, ih, Nat.ofDigitChars_cons, Nat.mul_comm]

theorem digits_padded {width n : Nat} (hwidth : 0 < width) (h : n < 10 ^ width) :
    Digits width (padded width n) := by
  have hlength : (decimal n).length ≤ width :=
    (Nat.length_toDigits_le_iff (by decide) hwidth).2 h
  constructor
  · rw [padded, List.length_append, List.length_replicate]
    omega
  · intro c hc
    rcases List.mem_append.1 hc with hc | hc
    · rw [(List.mem_replicate.1 hc).2]
      rfl
    · exact Nat.isDigit_of_mem_toDigits (by decide) (by decide) hc

/-- A number reads back, whatever zeros are put in front of it. -/
theorem digitsValue_padded (width n : Nat) : digitsValue 0 (padded width n) = n := by
  rw [digitsValue_eq_ofDigitChars, padded, Nat.ofDigitChars_append,
    Nat.ofDigitChars_replicate_zero, Nat.mul_zero]
  exact Nat.ofDigitChars_toDigits (by decide) (by decide)

/-- **Each number has one text of a width.** -/
theorem eq_padded_iff {width n : Nat} {cs : List Char} (hwidth : 0 < width)
    (h : Digits width cs) (hn : n < 10 ^ width) :
    cs = padded width n ↔ digitsValue 0 cs = n := by
  constructor
  · rintro rfl
    exact digitsValue_padded width n
  · intro hvalue
    have hpadded := digits_padded hwidth hn
    exact (digitsValue_inj (h.length_eq.trans hpadded.length_eq.symm) h.isDigit
      hpadded.isDigit (hvalue.trans (digitsValue_padded width n).symm)).2

end NoteVault.Text
