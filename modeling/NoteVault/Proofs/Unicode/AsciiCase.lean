import NoteVault.Proofs.Unicode.Folding
import NoteVault.Proofs.Unicode.Prefix

/-!
# The case of ASCII letters

The classes of characters that decide about lower case do not tell the two cases of an
ASCII letter apart (`classes_toLower`).  So lower case is the same for a text and for the
text with its ASCII letters in lower case (`lowercaseChars_map_toLower`).
-/

namespace NoteVault.Unicode

/-- The classes of characters that decide about lower case, at the characters of ASCII. -/
theorem ascii_classes : ∀ n < 128, let c := Char.ofNat n
    isSpace c.toLower = isSpace c ∧ isCased c.toLower = isCased c ∧
      isCaseIgnorable c.toLower = isCaseIgnorable c ∧
      lowercaseChar c.toLower = lowercaseChar c := by
  decide +kernel

/-- They do not tell the two cases of an ASCII letter apart. -/
theorem classes_toLower (c : Char) :
    isSpace c.toLower = isSpace c ∧ isCased c.toLower = isCased c ∧
      isCaseIgnorable c.toLower = isCaseIgnorable c ∧
      lowercaseChar c.toLower = lowercaseChar c := by
  by_cases hascii : c.toNat < 128
  · have hclasses := ascii_classes c.toNat hascii
    rwa [Char.ofNat_toNat] at hclasses
  · rw [toLower_of_not_ascii hascii]
    exact ⟨rfl, rfl, rfl, rfl⟩

theorem isSpace_toLower (c : Char) : isSpace c.toLower = isSpace c := (classes_toLower c).1

/-- A character that is no letter of ASCII is no small letter of another. -/
theorem toLower_eq_iff {d : Char} (hd : d.isAlpha = false) (c : Char) : c.toLower = d ↔ c = d := by
  by_cases hascii : c.toNat < 128
  · obtain ⟨hcase, hother⟩ := toLower_cases c.toNat hascii
    rw [Char.ofNat_toNat] at hcase hother
    constructor
    · rintro rfl
      rcases hcase with hsame | halpha
      · exact hsame.symm
      · rw [hd] at halpha
        cases halpha
    · rintro rfl
      exact (hother hd).1
  · rw [toLower_of_not_ascii hascii]

theorem meetsCased_map_toLower (cs : List Char) :
    meetsCased (cs.map Char.toLower) = meetsCased cs := by
  induction cs with
  | nil => rfl
  | cons c cs ih =>
    obtain ⟨-, hcased, hignorable, -⟩ := classes_toLower c
    rw [List.map_cons, meetsCased_cons, meetsCased_cons, hignorable, hcased, ih]

theorem lowercaseAt_map_toLower (before : List Char) (c : Char) (after : List Char) :
    lowercaseAt (before.map Char.toLower) c.toLower (after.map Char.toLower) =
      lowercaseAt before c after := by
  have hsigma : c.toLower = 'Σ' ↔ c = 'Σ' := toLower_eq_iff (by decide) c
  have hdotted : c.toLower = 'İ' ↔ c = 'İ' := toLower_eq_iff (by decide) c
  have hchar : lowercaseChar c.toLower = lowercaseChar c := (classes_toLower c).2.2.2
  simp only [lowercaseAt, hsigma, hdotted, meetsCased_map_toLower, hchar]

theorem lowercaseFrom_map_toLower (before cs : List Char) :
    lowercaseFrom (before.map Char.toLower) (cs.map Char.toLower) = lowercaseFrom before cs := by
  induction cs generalizing before with
  | nil => rfl
  | cons c cs ih =>
    rw [List.map_cons, lowercaseFrom, lowercaseFrom, lowercaseAt_map_toLower, ← List.map_cons, ih]

/-- **Lower case does not see the case of ASCII letters.** -/
theorem lowercaseChars_map_toLower (cs : List Char) :
    lowercaseChars (cs.map Char.toLower) = lowercaseChars cs :=
  lowercaseFrom_map_toLower [] cs

end NoteVault.Unicode
