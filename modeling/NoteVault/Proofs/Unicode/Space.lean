import NoteVault.Proofs.Unicode.Segments
import NoteVault.Unicode.Alphabet
import NoteVault.Unicode.Space

/-!
# White space is neither a letter nor a number

White space is a list of code points, while letters and numbers are read from
tables; none of the segments of these tables holds white space
(`isAlphanumeric_of_isSpace`).
-/

namespace NoteVault.Unicode

/-- The white space beyond ASCII. -/
def wideSpaces : List Nat :=
  [0x85, 0xa0, 0x1680, 0x2000, 0x2001, 0x2002, 0x2003, 0x2004, 0x2005, 0x2006, 0x2007, 0x2008,
    0x2009, 0x200a, 0x2028, 0x2029, 0x202f, 0x205f, 0x3000]

theorem toNat_mem_wideSpaces {c : Char} (h : isSpace c = true) (hwide : ¬ c.toNat < 128) :
    c.toNat ∈ wideSpaces := by
  simp only [isSpace, if_neg hwide, Bool.or_eq_true, Bool.and_eq_true, beq_iff_eq,
    decide_eq_true_eq] at h
  simp only [wideSpaces, List.mem_cons, List.not_mem_nil, or_false]
  omega

theorem isAlpha_isDigit_of_isSpace : ∀ n < 128, isSpace (Char.ofNat n) = true →
    (Char.ofNat n).isAlpha = false ∧ (Char.ofNat n).isDigit = false := by
  decide +kernel

set_option maxRecDepth 40000 in
/-- No segment of letters and none of numbers holds white space. -/
theorem segmentsMiss_wideSpaces :
    segmentsMiss id wideSpaces alphabeticSet.flips.toList alphabeticSet.labels = true ∧
      segmentsMiss (fun label => (Category.ofLabel label).isNumber) wideSpaces
        Category.table.starts.toList Category.table.labels.toList = true := by
  unfold FlipSet.labels alphabeticSet Category.table Category.segmentStarts Category.segmentLabels
    readStarts readLabels
  rw [String.toList_ofList, String.toList_ofList, String.toList_ofList]
  decide +kernel

/-- **White space is neither a letter nor a number.** -/
theorem isAlphanumeric_of_isSpace {c : Char} (h : isSpace c = true) : isAlphanumeric c = false := by
  rw [isAlphanumeric, isAlphabetic, isNumeric, Bool.or_eq_false_iff]
  by_cases hascii : c.toNat < 128
  · have hnarrow := isAlpha_isDigit_of_isSpace c.toNat hascii
    rw [Char.ofNat_toNat] at hnarrow
    rw [if_pos hascii, if_pos hascii]
    exact hnarrow h
  · have hwide := toNat_mem_wideSpaces h hascii
    rw [if_neg hascii, if_neg hascii]
    exact ⟨FlipSet.not_contains segmentsMiss_wideSpaces.1 hwide,
      SegmentMap.label_not_kind (by decide) segmentsMiss_wideSpaces.2 hwide⟩

end NoteVault.Unicode
