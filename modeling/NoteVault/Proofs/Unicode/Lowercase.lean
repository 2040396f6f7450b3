import NoteVault.Proofs.Unicode.Prefix
import NoteVault.Unicode.Space

/-!
# Lower case is settled

What has been lower-cased stays as it is when it is lower-cased again
(`lowercaseChars_lowercaseChars`), although the lower case of a character can be two
characters, and that of a sigma depends on its neighbours.  For a character this
rests on the table of runs: no image of a run is the source of another
(`image?_image?_eq_none`).  The neighbours of a capital sigma do not matter the second
time, for there is no capital sigma left.

A number sign and a slash have no case and are not passed over in the search for a
letter with case, so what stands before them and what stands behind them is lower-cased
as if it stood alone (`PartsWords.lowercaseChars_append`).
-/

namespace NoteVault.Unicode

/-! ## The table of runs -/

theorem Run.exists_of_image? {run : Run} {point image : Nat} (h : run.image? point = some image) :
    ∃ k, k < run.count ∧ point = run.start + k * run.step ∧ image = run.target + k * run.step := by
  unfold Run.image? at h
  split at h
  · rename_i hin
    obtain ⟨hstart, hstop, hmod⟩ := hin
    obtain ⟨k, hk⟩ := Nat.dvd_of_mod_eq_zero hmod
    rw [Nat.mul_comm] at hk
    have hcount : k * run.step < run.count * run.step := by omega
    exact ⟨k, Nat.lt_of_mul_lt_mul_right hcount, by omega, by rw [← Option.some.inj h, hk]⟩
  · cases h

/-- No image of a run is a source of another run: it lies before all of them or
behind all of them, or between sources two apart. -/
def Run.misses (run other : Run) : Bool :=
  (run.target + (run.count - 1) * run.step).blt other.start ||
    (other.start + (other.count - 1) * other.step).blt run.target ||
    other.step == 2 && (run.step == 2 || run.count == 1) && (run.target + other.start) % 2 == 1

theorem Run.image?_eq_none_of_misses {run other : Run} {point image : Nat}
    (h : run.misses other = true) (hrun : run.image? point = some image) :
    other.image? image = none := by
  obtain ⟨k, hk, -, himage⟩ := exists_of_image? hrun
  have hlast : k * run.step ≤ (run.count - 1) * run.step :=
    Nat.mul_le_mul_right _ (by omega)
  cases hother : other.image? image with
  | none => rfl
  | some again =>
    exfalso
    obtain ⟨j, hj, hsource, -⟩ := exists_of_image? hother
    have hlast' : j * other.step ≤ (other.count - 1) * other.step :=
      Nat.mul_le_mul_right _ (by omega)
    simp only [misses, Bool.or_eq_true, Bool.and_eq_true, Nat.blt_eq, beq_iff_eq] at h
    rcases h with (h | h) | ⟨⟨hstep, heven⟩, hodd⟩
    · omega
    · omega
    · -- Both lie an even number behind points of different parity.
      rw [hstep] at hsource
      rcases heven with h2 | h1
      · rw [h2] at himage
        omega
      · obtain rfl : k = 0 := by omega
        omega

/-- The images of all runs. -/
def lowercaseImages (runs : List Run) : List Nat :=
  runs.flatMap fun run => (List.range run.count).map fun k => run.target + k * run.step

/-- Whether a code point is that of a character which is a letter, a mark or a sign
beyond the capital letters of ASCII, and neither a capital sigma, nor a capital I with
a dot, nor white space. -/
def isLowerPoint (n : Nat) : Bool :=
  ('a'.toNat).ble n && n.isValidChar && !isSpace (Char.ofNat n) && !n.beq 0x3a3 && !n.beq 0x130

theorem valid_of_isLowerPoint {n : Nat} (h : isLowerPoint n = true) : n.isValidChar := by
  simp only [isLowerPoint, Bool.and_eq_true, decide_eq_true_eq] at h
  exact h.1.1.1.2

theorem isSpace_of_isLowerPoint {n : Nat} (h : isLowerPoint n = true) :
    isSpace (Char.ofNat n) = false := by
  simp only [isLowerPoint, Bool.and_eq_true, Bool.not_eq_true'] at h
  exact h.1.1.2

theorem le_of_isLowerPoint {n : Nat} (h : isLowerPoint n = true) : 'a'.toNat ≤ n := by
  simp only [isLowerPoint, Bool.and_eq_true, Nat.ble_eq] at h
  exact h.1.1.1.1

/-- The characters that the exceptions bring in. -/
def exceptionalChars : List Char := ['ς', 'σ', 'i', Char.ofNat 0x307]

/-- A table of lower cases that fits the exceptions. -/
structure LowercaseTable (runs : List Run) : Prop where
  misses : (runs.all fun run => runs.all run.misses) = true
  isLowerPoint : (lowercaseImages runs).all isLowerPoint = true
  /-- The table knows the capital sigma. -/
  isSome_sigma : (runs.findSome? (·.image? 'Σ'.toNat)).isSome = true
  /-- The table does not know the characters that the exceptions bring in. -/
  isNone_exceptional :
    (exceptionalChars.all fun c => (runs.findSome? (·.image? c.toNat)).isNone) = true

set_option maxRecDepth 20000 in
/-- The table in use is one; it is gone through once for all four. -/
theorem lowercaseTable : LowercaseTable lowercaseRuns := by
  have hall : (lowercaseRuns.all fun run => lowercaseRuns.all run.misses) = true ∧
      (lowercaseImages lowercaseRuns).all isLowerPoint = true ∧
      (lowercaseRuns.findSome? (·.image? 'Σ'.toNat)).isSome = true ∧
      (exceptionalChars.all fun c =>
        (lowercaseRuns.findSome? (·.image? c.toNat)).isNone) = true := by
    unfold lowercaseRuns
    rw [String.toList_ofList]
    decide +kernel
  obtain ⟨hmisses, hpoints, hsigma, hexceptional⟩ := hall
  exact ⟨hmisses, hpoints, hsigma, hexceptional⟩

theorem mem_lowercaseImages {point image : Nat}
    (h : lowercaseRuns.findSome? (·.image? point) = some image) :
    image ∈ lowercaseImages lowercaseRuns := by
  obtain ⟨run, hrun, himage⟩ := List.exists_of_findSome?_eq_some h
  obtain ⟨k, hk, -, rfl⟩ := Run.exists_of_image? himage
  exact List.mem_flatMap.2 ⟨run, hrun, List.mem_map.2 ⟨k, List.mem_range.2 hk, rfl⟩⟩

/-- **No lower case has a lower case of its own.** -/
theorem image?_image?_eq_none {point image : Nat}
    (h : lowercaseRuns.findSome? (·.image? point) = some image) :
    lowercaseRuns.findSome? (·.image? image) = none := by
  obtain ⟨run, hrun, himage⟩ := List.exists_of_findSome?_eq_some h
  rw [List.findSome?_eq_none_iff]
  intro other hother
  have hmisses :=
    List.all_eq_true.1 (List.all_eq_true.1 lowercaseTable.misses run hrun) other hother
  exact Run.image?_eq_none_of_misses hmisses himage

theorem isLowerPoint_of_image? {point image : Nat}
    (h : lowercaseRuns.findSome? (·.image? point) = some image) : isLowerPoint image = true :=
  List.all_eq_true.1 lowercaseTable.isLowerPoint image (mem_lowercaseImages h)

/-! ## Characters -/

theorem toNat_ofNat {n : Nat} (h : n.isValidChar) : (Char.ofNat n).toNat = n := by
  rw [Char.ofNat, dif_pos h]
  rfl

theorem toLower_of_isLowerPoint {n : Nat} (h : isLowerPoint n = true) :
    (Char.ofNat n).toLower = Char.ofNat n := by
  have hle := le_of_isLowerPoint h
  unfold Char.toLower
  refine dif_neg fun hupper => ?_
  have hcapital : (Char.ofNat n).toNat ≤ 'Z'.toNat := hupper.2
  rw [toNat_ofNat (valid_of_isLowerPoint h)] at hcapital
  exact absurd (Nat.le_trans hle hcapital) (by decide)

theorem lowercaseChar_of_ascii {c : Char} (h : c.toNat < 128) : lowercaseChar c = c.toLower :=
  if_pos h

theorem lowercaseChar_of_image {c : Char} {n : Nat} (h : ¬ c.toNat < 128)
    (himage : lowercaseRuns.findSome? (·.image? c.toNat) = some n) :
    lowercaseChar c = Char.ofNat n := by
  rw [lowercaseChar, if_neg h, himage]

theorem lowercaseChar_of_no_image {c : Char} (h : ¬ c.toNat < 128)
    (himage : lowercaseRuns.findSome? (·.image? c.toNat) = none) : lowercaseChar c = c := by
  rw [lowercaseChar, if_neg h, himage]

theorem toLower_of_ascii : ∀ n < 128, let c := (Char.ofNat n).toLower
    c.toNat < 128 ∧ c.toLower = c ∧ (c = Char.ofNat n ∨ isLowerPoint c.toNat = true) := by
  decide +kernel

/-- **The lower case of a character**: it has no other lower case than itself, and if
it is another character, it is no capital letter of ASCII and no white space. -/
theorem lowercaseChar_settled (c : Char) :
    lowercaseChar (lowercaseChar c) = lowercaseChar c ∧
      (lowercaseChar c = c ∨ isLowerPoint (lowercaseChar c).toNat = true) := by
  by_cases hascii : c.toNat < 128
  · obtain ⟨hlower, hagain, hcase⟩ := toLower_of_ascii c.toNat hascii
    rw [Char.ofNat_toNat] at hlower hagain hcase
    rw [lowercaseChar_of_ascii hascii, lowercaseChar_of_ascii hlower]
    exact ⟨hagain, hcase⟩
  · cases himage : lowercaseRuns.findSome? (·.image? c.toNat) with
    | none =>
      rw [lowercaseChar_of_no_image hascii himage, lowercaseChar_of_no_image hascii himage]
      exact ⟨rfl, Or.inl rfl⟩
    | some n =>
      have hpoint : isLowerPoint n = true := isLowerPoint_of_image? himage
      have hn : (Char.ofNat n).toNat = n := toNat_ofNat (valid_of_isLowerPoint hpoint)
      rw [lowercaseChar_of_image hascii himage, hn]
      refine ⟨?_, Or.inr hpoint⟩
      by_cases hsmall : n < 128
      · -- A letter of ASCII, but no capital one.
        rw [lowercaseChar_of_ascii (by rwa [hn])]
        exact toLower_of_isLowerPoint hpoint
      · refine lowercaseChar_of_no_image (by rwa [hn]) ?_
        rw [hn]
        exact image?_image?_eq_none himage

/-- A character that is the same in lower case, wherever it stands. -/
structure Lowered (c : Char) : Prop where
  ne_sigma : c ≠ 'Σ'
  ne_dotted : c ≠ 'İ'
  lowercase : lowercaseChar c = c

theorem lowercaseChar_sigma_ne : lowercaseChar 'Σ' ≠ 'Σ' := by
  obtain ⟨n, hn⟩ := Option.isSome_iff_exists.1 lowercaseTable.isSome_sigma
  have hpoint : isLowerPoint n = true := isLowerPoint_of_image? hn
  rw [lowercaseChar_of_image (by decide) hn]
  intro h
  have hsigma := congrArg Char.toNat h
  rw [toNat_ofNat (valid_of_isLowerPoint hpoint)] at hsigma
  rw [hsigma] at hpoint
  revert hpoint
  decide

theorem lowered_lowercaseChar {c : Char} (h : c ≠ 'İ') : Lowered (lowercaseChar c) := by
  obtain ⟨hagain, hcase⟩ := lowercaseChar_settled c
  refine ⟨fun hsigma => ?_, fun hdotted => ?_, hagain⟩
  · rw [hsigma] at hagain
    exact lowercaseChar_sigma_ne hagain
  · rw [hdotted] at hcase
    rcases hcase with rfl | hpoint
    · exact h rfl
    · revert hpoint
      decide

/-! ## Texts -/

/-- The characters of a text in lower case: those of its characters, and those that
stand for a sigma and for a capital I with a dot. -/
theorem mem_lowercaseChars {cs : List Char} {d : Char} (h : d ∈ lowercaseChars cs) :
    d ∈ exceptionalChars ∨ ∃ c ∈ cs, c ≠ 'İ' ∧ lowercaseChar c = d := by
  have hfrom : ∀ before, d ∈ lowercaseFrom before cs →
      d ∈ exceptionalChars ∨ ∃ c ∈ cs, c ≠ 'İ' ∧ lowercaseChar c = d := by
    clear h
    induction cs with
    | nil => exact fun _ h => absurd h List.not_mem_nil
    | cons c cs ih =>
      intro before h
      rcases List.mem_append.1 h with h | h
      · unfold lowercaseAt at h
        split at h
        · rw [List.mem_singleton] at h
          split at h <;> simp [h, exceptionalChars]
        · split at h
          · exact Or.inl (List.mem_cons_of_mem _ (List.mem_cons_of_mem _ h))
          · rename_i hdotted
            exact Or.inr ⟨c, List.mem_cons_self, hdotted, (List.mem_singleton.1 h).symm⟩
      · refine (ih _ h).imp_right ?_
        rintro ⟨c', hc', hrest⟩
        exact ⟨c', List.mem_cons_of_mem _ hc', hrest⟩
  exact hfrom [] h

/-- What holds of characters in lower case, and of those that come from the
exceptions, holds of a text in lower case. -/
theorem forall_mem_lowercaseChars {p : Char → Prop} {cs : List Char}
    (hexceptions : ∀ d ∈ exceptionalChars, p d)
    (hchars : ∀ c ∈ cs, c ≠ 'İ' → p (lowercaseChar c)) : ∀ d ∈ lowercaseChars cs, p d := by
  intro d hd
  rcases mem_lowercaseChars hd with h | ⟨c, hc, hdotted, rfl⟩
  · exact hexceptions d h
  · exact hchars c hc hdotted

theorem lowered_exceptionalChars {d : Char} (h : d ∈ exceptionalChars) : Lowered d := by
  have hall : exceptionalChars.all (fun d =>
      decide (d ≠ 'Σ' ∧ d ≠ 'İ' ∧ (d.toNat < 128 → d.toLower = d))) = true := by decide
  obtain ⟨hsigma, hdotted, hascii⟩ := of_decide_eq_true (List.all_eq_true.1 hall d h)
  refine ⟨hsigma, hdotted, ?_⟩
  by_cases hsmall : d.toNat < 128
  · rw [lowercaseChar_of_ascii hsmall, hascii hsmall]
  · have hnone := List.all_eq_true.1 lowercaseTable.isNone_exceptional d h
    exact lowercaseChar_of_no_image hsmall (Option.isNone_iff_eq_none.1 hnone)

theorem lowered_of_mem_lowercaseChars {cs : List Char} : ∀ d ∈ lowercaseChars cs, Lowered d :=
  forall_mem_lowercaseChars (fun _ => lowered_exceptionalChars) fun _ _ => lowered_lowercaseChar

/-- A text of characters in lower case stays as it is. -/
theorem lowercaseFrom_of_lowered {cs : List Char} (h : ∀ c ∈ cs, Lowered c) (before : List Char) :
    lowercaseFrom before cs = cs := by
  induction cs generalizing before with
  | nil => rfl
  | cons c cs ih =>
    obtain ⟨hc, hcs⟩ := List.forall_mem_cons.1 h
    rw [lowercaseFrom, ih hcs, lowercaseAt, if_neg hc.ne_sigma, if_neg hc.ne_dotted, hc.lowercase]
    rfl

/-- **Lower case is settled**: lower-casing a second time changes nothing. -/
theorem lowercaseChars_lowercaseChars (cs : List Char) :
    lowercaseChars (lowercaseChars cs) = lowercaseChars cs :=
  lowercaseFrom_of_lowered lowered_of_mem_lowercaseChars []

/-- Lower-casing brings in no white space. -/
theorem isSpace_of_mem_lowercaseChars {cs : List Char} (h : ∀ c ∈ cs, isSpace c = false) :
    ∀ d ∈ lowercaseChars cs, isSpace d = false := by
  have hexceptions : ∀ d ∈ exceptionalChars, isSpace d = false :=
    fun d hd => Bool.eq_false_iff.2 (List.any_eq_false.1 (by decide) d hd)
  refine forall_mem_lowercaseChars hexceptions fun c hc _ => ?_
  rcases (lowercaseChar_settled c).2 with hsame | hpoint
  · rw [hsame]
    exact h c hc
  · have hspace := isSpace_of_isLowerPoint hpoint
    rwa [Char.ofNat_toNat] at hspace

/-- Lower-casing brings in no sign that stands before the small letters of ASCII. -/
theorem mem_of_mem_lowercaseChars {cs : List Char} {d : Char} (h : d ∈ lowercaseChars cs)
    (hsign : d.toNat < 'a'.toNat) : d ∈ cs := by
  rcases mem_lowercaseChars h with hexception | ⟨c, hc, -, rfl⟩
  · have hlarge : exceptionalChars.all (fun d => 'a'.toNat ≤ d.toNat) = true := by decide
    have hle : 'a'.toNat ≤ d.toNat := of_decide_eq_true (List.all_eq_true.1 hlarge d hexception)
    exact absurd hsign (Nat.not_lt.2 hle)
  · rcases (lowercaseChar_settled c).2 with hsame | hpoint
    · rwa [hsame]
    · exact absurd hsign (Nat.not_lt.2 (le_of_isLowerPoint hpoint))

theorem lowercaseChars_ne_nil {cs : List Char} (h : cs ≠ []) : lowercaseChars cs ≠ [] := by
  cases cs with
  | nil => exact absurd rfl h
  | cons c cs =>
    refine List.append_ne_nil_of_left_ne_nil ?_ _
    unfold lowercaseAt
    split
    · exact List.cons_ne_nil _ _
    · split <;> exact List.cons_ne_nil _ _

/-! ## Characters that part words -/

/-- A character that parts words: it has no case and stays as it is, and the search for
a letter with case ends at it. -/
structure PartsWords (c : Char) : Prop where
  not_skipped : isCaseIgnorable c = false
  not_cased : isCased c = false
  stays : ∀ before after, lowercaseAt before c after = [c]

theorem partsWords_numberSign : PartsWords '#' := ⟨by decide, by decide, fun _ _ => rfl⟩

theorem partsWords_slash : PartsWords '/' := ⟨by decide, by decide, fun _ _ => rfl⟩

variable {c : Char}

/-- Behind such a character nothing is met any more. -/
theorem PartsWords.meetsCased_append (h : PartsWords c) (cs rest : List Char) :
    meetsCased (cs ++ c :: rest) = meetsCased cs := by
  induction cs with
  | nil =>
    rw [List.nil_append, meetsCased_cons, h.not_skipped, h.not_cased]
    rfl
  | cons d cs ih => rw [List.cons_append, meetsCased_cons, meetsCased_cons, ih]

/-- What stands before such a character does not matter behind it. -/
theorem PartsWords.lowercaseFrom_behind (h : PartsWords c) (before rest cs : List Char) :
    lowercaseFrom (before ++ c :: rest) cs = lowercaseFrom before cs := by
  induction cs generalizing before with
  | nil => rfl
  | cons d cs ih =>
    rw [lowercaseFrom, lowercaseFrom, lowercaseAt, lowercaseAt, h.meetsCased_append,
      ← List.cons_append, ih]

/-- What stands behind such a character does not matter before it. -/
theorem PartsWords.lowercaseFrom_before (h : PartsWords c) (before cs rest : List Char) :
    lowercaseFrom before (cs ++ c :: rest) =
      lowercaseFrom before cs ++ lowercaseFrom (cs.reverse ++ before) (c :: rest) := by
  induction cs generalizing before with
  | nil => rfl
  | cons d cs ih =>
    have hat : lowercaseAt before d (cs ++ c :: rest) = lowercaseAt before d cs := by
      rw [lowercaseAt, lowercaseAt, h.meetsCased_append]
    rw [List.cons_append, lowercaseFrom, lowercaseFrom, hat, ih, List.append_assoc,
      List.reverse_cons, List.append_assoc, List.singleton_append]

/-- **Both sides of a character that parts words** are lower-cased by themselves. -/
theorem PartsWords.lowercaseChars_append (h : PartsWords c) (a b : List Char) :
    lowercaseChars (a ++ c :: b) = lowercaseChars a ++ c :: lowercaseChars b := by
  have hbehind : lowercaseFrom (c :: (a.reverse ++ [])) b = lowercaseFrom [] b :=
    h.lowercaseFrom_behind [] _ b
  rw [lowercaseChars, h.lowercaseFrom_before, lowercaseFrom, h.stays, hbehind]
  rfl

/-- **A number sign in front** does not change how the text behind it is
lower-cased. -/
theorem lowercaseChars_numberSign (cs : List Char) :
    lowercaseChars ('#' :: cs) = '#' :: lowercaseChars cs :=
  partsWords_numberSign.lowercaseChars_append [] cs

end NoteVault.Unicode
