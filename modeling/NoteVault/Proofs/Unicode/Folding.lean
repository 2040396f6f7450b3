import NoteVault.Proofs.Unicode.Lowercase
import NoteVault.Unicode.Folding

/-!
# Folding to ASCII

Among the characters beyond ASCII only two fold to a character of ASCII: the long s and
the Kelvin sign (`fold_of_not_ascii`).  So the variants of an ASCII character are its
two cases, and these two (`fold_eq_fold_iff`), and a character has an ASCII character
among its variants exactly if both fold to the same (`mem_caseVariants_iff`).

A text folds to a text of ASCII exactly if its lower case does
(`map_fold_lowercaseChars_iff`), for of the two only the Kelvin sign has a lower case,
and no other character has one of the two as its lower case.  Patterns take no account
of what folding takes away (`sameFolded`); where neither of the two characters stands,
that is the case of ASCII letters (`sameFolded_iff_of_not_mem`).
-/

namespace NoteVault.Unicode

/-- The long s. -/
def longS : Char := Char.ofNat 0x17f

/-- The Kelvin sign. -/
def kelvinSign : Char := Char.ofNat 0x212a

/-! ## The tables of runs -/

/-- Whether all code points from one to another are those of characters beyond ASCII. -/
def beyondAscii (first last : Nat) : Bool :=
  Nat.ble 128 first && (Nat.blt last 0xd800 || Nat.blt 0xdfff first && Nat.blt last 0x110000)

theorem le_and_valid_of_beyondAscii {first last n : Nat} (h : beyondAscii first last = true)
    (hfirst : first ≤ n) (hlast : n ≤ last) : 128 ≤ n ∧ n.isValidChar := by
  simp only [beyondAscii, Bool.and_eq_true, Bool.or_eq_true, Nat.ble_eq, Nat.blt_eq] at h
  refine ⟨by omega, ?_⟩
  show n < 0xd800 ∨ (0xdfff < n ∧ n < 0x110000)
  omega

/-- The last code point that a run covers. -/
def Run.last (run : Run) : Nat := run.start + (run.count - 1) * run.step

/-- The last image of a run. -/
def Run.lastImage (run : Run) : Nat := run.target + (run.count - 1) * run.step

theorem Run.between_of_image? {run : Run} {point image : Nat} (h : run.image? point = some image) :
    (run.start ≤ point ∧ point ≤ run.last) ∧ run.target ≤ image ∧ image ≤ run.lastImage := by
  obtain ⟨k, hk, rfl, rfl⟩ := exists_of_image? h
  have hle : k * run.step ≤ (run.count - 1) * run.step := Nat.mul_le_mul_right _ (by omega)
  unfold last lastImage
  omega

theorem Run.preimage?_of_image? {run : Run} {point image : Nat}
    (h : run.image? point = some image) : run.preimage? image = some point := by
  unfold image? at h
  split at h
  · rename_i hin
    obtain ⟨hstart, hstop, hmod⟩ := hin
    obtain rfl := Option.some.inj h
    rw [preimage?, if_pos ⟨Nat.le_add_right _ _, by omega, by rwa [Nat.add_sub_cancel_left]⟩,
      Nat.add_sub_cancel_left, Nat.add_sub_cancel' hstart]
  · cases h

theorem Run.image?_of_preimage? {run : Run} {point image : Nat}
    (h : run.preimage? image = some point) : run.image? point = some image := by
  unfold preimage? at h
  split at h
  · rename_i hin
    obtain ⟨hstart, hstop, hmod⟩ := hin
    obtain rfl := Option.some.inj h
    rw [image?, if_pos ⟨Nat.le_add_right _ _, by omega, by rwa [Nat.add_sub_cancel_left]⟩,
      Nat.add_sub_cancel_left, Nat.add_sub_cancel' hstart]
  · cases h

/-- A run folds characters beyond ASCII to such characters, or one of the two others to
its letter. -/
def Run.foldsWithin (run : Run) : Bool :=
  beyondAscii run.start run.last &&
    (beyondAscii run.target run.lastImage ||
      run.last.beq run.start &&
        (run.start.beq 0x17f && run.target.beq 's'.toNat ||
          run.start.beq 0x212a && run.target.beq 'k'.toNat))

set_option maxRecDepth 20000 in
/-- The runs of the table of foldings do, and the table knows the two. -/
theorem foldingRuns_within :
    (foldingRuns.all Run.foldsWithin) = true ∧
      foldingRuns.findSome? (·.image? 0x17f) = some 's'.toNat ∧
      foldingRuns.findSome? (·.image? 0x212a) = some 'k'.toNat := by
  unfold foldingRuns
  rw [String.toList_ofList]
  decide +kernel

/-- A run lower-cases characters to such that fold beyond ASCII, or it covers only the
Kelvin sign or the capital I with a dot. -/
def Run.lowersWithin (run : Run) : Bool :=
  beyondAscii run.target run.lastImage && (run.preimage? 0x17f).isNone &&
      (run.preimage? 0x212a).isNone ||
    run.last.beq run.start && (run.start.beq 0x212a || run.start.beq 0x130)

set_option maxRecDepth 20000 in
/-- The runs of the table of lower cases do, and of the two it knows the Kelvin sign only. -/
theorem lowercaseRuns_within :
    (lowercaseRuns.all Run.lowersWithin) = true ∧
      lowercaseRuns.findSome? (·.image? 0x17f) = none ∧
      lowercaseRuns.findSome? (·.image? 0x212a) = some 'k'.toNat := by
  unfold lowercaseRuns
  rw [String.toList_ofList]
  decide +kernel

/-! ## Characters -/

theorem fold_of_ascii {c : Char} (h : c.toNat < 128) : fold c = c.toLower := if_pos h

theorem fold_of_image {c : Char} {n : Nat} (h : ¬ c.toNat < 128)
    (himage : foldingRuns.findSome? (·.image? c.toNat) = some n) : fold c = Char.ofNat n := by
  rw [fold, if_neg h, himage]

theorem fold_of_no_image {c : Char} (h : ¬ c.toNat < 128)
    (himage : foldingRuns.findSome? (·.image? c.toNat) = none) : fold c = c := by
  rw [fold, if_neg h, himage]

theorem fold_longS : fold longS = 's' := fold_of_image (by decide) foldingRuns_within.2.1

theorem fold_kelvinSign : fold kelvinSign = 'k' := fold_of_image (by decide) foldingRuns_within.2.2

theorem eq_of_toNat_eq {c d : Char} (h : c.toNat = d.toNat) : c = d := by
  rw [← Char.ofNat_toNat c, h, Char.ofNat_toNat]

/-- **Only two characters beyond ASCII fold to ASCII.** -/
theorem fold_of_not_ascii {c : Char} (h : ¬ c.toNat < 128) :
    c = longS ∨ c = kelvinSign ∨ ¬ (fold c).toNat < 128 := by
  cases himage : foldingRuns.findSome? (·.image? c.toNat) with
  | none =>
    rw [fold_of_no_image h himage]
    exact Or.inr (Or.inr h)
  | some n =>
    rw [fold_of_image h himage]
    obtain ⟨run, hrun, hn⟩ := List.exists_of_findSome?_eq_some himage
    obtain ⟨⟨hstart, hlast⟩, htarget, hend⟩ := Run.between_of_image? hn
    have hwithin := List.all_eq_true.1 foldingRuns_within.1 run hrun
    simp only [Run.foldsWithin, Bool.and_eq_true, Bool.or_eq_true, Nat.beq_eq] at hwithin
    obtain ⟨-, hwithin | ⟨hone, ⟨hs, -⟩ | ⟨hk, -⟩⟩⟩ := hwithin
    · obtain ⟨hle, hvalid⟩ := le_and_valid_of_beyondAscii hwithin htarget hend
      rw [toNat_ofNat hvalid]
      exact Or.inr (Or.inr (Nat.not_lt.2 hle))
    · exact Or.inl (eq_of_toNat_eq (show c.toNat = 0x17f by omega))
    · exact Or.inr (Or.inl (eq_of_toNat_eq (show c.toNat = 0x212a by omega)))

theorem toLower_of_not_ascii {c : Char} (h : ¬ c.toNat < 128) : c.toLower = c := by
  unfold Char.toLower
  refine dif_neg fun hupper => h ?_
  have hle : c.val.toNat ≤ 90 := hupper.2
  exact Nat.lt_of_le_of_lt hle (by decide)

/-- **The characters that fold to the same as an ASCII character**: both its cases, and
the long s and the Kelvin sign. -/
theorem fold_eq_fold_iff {c : Char} (hc : c.toNat < 128) (d : Char) :
    fold d = fold c ↔
      d.toLower = c.toLower ∨ d = longS ∧ c.toLower = 's' ∨ d = kelvinSign ∧ c.toLower = 'k' := by
  have hlower : c.toLower.toNat < 128 := by
    have h := (toLower_of_ascii c.toNat hc).1
    rwa [Char.ofNat_toNat] at h
  rw [fold_of_ascii hc]
  by_cases hd : d.toNat < 128
  · rw [fold_of_ascii hd]
    constructor
    · exact Or.inl
    · rintro (h | ⟨rfl, -⟩ | ⟨rfl, -⟩)
      · exact h
      · exact absurd hd (by decide)
      · exact absurd hd (by decide)
  · have hne : d.toLower ≠ c.toLower := by
      rw [toLower_of_not_ascii hd]
      rintro rfl
      exact hd hlower
    constructor
    · intro h
      rcases fold_of_not_ascii hd with rfl | rfl | hfold
      · exact Or.inr (Or.inl ⟨rfl, h.symm.trans fold_longS⟩)
      · exact Or.inr (Or.inr ⟨rfl, h.symm.trans fold_kelvinSign⟩)
      · rw [h] at hfold
        exact absurd hlower hfold
    · rintro (h | ⟨rfl, hs⟩ | ⟨rfl, hk⟩)
      · exact absurd h hne
      · exact fold_longS.trans hs.symm
      · exact fold_kelvinSign.trans hk.symm

/-- Lower-casing leaves what is no letter, and makes a letter of a letter. -/
theorem toLower_cases : ∀ n < 128, let c := Char.ofNat n
    (c.toLower = c ∨ c.toLower.isAlpha = true) ∧
      (c.isAlpha = false → c.toLower = c ∧ c.toLower ≠ 's' ∧ c.toLower ≠ 'k') := by
  decide +kernel

/-- An ASCII character that is no letter folds like no other character. -/
theorem fold_eq_fold_iff_of_not_isAlpha {c : Char} (hc : c.toNat < 128) (halpha : c.isAlpha = false)
    (d : Char) : fold d = fold c ↔ d = c := by
  refine ⟨fun h => ?_, congrArg fold⟩
  have hcase := (toLower_cases c.toNat hc).2
  rw [Char.ofNat_toNat] at hcase
  obtain ⟨hlower, hs, hk⟩ := hcase halpha
  rcases (fold_eq_fold_iff hc d).1 h with heq | ⟨-, h⟩ | ⟨-, h⟩
  · rw [hlower] at heq
    by_cases hd : d.toNat < 128
    · have hletter := (toLower_cases d.toNat hd).1
      rw [Char.ofNat_toNat, heq, halpha] at hletter
      exact (hletter.resolve_right nofun).symm
    · rwa [toLower_of_not_ascii hd] at heq
  · exact absurd h hs
  · exact absurd h hk

/-! ## Variants -/

/-- The two cases of an ASCII character. -/
theorem ascii_cases : ∀ n < 128, let c := Char.ofNat n
    (c = c.toLower ∨ c.toLower.isAlpha = true ∧ c = c.toLower.toUpper) ∧
      (c.isAlpha = true → c.toUpper.toLower = c.toLower) ∧
      (c.toLower = 'k' ↔ c ∈ ['k', 'K', kelvinSign]) ∧
      (c.toLower = 's' ↔ c ∈ ['s', 'S', longS]) := by
  decide +kernel

/-- The ASCII characters among the variants of a character in lower case. -/
theorem mem_asciiVariants_iff {c low : Char} (hc : c.toNat < 128) (hlow : low.toNat < 128)
    (hlower : low.toLower = low) : c ∈ asciiVariants low ↔ c.toLower = low := by
  obtain ⟨hcase, -, hk, hs⟩ := ascii_cases c.toNat hc
  rw [Char.ofNat_toNat] at hcase hk hs
  obtain ⟨-, hupper, -, -⟩ := ascii_cases low.toNat hlow
  rw [Char.ofNat_toNat, hlower] at hupper
  unfold asciiVariants
  rw [hlower]
  split
  · exact hk.symm
  · exact hs.symm
  · split
    · rename_i halpha
      simp only [List.mem_cons, List.not_mem_nil, or_false]
      constructor
      · rintro (rfl | rfl)
        · exact hlower
        · exact hupper halpha
      · rintro rfl
        exact hcase.imp_right And.right
    · rename_i halpha
      rw [List.mem_singleton]
      constructor
      · rintro rfl
        exact hlower
      · rintro rfl
        exact hcase.resolve_right fun h => halpha h.1

theorem not_ascii_of_mem_foldedFrom {image c : Char} (h : c ∈ foldedFrom image) :
    ¬ c.toNat < 128 := by
  obtain ⟨run, hrun, hpoint⟩ := List.mem_filterMap.1 h
  obtain ⟨point, hpreimage, rfl⟩ := Option.map_eq_some_iff.1 hpoint
  have hwithin := List.all_eq_true.1 foldingRuns_within.1 run hrun
  simp only [Run.foldsWithin, Bool.and_eq_true] at hwithin
  obtain ⟨⟨hstart, hlast⟩, -⟩ := Run.between_of_image? (Run.image?_of_preimage? hpreimage)
  obtain ⟨hle, hvalid⟩ := le_and_valid_of_beyondAscii hwithin.1 hstart hlast
  rw [toNat_ofNat hvalid]
  exact Nat.not_lt.2 hle

/-- What a character of ASCII folds to is in lower case. -/
theorem toLower_fold {d : Char} (h : (fold d).toNat < 128) : (fold d).toLower = fold d := by
  by_cases hd : d.toNat < 128
  · have hagain := (toLower_of_ascii d.toNat hd).2.1
    rw [Char.ofNat_toNat] at hagain
    rwa [fold_of_ascii hd]
  · rcases fold_of_not_ascii hd with rfl | rfl | hfold
    · rw [fold_longS]; decide
    · rw [fold_kelvinSign]; decide
    · exact absurd h hfold

/-- **An ASCII character is a variant** of the characters that fold to the same. -/
theorem mem_caseVariants_iff {c : Char} (hc : c.toNat < 128) (d : Char) :
    c ∈ caseVariants d ↔ fold d = fold c := by
  rw [fold_of_ascii hc]
  show c ∈ (if (fold d).toNat < 128 then asciiVariants (fold d) else fold d :: foldedFrom (fold d))
    ↔ _
  split
  · rename_i hlow
    rw [mem_asciiVariants_iff hc hlow (toLower_fold hlow), eq_comm]
  · rename_i hlow
    have hlower := (toLower_of_ascii c.toNat hc).1
    rw [Char.ofNat_toNat] at hlower
    constructor
    · intro hmem
      rcases List.mem_cons.1 hmem with rfl | hmem
      · exact absurd hc hlow
      · exact absurd hc (not_ascii_of_mem_foldedFrom hmem)
    · intro h
      rw [h] at hlow
      exact absurd hlower hlow

/-! ## Lower case -/

/-- Beyond ASCII, only the Kelvin sign and the capital I with a dot have a lower case
that folds to ASCII, apart from the two characters themselves. -/
theorem lowercaseChar_not_ascii {c : Char} (h : ¬ c.toNat < 128) (hs : c ≠ longS)
    (hk : c ≠ kelvinSign) (hdotted : c ≠ 'İ') :
    ¬ (lowercaseChar c).toNat < 128 ∧ lowercaseChar c ≠ longS ∧ lowercaseChar c ≠ kelvinSign := by
  cases himage : lowercaseRuns.findSome? (·.image? c.toNat) with
  | none =>
    rw [lowercaseChar_of_no_image h himage]
    exact ⟨h, hs, hk⟩
  | some n =>
    rw [lowercaseChar_of_image h himage]
    obtain ⟨run, hrun, hn⟩ := List.exists_of_findSome?_eq_some himage
    obtain ⟨⟨hstart, hlast⟩, htarget, hend⟩ := Run.between_of_image? hn
    have hwithin := List.all_eq_true.1 lowercaseRuns_within.1 run hrun
    simp only [Run.lowersWithin, Bool.and_eq_true, Bool.or_eq_true, Nat.beq_eq,
      Option.isNone_iff_eq_none] at hwithin
    rcases hwithin with ⟨⟨hwithin, hmisses⟩, hmisses'⟩ | ⟨hone, hpoint⟩
    · obtain ⟨hle, hvalid⟩ := le_and_valid_of_beyondAscii hwithin htarget hend
      have hnat := toNat_ofNat hvalid
      refine ⟨by omega, ?_, ?_⟩
      · intro heq
        obtain rfl : n = 0x17f := by rw [← hnat, heq]; rfl
        rw [Run.preimage?_of_image? hn] at hmisses
        cases hmisses
      · intro heq
        obtain rfl : n = 0x212a := by rw [← hnat, heq]; rfl
        rw [Run.preimage?_of_image? hn] at hmisses'
        cases hmisses'
    · rcases hpoint with hpoint | hpoint
      · exact absurd (eq_of_toNat_eq (show c.toNat = 0x212a by omega)) hk
      · exact absurd (eq_of_toNat_eq (show c.toNat = 0x130 by omega)) hdotted

theorem lowercaseChar_longS : lowercaseChar longS = longS :=
  lowercaseChar_of_no_image (by decide) lowercaseRuns_within.2.1

theorem lowercaseChar_kelvinSign : lowercaseChar kelvinSign = 'k' :=
  lowercaseChar_of_image (by decide) lowercaseRuns_within.2.2

/-- **The lower case of a character folds to the same ASCII character**, if one of the
two folds to ASCII at all. -/
theorem fold_lowercaseChar_iff {c d : Char} (hc : c.toNat < 128) (hd : d ≠ 'İ') :
    fold (lowercaseChar d) = fold c ↔ fold d = fold c := by
  by_cases hascii : d.toNat < 128
  · obtain ⟨hlower, hagain, -⟩ := toLower_of_ascii d.toNat hascii
    rw [Char.ofNat_toNat] at hlower hagain
    rw [lowercaseChar_of_ascii hascii, fold_of_ascii hlower, hagain, fold_of_ascii hascii]
  · by_cases hs : d = longS
    · rw [hs, lowercaseChar_longS]
    · by_cases hk : d = kelvinSign
      · rw [hk, lowercaseChar_kelvinSign, fold_kelvinSign, fold_of_ascii (c := 'k') (by decide)]
        rfl
      · obtain ⟨hlower, hs', hk'⟩ := lowercaseChar_not_ascii hascii hs hk hd
        have hfold := (fold_of_not_ascii hascii).resolve_left hs |>.resolve_left hk
        have hfold' := (fold_of_not_ascii hlower).resolve_left hs' |>.resolve_left hk'
        have htarget := (toLower_of_ascii c.toNat hc).1
        rw [Char.ofNat_toNat] at htarget
        rw [fold_of_ascii hc]
        constructor
        · intro h
          rw [h] at hfold'
          exact absurd htarget hfold'
        · intro h
          rw [h] at hfold
          exact absurd htarget hfold

/-- The characters for which lower-casing makes an exception do not fold to ASCII, nor
does what they become: of a capital I with a dot, the dot that stands last. -/
theorem fold_exceptional : ∀ d ∈ ['Σ', 'σ', 'ς', 'İ', Char.ofNat 0x307],
    ∀ c : Char, c.toNat < 128 → fold d ≠ fold c := by
  intro d hd c hc h
  have hall : ['Σ', 'σ', 'ς', 'İ', Char.ofNat 0x307].all (fun d =>
      decide (¬ d.toNat < 128 ∧ d ≠ longS ∧ d ≠ kelvinSign)) = true := by decide
  obtain ⟨hd, hs, hk⟩ := of_decide_eq_true (List.all_eq_true.1 hall d hd)
  have hfold := (fold_of_not_ascii hd).resolve_left hs |>.resolve_left hk
  have hlower := (toLower_of_ascii c.toNat hc).1
  rw [Char.ofNat_toNat] at hlower
  rw [h, fold_of_ascii hc] at hfold
  exact hfold hlower

/-- **A text and its lower case** fold to the same texts of ASCII. -/
theorem map_fold_lowercaseChars_iff {ascii : List Char} (h : ∀ c ∈ ascii, c.toNat < 128)
    (cs : List Char) :
    (lowercaseChars cs).map fold = ascii.map fold ↔ cs.map fold = ascii.map fold := by
  suffices hfrom : ∀ before, (lowercaseFrom before cs).map fold = ascii.map fold ↔
      cs.map fold = ascii.map fold from hfrom []
  -- On the text; both sides take one character of ASCII for each character in turn.
  induction cs generalizing ascii with
  | nil => exact fun before => Iff.rfl
  | cons d cs ih =>
    intro before
    rw [lowercaseFrom, lowercaseAt]
    cases ascii with
    | nil =>
      constructor
      · intro hmap
        split at hmap
        · cases hmap
        · split at hmap <;> cases hmap
      · intro hmap
        cases hmap
    | cons c ascii =>
      obtain ⟨hc, hascii⟩ := List.forall_mem_cons.1 h
      have hrest := ih hascii (d :: before)
      split
      · rename_i hd
        constructor
        · intro hmap
          refine absurd (List.cons.inj hmap).1 (fold_exceptional _ ?_ c hc)
          split <;> simp
        · intro hmap
          refine absurd (List.cons.inj hmap).1 (fold_exceptional d ?_ c hc)
          simp [hd]
      · split
        · rename_i hd
          constructor
          · intro hmap
            cases ascii with
            | nil => cases (List.cons.inj hmap).2
            | cons c' ascii =>
              have hhead := (List.cons.inj (List.cons.inj hmap).2).1
              exact absurd hhead (fold_exceptional _ (by simp) c' (hascii c' List.mem_cons_self))
          · intro hmap
            refine absurd (List.cons.inj hmap).1 (fold_exceptional d ?_ c hc)
            simp [hd]
        · rename_i hd
          rw [List.singleton_append, List.map_cons, List.map_cons, List.map_cons, List.cons.injEq,
            List.cons.injEq, fold_lowercaseChar_iff hc hd, hrest]

/-! ## Texts in either case -/

/-- **Whether two texts are the same for patterns**, which take no account of case. -/
def sameFolded (cs ds : List Char) : Bool := cs.map fold == ds.map fold

theorem sameFolded_iff {cs ds : List Char} :
    sameFolded cs ds = true ↔ cs.map fold = ds.map fold := beq_iff_eq

/-- A text folds to no character that the other one does not have, unless it is a
letter. -/
theorem not_mem_of_sameFolded {cs ds : List Char} (h : sameFolded cs ds = true) {c : Char}
    (hc : c.toNat < 128) (halpha : c.isAlpha = false) (hnot : c ∉ ds) : c ∉ cs := by
  intro hmem
  have hfold : fold c ∈ ds.map fold := sameFolded_iff.1 h ▸ List.mem_map_of_mem hmem
  obtain ⟨d, hd, heq⟩ := List.mem_map.1 hfold
  exact hnot ((fold_eq_fold_iff_of_not_isAlpha hc halpha d).1 heq ▸ hd)

/-- Without the long s and the Kelvin sign, only the case of ASCII letters makes no
difference. -/
theorem sameFolded_iff_of_not_mem {ascii : List Char} (h : ∀ c ∈ ascii, c.toNat < 128)
    {cs : List Char} (hs : longS ∉ cs) (hk : kelvinSign ∉ cs) :
    sameFolded cs ascii = true ↔ cs.map Char.toLower = ascii.map Char.toLower := by
  rw [sameFolded_iff]
  induction cs generalizing ascii with
  | nil => cases ascii <;> exact ⟨fun h => by cases h <;> rfl, fun h => by cases h <;> rfl⟩
  | cons d cs ih =>
    cases ascii with
    | nil => exact ⟨nofun, nofun⟩
    | cons c ascii =>
      obtain ⟨hc, hascii⟩ := List.forall_mem_cons.1 h
      rw [List.mem_cons, not_or] at hs hk
      have hhead : fold d = fold c ↔ d.toLower = c.toLower := by
        rw [fold_eq_fold_iff hc d]
        refine ⟨fun h => ?_, Or.inl⟩
        rcases h with h | ⟨rfl, -⟩ | ⟨rfl, -⟩
        · exact h
        · exact absurd rfl hs.1
        · exact absurd rfl hk.1
      rw [List.map_cons, List.map_cons, List.map_cons, List.map_cons, List.cons.injEq,
        List.cons.injEq, hhead, ih hascii hs.2 hk.2]

/-- Texts that differ only in the case of ASCII letters are the same for patterns. -/
theorem sameFolded_of_toLower {ascii : List Char} (h : ∀ c ∈ ascii, c.toNat < 128)
    {cs : List Char} (hlower : cs.map Char.toLower = ascii.map Char.toLower) :
    sameFolded cs ascii = true := by
  have hcs : ∀ c ∈ cs, c.toNat < 128 := by
    intro c hc
    have hmem : c.toLower ∈ ascii.map Char.toLower := hlower ▸ List.mem_map_of_mem hc
    obtain ⟨d, hd, heq⟩ := List.mem_map.1 hmem
    refine Decidable.byContradiction fun hbeyond => ?_
    have hlow := (toLower_of_ascii d.toNat (h d hd)).1
    rw [Char.ofNat_toNat, heq, toLower_of_not_ascii hbeyond] at hlow
    exact hbeyond hlow
  have hnot : ∀ c : Char, ¬ c.toNat < 128 → c ∉ cs := fun c hbeyond hc => hbeyond (hcs c hc)
  exact (sameFolded_iff_of_not_mem h (hnot longS (by decide)) (hnot kelvinSign (by decide))).2 hlower

theorem kelvinSign_not_mem_lowercaseChars (cs : List Char) : kelvinSign ∉ lowercaseChars cs := by
  intro hmem
  have hlower := (lowered_of_mem_lowercaseChars _ hmem).lowercase
  rw [lowercaseChar_kelvinSign] at hlower
  exact absurd hlower (by decide)

end NoteVault.Unicode
