import NoteVault.Pattern.Parser
import NoteVault.Proofs.Pattern.Match
import NoteVault.Proofs.Unicode.Folding

/-!
# Words in patterns

Letters and digits of ASCII stand for themselves in a pattern, in either case
(`Regex.word`).  A word matches the pieces of text that fold to what it folds to
(`Regex.language_word`).  So a word behind which the text has to end matches the texts
that end in such a piece (`Regex.isMatch_wordAtEnd`), and a word before which it has to
begin, too, matches such texts alone (`Regex.isMatch_wordAlone`).

`Regex.parse?_dotWord` reads the pattern that a dot, a word and the end of the text
write; the only limit is on the weight of a pattern.
-/

namespace NoteVault.Pattern

open Unicode

/-! ## Characters in either case -/

theorem contains_single (c d : Char) : (CharSet.single c).contains d = true ↔ d = c := by
  simp only [CharSet.single, CharSet.contains, Bool.and_eq_true, decide_eq_true_eq]
  exact ⟨fun ⟨hle, hge⟩ => Char.le_antisymm hge hle, fun h => h ▸ ⟨Char.le_refl _, Char.le_refl _⟩⟩

/-- **An ASCII character in either case** is met by the characters that fold as it does. -/
theorem contains_folded_single {c : Char} (hc : c.toNat < 128) (d : Char) :
    (CharSet.folded (.single c)).contains d = true ↔ fold d = fold c := by
  have hany : (caseVariants d).any (CharSet.single c).contains = true ↔ c ∈ caseVariants d := by
    rw [List.any_eq_true]
    constructor
    · rintro ⟨x, hx, hcontains⟩
      exact (contains_single c x).1 hcontains ▸ hx
    · exact fun h => ⟨c, h, (contains_single c c).2 rfl⟩
  rw [CharSet.contains, Bool.or_eq_true, contains_single, hany, mem_caseVariants_iff hc]
  exact ⟨fun h => h.elim (fun heq => heq ▸ rfl) id, Or.inr⟩

namespace Regex

/-- A character in either case. -/
def letter (c : Char) : Regex := .set (.folded (.single c))

/-- The characters of a word one after the other, in either case, and then a pattern. -/
def word (cs : List Char) (rest : Regex) : Regex :=
  cs.foldr (fun c r => .cat (letter c) r) rest

/-- A word behind which the text has to end. -/
def wordAtEnd (cs : List Char) : Regex := word cs (.cat (.look .textEnd) .empty)

/-- **A word matches what folds as it does**, whatever pattern follows. -/
theorem language_word {cs : List Char} (hcs : ∀ c ∈ cs, c.toNat < 128) (rest : Regex)
    {before piece after : List Char} :
    (word cs rest).language before piece after ↔
      ∃ first more, piece = first ++ more ∧ first.map fold = cs.map fold ∧
        rest.language (before ++ first) more after := by
  induction cs generalizing before piece with
  | nil =>
    constructor
    · exact fun h => ⟨[], piece, rfl, rfl, by rwa [List.append_nil]⟩
    · rintro ⟨first, more, rfl, hfold, h⟩
      obtain rfl := List.map_eq_nil_iff.1 hfold
      rwa [List.append_nil] at h
  | cons c cs ih =>
    obtain ⟨hc, hcs⟩ := List.forall_mem_cons.1 hcs
    constructor
    · rintro ⟨_, _, rfl, ⟨d, rfl, hd⟩, h⟩
      obtain ⟨first, more, rfl, hfold, h⟩ := (ih hcs).1 h
      rw [contains_folded_single hc] at hd
      refine ⟨d :: first, more, rfl, by rw [List.map_cons, List.map_cons, hd, hfold], ?_⟩
      rwa [List.append_assoc] at h
    · rintro ⟨first, more, rfl, hfold, h⟩
      cases first with
      | nil => cases hfold
      | cons d first =>
        obtain ⟨hd, hfold⟩ := List.cons.inj hfold
        refine ⟨[d], first ++ more, rfl, ⟨d, rfl, (contains_folded_single hc d).2 hd⟩, ?_⟩
        refine (ih hcs).2 ⟨first, more, rfl, hfold, ?_⟩
        rwa [List.append_assoc]

theorem language_textEnd {before piece after : List Char} :
    (Regex.cat (.look .textEnd) .empty).language before piece after ↔ piece = [] ∧ after = [] := by
  constructor
  · rintro ⟨_, _, rfl, ⟨rfl, hend⟩, rfl⟩
    refine ⟨rfl, ?_⟩
    rwa [List.nil_append, Look.holds, Option.isNone_iff_eq_none, List.head?_eq_none_iff] at hend
  · rintro ⟨rfl, rfl⟩
    exact ⟨[], [], rfl, ⟨rfl, rfl⟩, rfl⟩

/-- **A word at the end** is found in the texts that end in what folds as it does. -/
theorem isMatch_wordAtEnd {cs : List Char} (hcs : ∀ c ∈ cs, c.toNat < 128) (text : List Char) :
    (wordAtEnd cs).isMatch text = true ↔
      ∃ before last, text = before ++ last ∧ last.map fold = cs.map fold := by
  rw [isMatch_iff]
  simp only [wordAtEnd, language_word hcs, language_textEnd]
  constructor
  · rintro ⟨before, _, _, rfl, last, _, rfl, hfold, rfl, rfl⟩
    exact ⟨before, last, by simp, hfold⟩
  · rintro ⟨before, last, rfl, hfold⟩
    exact ⟨before, last, [], by simp, last, [], by simp, hfold, rfl, rfl⟩

/-- A word that is all of the text. -/
def wordAlone (cs : List Char) : Regex := .cat (.look .textStart) (wordAtEnd cs)

/-- **A word alone** is found in the texts that fold as it does. -/
theorem isMatch_wordAlone {cs : List Char} (hcs : ∀ c ∈ cs, c.toNat < 128) (text : List Char) :
    (wordAlone cs).isMatch text = true ↔ text.map fold = cs.map fold := by
  rw [isMatch_iff]
  constructor
  · rintro ⟨before, _, after, rfl, _, rest, rfl, ⟨rfl, hstart⟩, hword⟩
    obtain rfl : before = [] := by
      rwa [Look.holds, Option.isNone_iff_eq_none, List.getLast?_eq_none_iff] at hstart
    obtain ⟨last, _, rfl, hfold, hend⟩ := (language_word hcs _).1 hword
    obtain ⟨rfl, rfl⟩ := language_textEnd.1 hend
    simpa using hfold
  · intro hfold
    refine ⟨[], text, [], by simp, [], text, rfl, ⟨rfl, rfl⟩, ?_⟩
    exact (language_word hcs _).2 ⟨text, [], by simp, hfold, language_textEnd.2 ⟨rfl, rfl⟩⟩

end Regex

/-! ## Reading words -/

theorem toNat_lt_of_isAlphanum {c : Char} (h : c.isAlphanum = true) : c.toNat < 128 := by
  have hbound : ∀ {most : UInt32}, most.toNat < 128 → c.val ≤ most → c.toNat < 128 :=
    fun hmost hle => Nat.lt_of_le_of_lt (UInt32.le_iff_toNat_le.1 hle) hmost
  rcases Bool.or_eq_true_iff.1 h with halpha | hdigit
  · rcases Bool.or_eq_true_iff.1 halpha with hupper | hlower
    · exact hbound (by decide) (of_decide_eq_true hupper).2
    · exact hbound (by decide) (of_decide_eq_true (Bool.and_eq_true_iff.1 hlower).2)
  · exact hbound (by decide) (of_decide_eq_true (Bool.and_eq_true_iff.1 hdigit).2)

/-- **A letter or digit stands for itself.** -/
theorem readNext?_of_isAlphanum {c : Char} (h : c.isAlphanum = true) {p : Progress}
    (hflags : p.flags = .search) (cs : List Char) :
    readNext? p c cs = some (p.add (.leaf (.letter c)), cs) := by
  -- All other branches are about a certain character that is no letter or digit.
  unfold readNext?
  split
  all_goals try exact absurd h (by decide)
  unfold readLeaf?
  split
  all_goals try exact absurd h (by decide)
  rw [hflags]
  rfl

theorem readNext?_dot (p : Progress) (hflags : p.flags = .search) (cs : List Char) :
    readNext? p '\\' ('.' :: cs) = some (p.add (.leaf (.letter '.')), cs) := by
  obtain ⟨flags, names, group, outer⟩ := p
  obtain rfl : flags = .search := hflags
  rfl

theorem readNext?_end (p : Progress) (hflags : p.flags = .search) (cs : List Char) :
    readNext? p '$' cs = some (p.add (.leaf (.look .textEnd)), cs) := by
  obtain ⟨flags, names, group, outer⟩ := p
  obtain rfl : flags = .search := hflags
  rfl

/-- One more part is read. -/
theorem readAll?_cons {p q : Progress} {c : Char} {cs rest : List Char} {fuel : Nat}
    (hflags : p.flags = .search) (h : readNext? p c cs = some (q, rest)) :
    readAll? (fuel + 1) p (c :: cs) = readAll? fuel q rest := by
  have hskip : skipBlanks p.flags (c :: cs) = c :: cs := by rw [hflags]; rfl
  simp only [readAll?, hskip, h]

namespace Progress

/-- The letters of a word have been read. -/
def addWord (p : Progress) (cs : List Char) : Progress :=
  cs.foldl (fun p c => p.add (.leaf (.letter c))) p

theorem flags_addWord (p : Progress) (cs : List Char) : (p.addWord cs).flags = p.flags := by
  induction cs generalizing p with
  | nil => rfl
  | cons c cs ih => exact ih (p.add (.leaf (.letter c)))

theorem outer_addWord (p : Progress) (cs : List Char) : (p.addWord cs).outer = p.outer := by
  induction cs generalizing p with
  | nil => rfl
  | cons c cs ih => exact ih (p.add (.leaf (.letter c)))

theorem group_addWord (p : Progress) (cs : List Char) :
    (p.addWord cs).group =
      { p.group with items := (cs.map fun c => some (.leaf (.letter c))).reverse ++ p.group.items } := by
  induction cs generalizing p with
  | nil => rfl
  | cons c cs ih =>
    rw [List.map_cons, List.reverse_cons, List.append_assoc]
    exact ih (p.add (.leaf (.letter c)))

end Progress

theorem readAll?_word {cs : List Char} (hcs : ∀ c ∈ cs, c.isAlphanum = true) {p : Progress}
    (hflags : p.flags = .search) (fuel : Nat) (rest : List Char) :
    readAll? (fuel + cs.length) p (cs ++ rest) = readAll? fuel (p.addWord cs) rest := by
  induction cs generalizing p with
  | nil => rfl
  | cons c cs ih =>
    obtain ⟨hc, hcs⟩ := List.forall_mem_cons.1 hcs
    rw [List.cons_append, List.length_cons, ← Nat.add_assoc,
      readAll?_cons hflags (readNext?_of_isAlphanum hc hflags _)]
    exact ih hcs hflags

/-- Parts that hold no other parts, one after the other. -/
theorem sequence_leaves (a b : Regex) (rs : List Regex) :
    Term.sequence ((a :: b :: rs).map fun r => some (.leaf r)) =
      ⟨(a :: b :: rs).foldr Regex.cat Regex.empty, 1⟩ := by
  have hheight : ∀ rs : List Regex, rs.foldr (fun r h => max (Term.leaf r).height h) 0 = 0 := by
    intro rs
    induction rs with
    | nil => rfl
    | cons r rs ih => rw [List.foldr_cons, ih]; rfl
  rw [List.map_cons, List.map_cons, Term.sequence]
  · simp only [List.foldr_cons, List.foldr_map]
    exact congrArg (fun height => Term.mk _ (height + 1)) (hheight (a :: b :: rs))
  · intro h
    cases h
  · intro item h
    cases h

namespace Regex

theorem wordAtEnd_eq_foldr (cs : List Char) :
    wordAtEnd cs =
      (cs.map letter ++ [Regex.look .textEnd]).foldr Regex.cat Regex.empty := by
  rw [List.foldr_append, List.foldr_map]
  rfl

theorem weight_wordAtEnd {cs : List Char} (hcs : ∀ c ∈ cs, c.toNat < 128) :
    (wordAtEnd cs).weight = 72 * cs.length + 64 := by
  induction cs with
  | nil => rfl
  | cons c cs ih =>
    obtain ⟨hc, hcs⟩ := List.forall_mem_cons.1 hcs
    have hset : (CharSet.folded (.single c)).weight = 8 := if_pos hc
    show 64 + (CharSet.folded (.single c)).weight + (wordAtEnd cs).weight = _
    rw [ih hcs, hset, List.length_cons]
    omega

theorem readAll?_dotWord {cs : List Char} (hcs : ∀ c ∈ cs, c.isAlphanum = true) :
    readAll? (cs.length + 4) ⟨.search, [], .start .search, []⟩ ('\\' :: '.' :: (cs ++ ['$'])) =
      some ⟨wordAtEnd ('.' :: cs), 1⟩ := by
  let start : Progress := ⟨.search, [], .start .search, []⟩
  let dotted := start.add (.leaf (.letter '.'))
  let worded := dotted.addWord cs
  let ended := worded.add (.leaf (.look .textEnd))
  have hflags : worded.flags = .search := Progress.flags_addWord dotted cs
  have hgroup : worded.group =
      { dotted.group with
        items := (cs.map fun c => some (.leaf (.letter c))).reverse ++ dotted.group.items } :=
    Progress.group_addWord dotted cs
  have hread : readAll? (cs.length + 4) start ('\\' :: '.' :: (cs ++ ['$'])) =
      some ended.group.close := by
    rw [readAll?_cons rfl (readNext?_dot start rfl (cs ++ ['$'])), Nat.add_comm,
      readAll?_word hcs rfl, readAll?_cons hflags (readNext?_end worded hflags [])]
    have hskip : skipBlanks ended.flags [] = [] := by
      rw [show ended.flags = .search from hflags]
      rfl
    have houter : ended.outer = [] := Progress.outer_addWord dotted cs
    rw [readAll?, hskip, houter]
    rfl
  have hitems : ended.group.items.reverse =
      ((letter '.' :: cs.map letter) ++ [Regex.look .textEnd]).map fun r => some (.leaf r) := by
    show (some (.leaf (.look .textEnd)) :: worded.group.items).reverse = _
    rw [hgroup]
    simp [dotted, start, Progress.add, OpenGroup.add, OpenGroup.start]
  have hclose : ended.group.close = .sequence ended.group.items.reverse := by
    show Term.choice (.sequence ended.group.items.reverse :: worded.group.choices).reverse = _
    rw [hgroup]
    rfl
  rw [hread, hclose, hitems, wordAtEnd_eq_foldr]
  cases cs with
  | nil => exact congrArg some (sequence_leaves _ _ _)
  | cons c cs => exact congrArg some (sequence_leaves _ _ _)

/-- **Reading a dot, a word and the end of the text.**  Such a pattern is read unless
its weight is too great. -/
theorem parse?_dotWord {cs : List Char} (hcs : ∀ c ∈ cs, c.isAlphanum = true) :
    Regex.parse? (String.ofList ('\\' :: '.' :: (cs ++ ['$']))) =
      if 72 * (cs.length + 1) + 64 ≤ greatestWeight then some (wordAtEnd ('.' :: cs)) else none := by
  have hascii : ∀ c ∈ '.' :: cs, c.toNat < 128 :=
    List.forall_mem_cons.2 ⟨by decide, fun c hc => toNat_lt_of_isAlphanum (hcs c hc)⟩
  have hlength : ('\\' :: '.' :: (cs ++ ['$'])).length + 1 = cs.length + 4 := by
    simp only [List.length_append, List.length_cons, List.length_nil]
  have hweight := weight_wordAtEnd hascii
  rw [List.length_cons] at hweight
  rw [Regex.parse?, String.toList_ofList, hlength, readAll?_dotWord hcs]
  show (if (decide (1 ≤ greatestHeight) && decide ((wordAtEnd ('.' :: cs)).weight ≤ greatestWeight))
    then some (wordAtEnd ('.' :: cs)) else none) = _
  rw [hweight, decide_eq_true (by decide : 1 ≤ greatestHeight), Bool.true_and]
  simp only [decide_eq_true_eq]

end Regex

end NoteVault.Pattern
