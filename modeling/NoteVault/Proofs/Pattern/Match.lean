import Mathlib.Data.List.Basic
import Mathlib.Logic.Function.Iterate
import NoteVault.Pattern.Regex

/-!
# What patterns match

A pattern stands for a language: it says which pieces of text belong to it, between
what stands before them and what follows (`Regex.language`).  Matching carries sets of
places through the pattern instead, all places at once, and cuts repetitions off after
as many rounds as the text has places.  Both come to the same: a pattern matches a text
exactly where a piece of the text belongs to its language (`Regex.isMatch_iff`).

The rounds suffice because of repetitions with more rounds than characters some
round takes no character, and such a round can be left out or done once more
(`Language.times_of_lt`).
-/

namespace NoteVault.Pattern

/-! ## Languages -/

/-- A language: whether a piece of text belongs to it, between the text before the piece
and the text after it. -/
abbrev Language := List Char → List Char → List Char → Prop

namespace Language

/-- The empty text. -/
def nothing : Language := fun _ piece _ => piece = []

/-- The characters of a set. -/
def one (s : CharSet) : Language := fun _ piece _ => ∃ c, piece = [c] ∧ s.contains c = true

/-- The empty text at a place where a condition holds. -/
def place (l : Look) : Language := fun before piece after =>
  piece = [] ∧ l.holds before.getLast? after.head? = true

/-- A piece of one language and behind it one of another. -/
def cat (L M : Language) : Language := fun before piece after =>
  ∃ first rest, piece = first ++ rest ∧ L before first (rest ++ after) ∧
    M (before ++ first) rest after

/-- A piece of one of two languages. -/
def either (L M : Language) : Language := fun before piece after =>
  L before piece after ∨ M before piece after

/-- A number of pieces of a language, one behind the other. -/
def times (L : Language) : Nat → Language
  | 0 => nothing
  | n + 1 => L.cat (L.times n)

/-- Pieces of a language, one behind the other, their number between two bounds; there
is always room for the least number. -/
def repeated (L : Language) (least : Nat) (most : Option Nat) : Language :=
  fun before piece after =>
    ∃ n, least ≤ n ∧ (∀ m ∈ most, n ≤ max least m) ∧ L.times n before piece after

end Language

/-- **The language of a pattern.** -/
def Regex.language : Regex → Language
  | .empty => .nothing
  | .set s => .one s
  | .look l => .place l
  | .cat a b => a.language.cat b.language
  | .alt a b => a.language.either b.language
  | .repeated r least most => r.language.repeated least most

namespace Language

variable {L M : Language} {before piece after : List Char}

theorem nothing_cat : (nothing.cat L) before piece after ↔ L before piece after := by
  constructor
  · rintro ⟨first, rest, rfl, rfl, h⟩
    rwa [List.append_nil] at h
  · intro h
    exact ⟨[], piece, rfl, rfl, by rwa [List.append_nil]⟩

theorem cat_assoc (N : Language) :
    ((L.cat M).cat N) before piece after ↔ (L.cat (M.cat N)) before piece after := by
  constructor
  · rintro ⟨_, third, rfl, ⟨first, second, rfl, hfirst, hsecond⟩, hthird⟩
    rw [← List.append_assoc] at hfirst hthird
    rw [List.append_assoc]
    exact ⟨first, second ++ third, rfl, hfirst, second, third, rfl, hsecond, hthird⟩
  · rintro ⟨first, _, rfl, hfirst, second, third, rfl, hsecond, hthird⟩
    rw [List.append_assoc] at hfirst hthird
    exact ⟨first ++ second, third, (List.append_assoc _ _ _).symm,
      ⟨first, second, rfl, hfirst, hsecond⟩, hthird⟩

theorem cat_congr_right {N : Language}
    (h : ∀ before piece after, M before piece after ↔ N before piece after) :
    (L.cat M) before piece after ↔ (L.cat N) before piece after := by
  have heq : M = N := funext fun b => funext fun p => funext fun a => propext (h b p a)
  rw [heq]

theorem times_add (m n : Nat) :
    L.times (m + n) before piece after ↔ ((L.times m).cat (L.times n)) before piece after := by
  induction m generalizing before piece after with
  | zero => rw [Nat.zero_add]; exact nothing_cat.symm
  | succ m ih =>
    rw [Nat.succ_add]
    exact (cat_congr_right fun _ _ _ => ih).trans (cat_assoc _).symm

/-! ## Rounds that take no character -/

/-- Of more rounds than characters, one round more can be done. -/
theorem times_succ_of_lt {n : Nat} (hlt : piece.length < n) (h : L.times n before piece after) :
    L.times (n + 1) before piece after := by
  induction n generalizing before piece with
  | zero => exact absurd hlt (Nat.not_lt_zero _)
  | succ n ih =>
    obtain ⟨first, rest, rfl, hfirst, hrest⟩ := h
    cases first with
    | nil =>
      -- The first round takes nothing, so it can be done twice.
      refine ⟨[], rest, rfl, hfirst, ?_⟩
      rw [List.append_nil] at hrest ⊢
      exact ⟨[], rest, rfl, hfirst, by rwa [List.append_nil]⟩
    | cons c first =>
      rw [List.length_append, List.length_cons] at hlt
      exact ⟨c :: first, rest, rfl, hfirst, ih (by omega) hrest⟩

/-- Of more rounds than characters, one round can be left out. -/
theorem times_of_succ {n : Nat} (hle : piece.length ≤ n)
    (h : L.times (n + 1) before piece after) : L.times n before piece after := by
  induction n generalizing before piece with
  | zero =>
    obtain rfl := List.length_eq_zero_iff.1 (Nat.le_zero.1 hle)
    rfl
  | succ n ih =>
    obtain ⟨first, rest, rfl, hfirst, hrest⟩ := h
    cases first with
    | nil => rwa [List.append_nil] at hrest
    | cons c first =>
      rw [List.length_append, List.length_cons] at hle
      exact ⟨c :: first, rest, rfl, hfirst, ih (by omega) hrest⟩

/-- **More rounds than characters**: how many they are makes no difference. -/
theorem times_of_lt {m n : Nat} (hm : piece.length < m) (hn : piece.length < n)
    (h : L.times m before piece after) : L.times n before piece after := by
  have hup : ∀ k, L.times (m + k) before piece after := by
    intro k
    induction k with
    | zero => exact h
    | succ k ih => exact times_succ_of_lt (Nat.lt_add_right k hm) ih
  have hdown : ∀ k, L.times (n + k) before piece after → L.times n before piece after := by
    intro k
    induction k with
    | zero => exact id
    | succ k ih => exact fun hk => ih (times_of_succ (by omega) hk)
  refine hdown m ?_
  rw [Nat.add_comm]
  exact hup n

/-- Rounds that may be passed over are rounds of which some are done. -/
theorem times_either_nothing (k : Nat) :
    (nothing.either L).times k before piece after ↔
      ∃ n ≤ k, L.times n before piece after := by
  induction k generalizing before piece after with
  | zero =>
    constructor
    · exact fun h => ⟨0, Nat.le_refl 0, h⟩
    · rintro ⟨n, hn, h⟩
      obtain rfl := Nat.le_zero.1 hn
      exact h
  | succ k ih =>
    constructor
    · rintro ⟨first, rest, rfl, hfirst, hrest⟩
      obtain ⟨n, hn, hrest⟩ := ih.1 hrest
      rcases hfirst with rfl | hfirst
      · rw [List.append_nil] at hrest
        exact ⟨n, Nat.le_succ_of_le hn, hrest⟩
      · exact ⟨n + 1, Nat.succ_le_succ hn, first, rest, rfl, hfirst, hrest⟩
    · rintro ⟨n, hn, h⟩
      cases n with
      | zero =>
        refine ⟨[], piece, rfl, Or.inl rfl, ih.2 ⟨0, Nat.zero_le k, ?_⟩⟩
        rw [List.append_nil]
        exact h
      | succ n =>
        obtain ⟨first, rest, rfl, hfirst, hrest⟩ := h
        exact ⟨first, rest, rfl, Or.inr hfirst, ih.2 ⟨n, Nat.le_of_succ_le_succ hn, hrest⟩⟩

/-- Rounds that have to be done, and then such that may be passed over. -/
theorem times_cat_times_either (required optional : Nat) :
    ((L.times required).cat ((nothing.either L).times optional)) before piece after ↔
      ∃ n ≤ optional, L.times (required + n) before piece after := by
  constructor
  · rintro ⟨first, rest, rfl, hfirst, hrest⟩
    obtain ⟨n, hn, hrest⟩ := (times_either_nothing optional).1 hrest
    exact ⟨n, hn, (times_add required n).2 ⟨first, rest, rfl, hfirst, hrest⟩⟩
  · rintro ⟨n, hn, h⟩
    obtain ⟨first, rest, rfl, hfirst, hrest⟩ := (times_add required n).1 h
    exact ⟨first, rest, rfl, hfirst, (times_either_nothing optional).2 ⟨n, hn, hrest⟩⟩

/-- **The rounds of a text suffice** for a piece of it: first those that have to be
done, then those that may be. -/
theorem repeated_iff_rounds {rounds least : Nat} {most : Option Nat}
    (hpiece : piece.length < rounds) :
    L.repeated least most before piece after ↔
      ((L.times (min least rounds)).cat
        ((nothing.either L).times (most.elim rounds fun m => min (m - least) rounds)))
        before piece after := by
  rw [times_cat_times_either]
  constructor
  · rintro ⟨n, hleast, hmost, h⟩
    -- Where the number is out of reach, so many rounds are done that it does not matter.
    cases most with
    | none =>
      show ∃ k ≤ rounds, _
      by_cases hn : n ≤ min least rounds + rounds
      · by_cases hrounds : least ≤ rounds
        · refine ⟨n - least, by omega, ?_⟩
          rwa [Nat.min_eq_left hrounds, Nat.add_sub_cancel' hleast]
        · exact ⟨0, Nat.zero_le _, times_of_lt (by omega) (by omega) h⟩
      · exact ⟨rounds, Nat.le_refl _, times_of_lt (by omega) (by omega) h⟩
    | some m =>
      have hm : n ≤ max least m := hmost m rfl
      show ∃ k ≤ min (m - least) rounds, _
      by_cases hrounds : least ≤ rounds
      · by_cases hn : n - least ≤ rounds
        · refine ⟨n - least, by omega, ?_⟩
          rwa [Nat.min_eq_left hrounds, Nat.add_sub_cancel' hleast]
        · exact ⟨rounds, by omega, times_of_lt (by omega) (by omega) h⟩
      · exact ⟨0, Nat.zero_le _, times_of_lt (by omega) (by omega) h⟩
  · rintro ⟨k, hk, h⟩
    by_cases hrounds : least ≤ rounds
    · rw [Nat.min_eq_left hrounds] at h
      refine ⟨least + k, Nat.le_add_right _ _, fun m hm => ?_, h⟩
      obtain rfl := Option.mem_def.1 hm
      have hk : k ≤ min (m - least) rounds := hk
      omega
    · exact ⟨least, Nat.le_refl _, fun m _ => Nat.le_max_left _ _,
        times_of_lt (by omega) (by omega) h⟩

end Language

/-! ## Places -/

/-- Whether a set of places holds a place. -/
def At (places : List Bool) (i : Nat) : Prop := places[i]? = some true

/-- **A step carries a language** through a text: from any set of places it goes to the
places behind the pieces of the language that begin there. -/
structure Carries (text : List Char) (step : List Bool → List Bool) (L : Language) : Prop where
  length_step : ∀ places : List Bool, places.length = text.length + 1 →
    (step places).length = text.length + 1
  at_step : ∀ places : List Bool, places.length = text.length + 1 →
    ∀ upto after, text = upto ++ after →
      (At (step places) upto.length ↔
        ∃ before piece, upto = before ++ piece ∧ At places before.length ∧
          L before piece after)

namespace Carries

variable {text : List Char} {f g : List Bool → List Bool} {L M : Language}

/-- Only pieces of the text matter. -/
theorem congr (h : Carries text f L)
    (hiff : ∀ before piece after, text = before ++ piece ++ after →
      (L before piece after ↔ M before piece after)) : Carries text f M where
  length_step := h.length_step
  at_step := by
    intro places hplaces upto after htext
    rw [h.at_step places hplaces upto after htext]
    constructor
    all_goals
      rintro ⟨before, piece, rfl, hat, hpiece⟩
      refine ⟨before, piece, rfl, hat, ?_⟩
    · exact (hiff before piece after htext).1 hpiece
    · exact (hiff before piece after htext).2 hpiece

theorem nothing (text : List Char) : Carries text id .nothing where
  length_step := fun _ h => h
  at_step := by
    intro places _ upto after _
    constructor
    · exact fun h => ⟨upto, [], (List.append_nil upto).symm, h, rfl⟩
    · rintro ⟨before, piece, rfl, h, rfl⟩
      rwa [List.append_nil]

theorem comp (hf : Carries text f L) (hg : Carries text g M) :
    Carries text (g ∘ f) (L.cat M) where
  length_step := fun places h => hg.length_step _ (hf.length_step places h)
  at_step := by
    intro places hplaces upto after htext
    rw [Function.comp_apply, hg.at_step _ (hf.length_step places hplaces) upto after htext]
    constructor
    · rintro ⟨middle, rest, rfl, hmiddle, hrest⟩
      rw [List.append_assoc] at htext
      obtain ⟨before, first, rfl, hat, hfirst⟩ :=
        (hf.at_step places hplaces middle (rest ++ after) htext).1 hmiddle
      exact ⟨before, first ++ rest, List.append_assoc _ _ _, hat, first, rest, rfl, hfirst, hrest⟩
    · rintro ⟨before, _, rfl, hat, first, rest, rfl, hfirst, hrest⟩
      rw [← List.append_assoc, List.append_assoc] at htext
      exact ⟨before ++ first, rest, (List.append_assoc _ _ _).symm,
        (hf.at_step places hplaces _ (rest ++ after) htext).2 ⟨before, first, rfl, hat, hfirst⟩,
        hrest⟩

theorem at_eitherPlace {a b : List Bool} (h : a.length = b.length) (i : Nat) :
    At (Regex.eitherPlace a b) i ↔ At a i ∨ At b i := by
  unfold At Regex.eitherPlace
  rw [List.getElem?_zipWith]
  by_cases hi : i < a.length
  · rw [List.getElem?_eq_getElem hi, List.getElem?_eq_getElem (h ▸ hi)]
    simp
  · rw [List.getElem?_eq_none (Nat.not_lt.1 hi), List.getElem?_eq_none (h ▸ Nat.not_lt.1 hi)]
    simp

theorem either (hf : Carries text f L) (hg : Carries text g M) :
    Carries text (fun places => Regex.eitherPlace (f places) (g places)) (L.either M) where
  length_step := by
    intro places h
    rw [Regex.eitherPlace, List.length_zipWith, hf.length_step places h, hg.length_step places h,
      Nat.min_self]
  at_step := by
    intro places h upto after htext
    rw [at_eitherPlace ((hf.length_step places h).trans (hg.length_step places h).symm),
      hf.at_step places h upto after htext, hg.at_step places h upto after htext]
    constructor
    · rintro (⟨before, piece, heq, hat, hpiece⟩ | ⟨before, piece, heq, hat, hpiece⟩)
      · exact ⟨before, piece, heq, hat, Or.inl hpiece⟩
      · exact ⟨before, piece, heq, hat, Or.inr hpiece⟩
    · rintro ⟨before, piece, heq, hat, hpiece | hpiece⟩
      · exact Or.inl ⟨before, piece, heq, hat, hpiece⟩
      · exact Or.inr ⟨before, piece, heq, hat, hpiece⟩

/-- Stopping early makes no difference. -/
theorem iterate_eq (step : List Bool → List Bool) (n : Nat) (places : List Bool) :
    Regex.iterate step n places = step^[n] places := by
  induction n generalizing places with
  | zero => rfl
  | succ n ih =>
    rw [Regex.iterate, Function.iterate_succ_apply]
    by_cases hfixed : step places = places
    · rw [if_pos hfixed, hfixed, Function.iterate_fixed hfixed]
    · rw [if_neg hfixed, ih]

theorem iterate (h : Carries text f L) (n : Nat) :
    Carries text (Regex.iterate f n) (L.times n) := by
  rw [show Regex.iterate f n = f^[n] from funext (iterate_eq f n)]
  induction n with
  | zero => exact nothing text
  | succ n ih =>
    rw [Function.iterate_succ]
    exact h.comp ih

end Carries

namespace Regex

variable {text : List Char}

theorem advance_eq_zipWith (s : CharSet) (cs : List Char) (places : List Bool) :
    advance s cs places = List.zipWith (fun c here => here && s.contains c) cs places := by
  induction cs generalizing places with
  | nil => cases places <;> rfl
  | cons c cs ih =>
    cases places with
    | nil => rfl
    | cons here places => rw [advance, ih, List.zipWith_cons_cons]

theorem carries_set (text : List Char) (s : CharSet) :
    Carries text (fun places => false :: advance s text places) (.one s) where
  length_step := by
    intro places h
    rw [List.length_cons, advance_eq_zipWith, List.length_zipWith, h]
    omega
  at_step := by
    intro places h upto after htext
    rcases List.eq_nil_or_concat upto with rfl | ⟨before, c, rfl⟩
    · constructor
      · exact fun hat => absurd hat (by simp [At])
      · rintro ⟨before, piece, heq, -, c, rfl, -⟩
        exact absurd heq.symm (List.append_ne_nil_of_right_ne_nil _ (List.cons_ne_nil c []))
    · rw [List.concat_eq_append] at htext ⊢
      have hchar : text[before.length]? = some c := by
        rw [htext, List.append_assoc, List.getElem?_append_right (Nat.le_refl _), Nat.sub_self]
        rfl
      have hat : At (false :: advance s text places) (before ++ [c]).length ↔
          At places before.length ∧ s.contains c = true := by
        unfold At
        rw [List.length_append, List.length_singleton, List.getElem?_cons_succ,
          advance_eq_zipWith, List.getElem?_zipWith, hchar]
        cases places[before.length]? <;> simp
      rw [hat]
      constructor
      · exact fun ⟨hplace, hc⟩ => ⟨before, [c], rfl, hplace, c, rfl, hc⟩
      · rintro ⟨other, piece, heq, hplace, d, rfl, hd⟩
        obtain ⟨rfl, hlast⟩ := List.append_inj' heq rfl
        obtain rfl := (List.cons.inj hlast).1
        exact ⟨hplace, hd⟩

theorem length_keepWhere (l : Look) (before : Option Char) (cs : List Char)
    (places : List Bool) : (keepWhere l before cs places).length = places.length := by
  induction places generalizing before cs with
  | nil => cases cs <;> rfl
  | cons here places ih =>
    cases cs with
    | nil => rfl
    | cons c cs => exact congrArg (· + 1) (ih (some c) cs)

theorem at_keepWhere (l : Look) (before : Option Char) (upto after : List Char)
    (places : List Bool) :
    At (keepWhere l before (upto ++ after) places) upto.length ↔
      At places upto.length ∧ l.holds (upto.getLast?.or before) after.head? = true := by
  -- On the characters before the place; the last one passed stands before the next one.
  induction upto generalizing before places with
  | nil =>
    cases places with
    | nil => simp [At, keepWhere]
    | cons here places => cases after <;> simp [At, keepWhere]
  | cons c upto ih =>
    cases places with
    | nil => simp [At, keepWhere]
    | cons here places =>
      have hlast : (c :: upto).getLast?.or before = upto.getLast?.or (some c) := by
        rw [List.getLast?_cons]
        cases upto.getLast? <;> rfl
      rw [hlast]
      exact ih (some c) places

theorem carries_look (text : List Char) (l : Look) :
    Carries text (keepWhere l none text) (.place l) where
  length_step := fun places h => (length_keepWhere l none text places).trans h
  at_step := by
    intro places _ upto after htext
    rw [htext, at_keepWhere, Option.or_none]
    constructor
    · exact fun ⟨hat, hholds⟩ => ⟨upto, [], (List.append_nil _).symm, hat, rfl, hholds⟩
    · rintro ⟨before, piece, rfl, hat, rfl, hholds⟩
      rw [List.append_nil]
      exact ⟨hat, hholds⟩

/-- **Matching carries the language of a pattern.** -/
theorem carries_ends (text : List Char) (r : Regex) : Carries text (ends text r) r.language := by
  induction r with
  | empty => exact Carries.nothing text
  | set s => exact carries_set text s
  | look l => exact carries_look text l
  | cat a b iha ihb => exact iha.comp ihb
  | alt a b iha ihb => exact iha.either ihb
  | repeated r least most ih =>
    have hrounds : Carries text (ends text (.repeated r least most))
        ((r.language.times (min least (text.length + 1))).cat
          ((Language.nothing.either r.language).times
            (most.elim (text.length + 1) fun m => min (m - least) (text.length + 1)))) := by
      have hboth := (ih.iterate (min least (text.length + 1))).comp
        (((Carries.nothing text).either ih).iterate
          (most.elim (text.length + 1) fun m => min (m - least) (text.length + 1)))
      cases most <;> exact hboth
    refine hrounds.congr fun before piece after htext => ?_
    have hpiece : piece.length < text.length + 1 := by
      rw [htext, List.length_append, List.length_append]
      omega
    exact (Language.repeated_iff_rounds hpiece).symm

/-- **A pattern matches a text** exactly if a piece of the text belongs to its
language. -/
theorem isMatch_iff (r : Regex) (text : List Char) :
    r.isMatch text = true ↔
      ∃ before piece after, text = before ++ piece ++ after ∧ r.language before piece after := by
  have hcarries := carries_ends text r
  have hlength : (List.replicate (text.length + 1) true).length = text.length + 1 :=
    List.length_replicate
  have hall : ∀ before : List Char, before.length ≤ text.length →
      At (List.replicate (text.length + 1) true) before.length := by
    intro before hle
    exact List.getElem?_replicate_of_lt (Nat.lt_succ_of_le hle)
  have hany : r.isMatch text = true ↔
      ∃ i, At (ends text r (List.replicate (text.length + 1) true)) i := by
    rw [isMatch, List.any_eq_true]
    constructor
    · rintro ⟨here, hmem, hhere⟩
      obtain ⟨i, hi⟩ := List.mem_iff_getElem?.1 hmem
      exact ⟨i, hi.trans (congrArg some hhere)⟩
    · exact fun ⟨i, hi⟩ => ⟨true, List.mem_of_getElem? hi, rfl⟩
  rw [hany]
  constructor
  · rintro ⟨i, hi⟩
    have hlt : i < text.length + 1 := by
      rw [← hcarries.length_step _ hlength]
      exact (List.getElem?_eq_some_iff.1 hi).1
    have hupto : (text.take i).length = i := List.length_take_of_le (by omega)
    rw [← hupto, hcarries.at_step _ hlength _ _ (List.take_append_drop i text).symm] at hi
    obtain ⟨before, piece, htake, -, hpiece⟩ := hi
    refine ⟨before, piece, text.drop i, ?_, hpiece⟩
    rw [← htake, List.take_append_drop]
  · rintro ⟨before, piece, after, htext, hpiece⟩
    refine ⟨(before ++ piece).length, ?_⟩
    refine (hcarries.at_step _ hlength _ _ htext).2 ⟨before, piece, rfl, hall before ?_, hpiece⟩
    rw [htext, List.append_assoc, List.length_append]
    exact Nat.le_add_right _ _

end Regex

end NoteVault.Pattern
