import Mathlib.Data.List.TakeWhile
import NoteVault.Proofs.Text.Pieces
import NoteVault.Vault.Open

/-!
# Paths as segments

A path may have several slashes in a row and single dots between them.  What it says are
its segments, the rest of its pieces.  They do not change when gaps are dropped at its
beginning or at its end (`segments_skipGaps`, `segments_dropEndGaps`), and the segments
of a path below a folder are those of the folder and those of the path
(`segments_joinPath`).

So a path leads below the folder of a vault exactly when its segments begin with the
names of this folder, and what is left of it has the segments behind them
(`Vault.exists_below?`).
-/

namespace NoteVault

open Text

/-! ## Segments -/

theorem segments_nil : segments [] = [] := rfl

/-- The segments of two paths with a slash between them. -/
theorem segments_append (a b : List Char) :
    segments (a ++ '/' :: b) = segments a ++ segments b := by
  rw [segments, pieces_append_cons, List.filter_append]
  rfl

theorem segments_slash_cons (cs : List Char) : segments ('/' :: cs) = segments cs :=
  segments_append [] cs

theorem segments_dot_slash_cons (cs : List Char) : segments ('.' :: '/' :: cs) = segments cs :=
  segments_append ['.'] cs

/-- A name can stand as a segment of a path. -/
structure IsName (name : List Char) : Prop where
  no_slash : '/' ∉ name
  ne_nil : name ≠ []
  ne_dot : name ≠ ['.']

theorem IsName.kept {name : List Char} (h : IsName name) :
    (!name.isEmpty && name != ['.']) = true := by
  rw [Bool.and_eq_true, Bool.not_eq_true', List.isEmpty_eq_false_iff, bne_iff_ne]
  exact ⟨h.ne_nil, h.ne_dot⟩

theorem segments_intercalate {names : List (List Char)} (h : ∀ name ∈ names, IsName name) :
    segments (['/'].intercalate names) = names := by
  by_cases hne : names = []
  · subst hne
    rfl
  · rw [segments, pieces_intercalate hne fun name hname => (h name hname).no_slash]
    exact List.filter_eq_self.2 fun name hname => (h name hname).kept

theorem IsName.segments {name : List Char} (h : IsName name) : segments name = [name] := by
  rw [NoteVault.segments, pieces_of_not_mem h.no_slash]
  exact List.filter_eq_self.2 (List.forall_mem_singleton.2 h.kept)

/-- The segments of the path along names from the root are the names. -/
theorem segments_absolutePath {names : List String} (h : ∀ name ∈ names, IsName name.toList) :
    segments (absolutePath names).toList = names.map String.toList := by
  rw [absolutePath, joinWith, String.toList_append, String.toList_intercalate]
  show segments ('/' :: ['/'].intercalate (names.map String.toList)) = _
  rw [segments_slash_cons, segments_intercalate]
  rw [List.forall_mem_map]
  exact h

/-- **A path below a folder** has the segments of both. -/
theorem segments_joinPath {folder path : String} (h : isAbsolute path = false) :
    segments (joinPath folder path).toList = segments folder.toList ++ segments path.toList := by
  rw [joinPath]
  by_cases hfolder : folder = ""
  · subst hfolder
    rw [if_pos (.inr rfl)]
    rfl
  · rw [if_neg (by simp [h, hfolder])]
    by_cases hslash : folder.toList.getLast? = some '/'
    · obtain ⟨front, hfront⟩ := List.getLast?_eq_some_iff.1 hslash
      rw [if_pos hslash, String.toList_append, hfront, List.append_assoc, List.singleton_append,
        segments_append, segments_append, segments_nil, List.append_nil]
    · rw [if_neg hslash, String.toList_append, String.toList_append, List.append_assoc]
      exact segments_append _ _

/-! ## Gaps -/

namespace Vault

theorem segments_skipGaps (cs : List Char) : segments (skipGaps cs) = segments cs := by
  fun_induction skipGaps cs with
  | case1 cs ih => rw [ih, segments_slash_cons]
  | case2 => rfl
  | case3 cs ih => rw [ih, segments_dot_slash_cons]
  | case4 => rfl

theorem segments_dropEndGaps (cs : List Char) : segments (dropEndGaps cs) = segments cs := by
  have hreverse : ∀ rs, segments (skipGaps rs).reverse = segments rs.reverse := by
    intro rs
    fun_induction skipGaps rs with
    | case1 rs ih => rw [ih, List.reverse_cons, segments_append, segments_nil, List.append_nil]
    | case2 => rfl
    | case3 rs ih =>
      rw [ih, List.reverse_cons, List.reverse_cons, List.append_assoc]
      exact ((segments_append _ ['.']).trans (List.append_nil _)).symm
    | case4 => rfl
  rw [dropEndGaps, hreverse, List.reverse_reverse]

/-- A path begins with a name, not with a slash or a single dot; or it is empty. -/
structure PlainStart (path : List Char) : Prop where
  ne_slash : ∀ rest, path ≠ '/' :: rest
  ne_dot : path ≠ ['.']
  ne_dot_slash : ∀ rest, path ≠ '.' :: '/' :: rest

theorem plainStart_skipGaps (cs : List Char) : PlainStart (skipGaps cs) := by
  fun_induction skipGaps cs with
  | case1 cs ih => exact ih
  | case2 => exact ⟨nofun, nofun, nofun⟩
  | case3 cs ih => exact ih
  | case4 cs hslash hdot hdotSlash => exact ⟨hslash, hdot, hdotSlash⟩

/-- Nothing is left to drop exactly where a path has a plain start. -/
theorem skipGaps_eq_self_iff {cs : List Char} : skipGaps cs = cs ↔ PlainStart cs := by
  constructor
  · intro h
    rw [← h]
    exact plainStart_skipGaps cs
  · intro h
    fun_cases skipGaps cs with
    | case1 cs => exact absurd rfl (h.ne_slash cs)
    | case2 => exact absurd rfl h.ne_dot
    | case3 cs => exact absurd rfl (h.ne_dot_slash cs)
    | case4 => rfl

instance (path : List Char) : Decidable (PlainStart path) :=
  decidable_of_iff (skipGaps path = path) skipGaps_eq_self_iff

theorem skipGaps_suffix (cs : List Char) : skipGaps cs <:+ cs := by
  fun_induction skipGaps cs with
  | case1 cs ih => exact ih.trans (List.suffix_cons _ _)
  | case2 => exact List.nil_suffix
  | case3 cs ih => exact ih.trans ((List.suffix_cons _ _).trans (List.suffix_cons _ _))
  | case4 => exact List.suffix_refl _

theorem dropEndGaps_prefix (cs : List Char) : dropEndGaps cs <+: cs := by
  rw [dropEndGaps, ← List.reverse_suffix, List.reverse_reverse]
  exact skipGaps_suffix _

/-- Dropping gaps at the end does not lay bare any at the beginning. -/
theorem PlainStart.dropEndGaps {cs : List Char} (h : PlainStart cs) :
    PlainStart (dropEndGaps cs) := by
  obtain ⟨behind, hcs⟩ := dropEndGaps_prefix cs
  refine ⟨fun rest hrest => ?_, fun hdot => ?_, fun rest hrest => ?_⟩
  · exact h.ne_slash (rest ++ behind) (by rw [← hcs, hrest]; rfl)
  · -- A dot alone would be a gap, read from either side.
    have hreverse : skipGaps cs.reverse = ['.'] := List.reverse_eq_iff.1 hdot
    exact (plainStart_skipGaps cs.reverse).ne_dot hreverse
  · exact h.ne_dot_slash (rest ++ behind) (by rw [← hcs, hrest]; rfl)

/-! ## Paths below a vault -/

/-- The first segment of a path reaches up to the first slash. -/
theorem segments_eq_takeWhile_append (cs : List Char) :
    segments cs = segments (cs.takeWhile (· ≠ '/')) ++ segments (cs.dropWhile (· ≠ '/')) := by
  have hcs : cs.takeWhile (· ≠ '/') ++ cs.dropWhile (· ≠ '/') = cs :=
    List.takeWhile_append_dropWhile
  cases hbehind : cs.dropWhile (· ≠ '/') with
  | nil =>
    rw [hbehind, List.append_nil] at hcs
    rw [hcs, segments_nil, List.append_nil]
  | cons c behind =>
    have hslash : c = '/' := by
      have hhead := List.head?_dropWhile_not (· ≠ '/') cs
      rw [hbehind] at hhead
      simpa using hhead
    subst hslash
    rw [hbehind] at hcs
    conv => lhs; rw [← hcs]
    rw [segments_append, segments_slash_cons]

theorem isName_takeWhile {cs : List Char} (h : PlainStart cs) (hne : cs ≠ []) :
    IsName (cs.takeWhile (· ≠ '/')) := by
  cases cs with
  | nil => exact absurd rfl hne
  | cons c cs =>
    have hc : c ≠ '/' := fun hc => h.ne_slash cs (by rw [hc])
    rw [List.takeWhile_cons, if_pos (by simpa using hc)]
    refine ⟨fun hmem => ?_, List.cons_ne_nil _ _, fun hdot => ?_⟩
    · rcases List.mem_cons.1 hmem with heq | hmem
      · exact hc heq.symm
      · simpa using List.mem_takeWhile_imp hmem
    · obtain ⟨rfl, hnil⟩ := List.cons.inj hdot
      cases cs with
      | nil => exact h.ne_dot rfl
      | cons d cs =>
        rw [List.takeWhile_cons] at hnil
        by_cases hd : d = '/'
        · exact h.ne_dot_slash cs (by rw [hd])
        · rw [if_pos (by simpa using hd)] at hnil
          exact List.cons_ne_nil _ _ hnil

/-- Names are taken off a path when its segments begin with them. -/
theorem exists_stripNames? {names : List String} {cs : List Char} {inside : List (List Char)}
    (h : segments cs = names.map String.toList ++ inside) :
    ∃ rest, stripNames? names cs = some rest ∧ segments rest = inside ∧ PlainStart rest := by
  induction names generalizing cs with
  | nil => exact ⟨_, rfl, (segments_skipGaps cs).trans h, plainStart_skipGaps cs⟩
  | cons name names ih =>
    have hplain := plainStart_skipGaps cs
    rw [← segments_skipGaps] at h
    have hne : skipGaps cs ≠ [] := fun hnil => by
      rw [hnil] at h
      exact List.cons_ne_nil _ _ h.symm
    rw [segments_eq_takeWhile_append, (isName_takeWhile hplain hne).segments] at h
    obtain ⟨hname, hrest⟩ := List.cons.inj h
    obtain ⟨rest, hstrip, hsegments, hstart⟩ := ih hrest
    refine ⟨rest, ?_, hsegments, hstart⟩
    rw [stripNames?]
    exact (if_pos hname).trans hstrip

/-- **What is left of a path below a vault** has the segments behind the names of the
vault, and begins with one of them. -/
theorem exists_below? {vault : Vault} {path : String} {inside : List (List Char)}
    (habsolute : isAbsolute path = true)
    (h : segments path.toList = vault.root.map String.toList ++ inside) :
    ∃ rest, vault.below? path = some rest ∧ segments rest = inside ∧ PlainStart rest := by
  obtain ⟨rest, hstrip, hsegments, hstart⟩ := exists_stripNames? h
  refine ⟨dropEndGaps rest, ?_, (segments_dropEndGaps rest).trans hsegments, hstart.dropEndGaps⟩
  rw [below?, if_pos habsolute, hstrip]
  rfl

end Vault

end NoteVault
