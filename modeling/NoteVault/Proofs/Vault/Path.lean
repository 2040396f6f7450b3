import Mathlib.Data.List.Basic
import NoteVault.Proofs.Vault.Segments

/-!
# Paths inside a vault

The names along a path are its pieces without the empty ones and single dots
(`location_eq_filter`).  A text is read as a path inside a vault if it does not begin at
the root, never goes up and names something (`StaysInside`); what is read are its names
with single slashes between them, and in all other cases there is a fault
(`vaultPath_eq`).

So a path inside a vault has one form (`vaultPath_normalizes`): its pieces are the names
(`pathNames_joinWith`), it is read as itself, and whatever looks at its names alone, as
the test for ignored ones does, cannot tell it from the text it was read from.
-/

namespace NoteVault

open Text

variable {path inside : String} {names : List String}

/-! ## The names along a path -/

theorem no_slash_of_mem_pathNames {name : String} (h : name ∈ pathNames path) :
    '/' ∉ name.toList := by
  obtain ⟨piece, hpiece, rfl⟩ := List.mem_map.1 h
  rw [String.toList_ofList]
  exact not_mem_of_mem_pieces hpiece

/-- The names along a path.  From the root they lead to its place in a tree without links,
unless the path goes up. -/
def location (path : String) : List String := (segments path.toList).map String.ofList

theorem location_eq_filter (path : String) :
    location path = (pathNames path).filter fun s => s ≠ "" ∧ s ≠ "." := by
  rw [location, segments, pathNames, List.filter_map]
  refine congrArg _ (List.filter_congr fun s _ => ?_)
  have hempty : String.ofList s = "" ↔ s = [] := @String.ofList_inj s []
  have hdot : String.ofList s = "." ↔ s = ['.'] := @String.ofList_inj s ['.']
  rw [Bool.eq_iff_iff]
  simp [hempty, hdot]

theorem map_toList_location (path : String) :
    (location path).map String.toList = segments path.toList := by
  rw [location, List.map_map]
  exact List.map_id'' (fun s => String.toList_ofList) _

theorem location_eq_iff :
    location path = names ↔ segments path.toList = names.map String.toList := by
  rw [← map_toList_location]
  exact (List.map_inj_right fun _ _ => String.toList_inj.1).symm

/-- The names along a path can stand as its segments. -/
theorem isName_of_mem_location {name : String} (h : name ∈ location path) :
    IsName name.toList := by
  rw [location_eq_filter] at h
  obtain ⟨hmem, hkept⟩ := List.mem_filter.1 h
  obtain ⟨hempty, hdot⟩ := of_decide_eq_true hkept
  exact ⟨no_slash_of_mem_pathNames hmem, fun hnil => hempty (String.toList_inj.1 hnil),
    fun heq => hdot (String.toList_inj.1 heq)⟩

theorem up_mem_location_iff : ".." ∈ location path ↔ ".." ∈ pathNames path := by
  rw [location_eq_filter, List.mem_filter]
  exact and_iff_left (by decide)

theorem location_ne_nil_iff :
    location path ≠ [] ↔ ∃ name ∈ pathNames path, name ≠ "" ∧ name ≠ "." := by
  rw [location_eq_filter, ne_eq, List.filter_eq_nil_iff]
  simp only [decide_eq_true_eq, not_forall, not_not, exists_prop]

/-- Whether names are ignored: the way up is none of them. -/
theorem hasSegmentIn_iff {names : List String} {path : List Char} :
    hasSegmentIn names path = true ↔
      ∃ name ∈ (segments path).map String.ofList, name ≠ ".." ∧ name ∈ names := by
  have hup : ∀ s, s ≠ ['.', '.'] ↔ String.ofList s ≠ ".." := fun s =>
    not_congr (@String.ofList_inj s ['.', '.']).symm
  rw [hasSegmentIn, List.any_eq_true]
  constructor
  · rintro ⟨s, hs, htest⟩
    rw [Bool.and_eq_true, bne_iff_ne, List.contains_iff_mem, hup] at htest
    exact ⟨String.ofList s, List.mem_map_of_mem hs, htest⟩
  · rintro ⟨name, hname, htest⟩
    obtain ⟨s, hs, rfl⟩ := List.mem_map.1 hname
    refine ⟨s, hs, ?_⟩
    rw [Bool.and_eq_true, bne_iff_ne, List.contains_iff_mem, hup]
    exact htest

/-! ## Joined names -/

/-- The pieces of joined names are the names. -/
theorem pathNames_joinWith (hne : names ≠ []) (h : ∀ name ∈ names, IsName name.toList) :
    pathNames (joinWith "/" names) = names := by
  have hpieces : pieces '/' (joinWith "/" names).toList = names.map String.toList := by
    rw [joinWith, String.toList_intercalate]
    refine pieces_intercalate (mt List.map_eq_nil_iff.1 hne) ?_
    rw [List.forall_mem_map]
    exact fun name hname => (h name hname).no_slash
  rw [pathNames, hpieces, List.map_map]
  exact List.map_id'' (fun _ => String.ofList_toList) _

theorem location_joinWith (h : ∀ name ∈ names, IsName name.toList) :
    location (joinWith "/" names) = names := by
  rw [location_eq_iff, joinWith, String.toList_intercalate]
  refine segments_intercalate ?_
  rw [List.forall_mem_map]
  exact h

/-- Joined names neither begin nor end with a slash. -/
theorem no_slash_at_ends (hne : names ≠ []) (h : ∀ name ∈ names, IsName name.toList) :
    (joinWith "/" names).toList.head? ≠ some '/' ∧
      (joinWith "/" names).toList.getLast? ≠ some '/' := by
  refine no_sep_at_ends fun hnil => ?_
  have hempty : "" ∈ pathNames (joinWith "/" names) := List.mem_map.2 ⟨[], hnil, rfl⟩
  rw [pathNames_joinWith hne h] at hempty
  exact (h "" hempty).ne_nil rfl

/-! ## Reading a path -/

/-- A text names something inside a folder and does not lead out of it. -/
structure StaysInside (path : String) : Prop where
  not_absolute : isAbsolute path = false
  no_up : ".." ∉ pathNames path
  names_something : ∃ name ∈ pathNames path, name ≠ "" ∧ name ≠ "."

theorem joinSegments_eq_intercalate (ss : List (List Char)) :
    joinSegments ss = ['/'].intercalate ss := by
  induction ss with
  | nil => rfl
  | cons s ss ih =>
    cases ss with
    | nil => rw [joinSegments, List.intercalate_singleton]
    | cons t ss =>
      rw [List.intercalate_cons_cons, ← ih, List.append_assoc]
      rfl

/-- Segments are collected as they are, unless one of them goes up. -/
theorem collectSegments_eq (text : String) (ss : List (List Char)) :
    collectSegments text ss = if ['.', '.'] ∈ ss then .error (.escapes text) else .ok ss := by
  induction ss with
  | nil => rfl
  | cons s ss ih =>
    rw [collectSegments, ih]
    by_cases hs : s = ['.', '.']
    · rw [if_pos hs, if_pos (List.mem_cons.2 (.inl hs.symm))]
    · have hmem : ['.', '.'] ∈ s :: ss ↔ ['.', '.'] ∈ ss := by
        rw [List.mem_cons]
        exact or_iff_right (Ne.symm hs)
      rw [if_neg hs]
      simp only [hmem]
      by_cases hss : ['.', '.'] ∈ ss
      · rw [if_pos hss, if_pos hss]
      · rw [if_neg hss, if_neg hss]

theorem ofList_joinSegments (path : String) :
    String.ofList (joinSegments (segments path.toList)) = joinWith "/" (location path) := by
  rw [← String.toList_inj, String.toList_ofList, joinSegments_eq_intercalate, joinWith,
    String.toList_intercalate, map_toList_location]
  rfl

/-- **What is read of a text**, or why it is no path inside a vault. -/
theorem vaultPath_eq (path : String) :
    vaultPath path =
      if isAbsolute path then .error (.absolute path)
      else if ".." ∈ pathNames path then .error (.escapes path)
      else if location path = [] then .error .empty
      else .ok (joinWith "/" (location path)) := by
  have hup : ['.', '.'] ∈ segments path.toList ↔ ".." ∈ pathNames path := by
    rw [← up_mem_location_iff]
    exact (List.mem_map_of_injective fun _ _ => String.ofList_inj.1).symm
  by_cases habsolute : isAbsolute path = true
  · obtain ⟨rest, hrest⟩ := List.head?_eq_some_iff.1 (beq_iff_eq.1 habsolute)
    rw [if_pos habsolute, vaultPath, hrest]
    rfl
  · rw [if_neg habsolute, vaultPath]
    split
    · rename_i rest hrest
      exact absurd (beq_iff_eq.2 (congrArg List.head? hrest)) habsolute
    · rw [collectSegments_eq]
      by_cases hescapes : ".." ∈ pathNames path
      · rw [if_pos (hup.2 hescapes), if_pos hescapes]
      · rw [if_neg (mt hup.1 hescapes), if_neg hescapes]
        have hjoined := ofList_joinSegments path
        cases hsegments : segments path.toList with
        | nil =>
          have hnone : location path = [] := by rw [location, hsegments, List.map_nil]
          rw [if_pos hnone]
        | cons s ss =>
          have hsome : location path ≠ [] := by
            rw [location, hsegments]
            exact List.cons_ne_nil _ _
          rw [hsegments] at hjoined
          rw [if_neg hsome, ← hjoined]

/-- **A text is read as a path inside a vault** exactly if it stays inside, as its names
with single slashes between them. -/
theorem vaultPath_eq_ok_iff :
    vaultPath path = .ok inside ↔ StaysInside path ∧ inside = joinWith "/" (location path) := by
  rw [vaultPath_eq]
  constructor
  · intro h
    split at h
    · cases h
    · rename_i habsolute
      split at h
      · cases h
      · rename_i hup
        split at h
        · cases h
        · rename_i hnames
          exact ⟨⟨Bool.eq_false_iff.2 habsolute, hup, location_ne_nil_iff.1 hnames⟩,
            (Except.ok.inj h).symm⟩
  · rintro ⟨⟨habsolute, hup, hnames⟩, rfl⟩
    rw [if_neg (Bool.eq_false_iff.1 habsolute), if_neg hup,
      if_neg (location_ne_nil_iff.2 hnames)]

/-! ## What has been read -/

section Read

variable (h : vaultPath path = .ok inside)
include h

/-- The pieces of what has been read are the names along the text. -/
theorem pathNames_of_vaultPath : pathNames inside = location path := by
  obtain ⟨hinside, rfl⟩ := vaultPath_eq_ok_iff.1 h
  exact pathNames_joinWith (location_ne_nil_iff.2 hinside.names_something)
    fun _ => isName_of_mem_location

theorem location_of_vaultPath : location inside = location path := by
  obtain ⟨-, rfl⟩ := vaultPath_eq_ok_iff.1 h
  exact location_joinWith fun _ => isName_of_mem_location

/-- What has been read does not lead out either. -/
theorem StaysInside.of_vaultPath : StaysInside inside := by
  obtain ⟨hinside, rfl⟩ := vaultPath_eq_ok_iff.1 h
  have hnames := location_ne_nil_iff.2 hinside.names_something
  obtain ⟨hfirst, -⟩ := no_slash_at_ends hnames fun _ => isName_of_mem_location
  refine ⟨beq_eq_false_iff_ne.2 hfirst, ?_, ?_⟩
  · rw [pathNames_of_vaultPath h, up_mem_location_iff]
    exact hinside.no_up
  · rw [← location_ne_nil_iff, location_of_vaultPath h]
    exact hnames

/-- What has been read is read as itself. -/
theorem vaultPath_of_vaultPath : vaultPath inside = .ok inside := by
  refine vaultPath_eq_ok_iff.2 ⟨.of_vaultPath h, ?_⟩
  rw [location_of_vaultPath h]
  exact (vaultPath_eq_ok_iff.1 h).2

theorem hasSegmentIn_of_vaultPath (ignored : List String) :
    hasSegmentIn ignored inside.toList = hasSegmentIn ignored path.toList := by
  rw [hasSegmentIn, hasSegmentIn, location_eq_iff.1 (location_of_vaultPath h),
    map_toList_location]

/-- No piece of what has been read is a gap or goes up. -/
theorem of_mem_pathNames_of_vaultPath {name : String} (hname : name ∈ pathNames inside) :
    name ≠ "" ∧ name ≠ "." ∧ name ≠ ".." := by
  have hkept := hname
  rw [pathNames_of_vaultPath h, location_eq_filter] at hkept
  obtain ⟨hempty, hdot⟩ := of_decide_eq_true (List.mem_filter.1 hkept).2
  refine ⟨hempty, hdot, fun hup => (StaysInside.of_vaultPath h).no_up ?_⟩
  rwa [hup] at hname

end Read

/-- **A path inside a vault has one form.**  A text is read as one exactly if it does not
begin with a slash, no piece of it goes up, and some piece is neither empty nor a single
dot.  What is read are the other pieces in order, with single slashes between them.  So
its pieces are these, none empty, a dot or a way up, and there is no slash at its ends; it
is read as itself; another text is read as the same path exactly if it has the same such
pieces; and whether one of them is ignored does not depend on the form. -/
theorem vaultPath_normalizes (path : String) :
    let named (p : String) := (pathNames p).filter fun s => s ≠ "" ∧ s ≠ "."
    ((∃ inside, vaultPath path = .ok inside) ↔ StaysInside path) ∧
    ∀ inside, vaultPath path = .ok inside →
      inside = joinWith "/" (named path) ∧
      pathNames inside = named path ∧
      (∀ name ∈ pathNames inside, name ≠ "" ∧ name ≠ "." ∧ name ≠ "..") ∧
      inside.toList.head? ≠ some '/' ∧ inside.toList.getLast? ≠ some '/' ∧
      vaultPath inside = .ok inside ∧
      (∀ other inside', vaultPath other = .ok inside' →
        (inside' = inside ↔ named other = named path)) ∧
      ∀ ignored, hasSegmentIn ignored inside.toList = hasSegmentIn ignored path.toList := by
  intro named
  have hnamed : ∀ p, named p = location p := fun p => (location_eq_filter p).symm
  simp only [hnamed]
  refine ⟨⟨fun ⟨_, h⟩ => (vaultPath_eq_ok_iff.1 h).1,
    fun h => ⟨_, vaultPath_eq_ok_iff.2 ⟨h, rfl⟩⟩⟩, fun inside h => ?_⟩
  obtain ⟨hinside, hjoined⟩ := vaultPath_eq_ok_iff.1 h
  have hnames := location_ne_nil_iff.2 hinside.names_something
  have hends := no_slash_at_ends hnames fun _ => isName_of_mem_location
  rw [← hjoined] at hends
  refine ⟨hjoined, pathNames_of_vaultPath h, fun _ => of_mem_pathNames_of_vaultPath h, hends.1,
    hends.2, vaultPath_of_vaultPath h, fun other inside' hother => ⟨fun hsame => ?_, ?_⟩,
    hasSegmentIn_of_vaultPath h⟩
  · rw [← location_of_vaultPath hother, hsame, location_of_vaultPath h]
  · intro hsame
    rw [hjoined, (vaultPath_eq_ok_iff.1 hother).2, hsame]

/-- Dots and slashes are dropped wherever they stand, but not the way up. -/
theorem vaultPath_normalizes_gaps :
    let text := "./notes//sub/./a.md/"
    let inside := "notes/sub/a.md"
    vaultPath text = .ok inside ∧ vaultPath inside = .ok inside ∧
      pathNames inside = ["notes", "sub", "a.md"] ∧
      (∀ ignored, hasSegmentIn ignored inside.toList = hasSegmentIn ignored text.toList) ∧
      ¬ ∃ outside, vaultPath "notes/./../a.md" = .ok outside := by
  intro text inside
  have hread : vaultPath text = .ok inside := by decide +kernel
  have hnames : (pathNames text).filter (fun s => s ≠ "" ∧ s ≠ ".") =
      ["notes", "sub", "a.md"] := by
    decide +kernel
  obtain ⟨-, hpieces, -, -, -, hagain, -, hignored⟩ := (vaultPath_normalizes text).2 inside hread
  refine ⟨hread, hagain, hpieces.trans hnames, hignored, ?_⟩
  rw [(vaultPath_normalizes "notes/./../a.md").1]
  exact fun hinside => hinside.no_up (by decide +kernel)

end NoteVault
