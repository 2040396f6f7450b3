import NoteVault.Proofs.Link.Resolution
import NoteVault.Proofs.Text.Cut
import NoteVault.Proofs.Text.Trim
import NoteVault.Proofs.Unicode.Lowercase
import NoteVault.Vault.Load

/-!
# Links by full path and by bare name

A link that writes out the path of a file means that file, unless another file has a path
that is tried before (`resolve?_full_path_iff`).  Such are the path below the folder of
the source, and the path with the extension of a note behind it; so a file cannot be
linked to by its path if there is a note with this path and that extension
(`full_path_hidden_by_note`).

A link that is a bare name means some file exactly if a file has this name, or a note has
it before its extension, or an exact path leads to one (`isSome_resolve?_name_iff`).  The
extension of a note is known by its name only when it is written in small letters
(`note_not_found_by_name`).
-/

namespace NoteVault

open Text Unicode

/-! ## File names in lower case -/

theorem toList_join (folder name : String) :
    (folder ++ "/" ++ name).toList = folder.toList ++ '/' :: name.toList := by
  rw [String.toList_append, String.toList_append, List.append_assoc]
  rfl

/-- What joins a folder and a name is no part of either in lower case. -/
theorem lowercase_join (folder name : String) :
    lowercase (folder ++ "/" ++ name) = lowercase folder ++ "/" ++ lowercase name := by
  rw [← String.toList_inj, toList_join, lowercase, lowercase, lowercase, String.toList_ofList,
    String.toList_ofList, String.toList_ofList, toList_join,
    partsWords_slash.lowercaseChars_append]

theorem fileName_of_not_mem {path : String} (h : '/' ∉ path.toList) : fileName path = path := by
  rw [fileName, cutLast_eq_none_iff.2 h]

theorem fileName_join {name : String} (h : '/' ∉ name.toList) (folder : String) :
    fileName (folder ++ "/" ++ name) = name := by
  have hcut : cutLast '/' (folder ++ "/" ++ name).toList = some (folder.toList, name.toList) :=
    cutLast_eq_some_iff.2 ⟨toList_join folder name, h⟩
  rw [fileName, hcut]
  exact String.ofList_toList

theorem slash_not_mem_lowercase {text : String} (h : '/' ∉ text.toList) :
    '/' ∉ (lowercase text).toList := by
  rw [lowercase, String.toList_ofList]
  exact fun hmem => h (mem_of_mem_lowercaseChars hmem (by decide))

/-- **The name of a file in lower case** is the name of its path in lower case. -/
theorem fileName_lowercase (path : String) :
    fileName (lowercase path) = lowercase (fileName path) := by
  cases hcut : cutLast '/' path.toList with
  | none =>
    have hslash := cutLast_eq_none_iff.1 hcut
    rw [fileName_of_not_mem hslash, fileName_of_not_mem (slash_not_mem_lowercase hslash)]
  | some parts =>
    obtain ⟨folder, name⟩ := parts
    obtain ⟨hpath, hslash⟩ := cutLast_eq_some_iff.1 hcut
    obtain rfl : path = String.ofList folder ++ "/" ++ String.ofList name := by
      rw [← String.toList_inj, toList_join, hpath, String.toList_ofList, String.toList_ofList]
    have hname : '/' ∉ (String.ofList name).toList := by rwa [String.toList_ofList]
    rw [lowercase_join, fileName_join hname, fileName_join (slash_not_mem_lowercase hname)]

namespace LinkResolver

variable {paths : List String} {reference source path : String}

/-! ## What a link writes out -/

theorem dropLeading_of_not_prefix {beginning cs : List Char} (h : ¬ beginning <+: cs) :
    dropLeading beginning cs = cs := by
  unfold dropLeading
  cases cs with
  | nil => rfl
  | cons c cs => exact if_neg (mt List.isPrefixOf_iff_prefix.1 h)

/-- Nothing is dropped from a text without blanks around it and without a mark of a path
in front. -/
theorem bareReference_eq_self {cs : List Char} (htrim : Trimmed cs) (hslash : ¬ ['/'] <+: cs)
    (hdot : ¬ ['.', '/'] <+: cs) : bareReference cs = cs := by
  rw [bareReference, trim_eq_self htrim, dropLeading_of_not_prefix hdot,
    dropLeading_of_not_prefix hslash]

theorem linkKey_of_bare (h : bareReference reference.toList = reference.toList) :
    linkKey reference = lowercase reference := by
  rw [linkKey, h, lowercase]

/-- The paths that are tried before the one that a link writes out. -/
def triedBefore (name folder : String) : List String :=
  (if folder = "" then []
    else [lowercase folder ++ "/" ++ name, lowercase folder ++ "/" ++ name ++ ".md"]) ++
    [name ++ ".md"]

theorem exactPaths_eq (name folder : String) :
    exactPaths name folder = triedBefore name folder ++ [name] := by
  rw [exactPaths, triedBefore, List.append_assoc]
  rfl

theorem mem_triedBefore {key name folder : String} :
    key ∈ triedBefore name folder ↔
      (folder ≠ "" ∧ (key = lowercase folder ++ "/" ++ name ∨
        key = lowercase folder ++ "/" ++ name ++ ".md")) ∨ key = name ++ ".md" := by
  rw [triedBefore, List.mem_append, List.mem_singleton]
  by_cases hfolder : folder = ""
  · simp [hfolder]
  · simp [hfolder]

/-- These paths are longer. -/
theorem ne_of_mem_triedBefore {key name folder : String} (h : key ∈ triedBefore name folder) :
    key ≠ name := by
  intro heq
  have hlength := congrArg String.length heq
  have hslash : "/".length = 1 := rfl
  have hext : ".md".length = 3 := rfl
  rcases mem_triedBefore.1 h with ⟨-, rfl | rfl⟩ | rfl
  all_goals
    simp only [String.length_append] at hlength
    omega

/-! ## Links by full path -/

/-- The file with the path that a link writes out is found, unless there is one with a
path that is tried before. -/
theorem resolve?_eq_self_iff (hapart : PathsApart paths) (hmem : path ∈ paths) (hne : path ≠ "")
    (hbare : bareReference path.toList = path.toList) (source : String) :
    (ofPaths paths).resolve? path source = some path ↔
      ∀ key ∈ triedBefore (lowercase path) (parentFolder source),
        ∀ q ∈ paths, lowercase q ≠ key := by
  have hself : [lowercase path].findSome? (ofPaths paths).byPath.find? = some path := by
    rw [List.findSome?_cons, hapart.find?_byPath_eq_some_iff.2 ⟨hmem, rfl⟩]
  have hnil : ¬ bareReference path.toList = [] := by
    rwa [hbare, String.toList_eq_nil_iff]
  rw [resolve?_eq, if_neg hnil, linkKey_of_bare hbare, exactPaths_eq, List.findSome?_append, hself]
  constructor
  · intro h key hkey q hq hlower
    cases hfirst : (triedBefore (lowercase path) (parentFolder source)).findSome?
        (ofPaths paths).byPath.find? with
    | none =>
      have hnone := List.findSome?_eq_none_iff.1 hfirst key hkey
      exact find?_byPath_eq_none_iff.1 hnone q hq hlower
    | some found =>
      -- The path itself is none of those that are tried before it.
      rw [hfirst, Option.some_or, Option.some_or] at h
      obtain rfl := Option.some.inj h
      obtain ⟨key', hkey', hfind⟩ := List.exists_of_findSome?_eq_some hfirst
      exact ne_of_mem_triedBefore hkey' (of_find?_byPath hfind).2.symm
  · intro h
    have hfirst : (triedBefore (lowercase path) (parentFolder source)).findSome?
        (ofPaths paths).byPath.find? = none := by
      rw [List.findSome?_eq_none_iff]
      exact fun key hkey => find?_byPath_eq_none_iff.2 (h key hkey)
    rw [hfirst, Option.none_or, Option.some_or]

/-- **A link by full path** means the file with this path exactly if there is no file
with the path and `.md` behind it, and none with the path, or the path and `.md`, below
the folder of the source. -/
theorem resolve?_full_path_iff (hapart : PathsApart paths) (hmem : path ∈ paths)
    (hne : path ≠ "") (htrim : Trimmed path.toList) (hslash : ¬ ['/'] <+: path.toList)
    (hdot : ¬ ['.', '/'] <+: path.toList) (source : String) :
    (ofPaths paths).resolve? path source = some path ↔
      (∀ q ∈ paths, lowercase q ≠ lowercase path ++ ".md") ∧
      (parentFolder source ≠ "" → ∀ q ∈ paths,
        lowercase q ≠ lowercase (parentFolder source ++ "/" ++ path) ∧
        lowercase q ≠ lowercase (parentFolder source ++ "/" ++ path) ++ ".md") := by
  rw [resolve?_eq_self_iff hapart hmem hne (bareReference_eq_self htrim hslash hdot),
    lowercase_join]
  simp only [mem_triedBefore]
  constructor
  · intro h
    refine ⟨fun q hq => h _ (.inr rfl) q hq, fun hfolder q hq => ⟨?_, ?_⟩⟩
    · exact h _ (.inl ⟨hfolder, .inl rfl⟩) q hq
    · exact h _ (.inl ⟨hfolder, .inr rfl⟩) q hq
  · rintro ⟨hroot, hbeside⟩ key (⟨hfolder, rfl | rfl⟩ | rfl) q hq
    · exact (hbeside hfolder q hq).1
    · exact (hbeside hfolder q hq).2
    · exact hroot q hq

/-- A picture is linked to by its path from a note in another folder. -/
theorem resolve?_full_path_picture :
    let paths := ["img/Pic.png", "proj/a.md", "Pic.png.md"]
    PathsApart paths ∧ (ofPaths paths).resolve? "img/Pic.png" "proj/a.md" = some "img/Pic.png" := by
  intro paths
  have hapart : PathsApart paths := by decide +kernel
  refine ⟨hapart, (resolve?_full_path_iff hapart List.mem_cons_self (by decide) ?_ ?_ ?_ _).2 ?_⟩
  · decide
  · decide
  · decide
  · decide +kernel

/-- **A note hides the file it is named for.**  The source is in no folder, so no file
beside it comes first; but the path of the file means the note. -/
theorem full_path_hidden_by_note :
    let paths := ["a", "a.md", "b.md"]
    PathsApart paths ∧ parentFolder "b.md" = "" ∧
      (ofPaths paths).resolve? "a" "b.md" = some "a.md" := by
  decide +kernel

/-! ## Links by bare name -/

theorem nameKey_eq_some_iff {name : String} :
    nameKey path = some name ↔ lowercase (fileName path) = name := by
  rw [nameKey, Option.some.injEq]

theorem stem?_eq_some_iff {name stem : String} : stem? name = some stem ↔ name = stem ++ ".md" := by
  rw [stem?, Option.map_eq_some_iff]
  constructor
  · rintro ⟨cs, hcs, rfl⟩
    rw [← String.toList_inj, stripSuffix?_eq_some_iff.1 hcs, String.toList_append,
      String.toList_ofList]
    rfl
  · rintro rfl
    refine ⟨stem.toList, stripSuffix?_eq_some_iff.2 ?_, String.ofList_toList⟩
    rw [String.toList_append]
    rfl

theorem stemKey_eq_some_iff {name : String} :
    stemKey path = some name ↔ ∃ stem, fileName path = stem ++ ".md" ∧ lowercase stem = name := by
  rw [stemKey, Option.map_eq_some_iff]
  simp only [stem?_eq_some_iff]

theorem meantBy_ne_nil_iff {name : String} :
    meantBy paths name ≠ [] ↔
      (∃ p ∈ paths, nameKey p = some name) ∨ ∃ p ∈ paths, stemKey p = some name := by
  have hkeyed : ∀ key : String → Option String,
      keyed key paths name ≠ [] ↔ ∃ p ∈ paths, key p = some name := by
    intro key
    simp only [← mem_keyed]
    exact ⟨List.exists_mem_of_ne_nil _, fun ⟨p, hp⟩ => List.ne_nil_of_mem hp⟩
  rw [← hkeyed, ← hkeyed, meantBy]
  by_cases hname : keyed nameKey paths name = []
  · simp [hname]
  · simp [hname]

theorem isSome_find?_byPath {key : String} :
    ((ofPaths paths).byPath.find? key).isSome ↔ ∃ p ∈ paths, lowercase p = key := by
  constructor
  · intro h
    obtain ⟨p, hfind⟩ := Option.isSome_iff_exists.1 h
    exact ⟨p, of_find?_byPath hfind⟩
  · rintro ⟨p, hp, rfl⟩
    rw [Option.isSome_iff_ne_none]
    intro hnone
    exact find?_byPath_eq_none_iff.1 hnone p hp rfl

/-- A link without a slash means some file exactly if there is one with a path that it
may write out, or one with its name. -/
theorem isSome_resolve?_iff (hne : reference ≠ "")
    (hbare : bareReference reference.toList = reference.toList)
    (hslash : '/' ∉ reference.toList) (source : String) :
    ((ofPaths paths).resolve? reference source).isSome ↔
      (∃ key ∈ exactPaths (lowercase reference) (parentFolder source),
        ∃ p ∈ paths, lowercase p = key) ∨
      meantBy paths (lowercase reference) ≠ [] := by
  have hnil : ¬ bareReference reference.toList = [] := by
    rwa [hbare, String.toList_eq_nil_iff]
  rw [resolve?_eq, if_neg hnil, linkKey_of_bare hbare, hbare, if_neg hslash, Option.isSome_or,
    Bool.or_eq_true, List.findSome?_isSome_iff, byName?_ofPaths, Option.isSome_iff_ne_none, ne_eq,
    pick?_eq_none_iff]
  simp only [isSome_find?_byPath]

/-- A file with the path that a name stands for, at the root or below a folder, has this
name. -/
theorem lowercase_fileName_of_path {name : String} (hslash : '/' ∉ name.toList)
    (h : lowercase path = lowercase name ∨
      ∃ folder, lowercase path = lowercase folder ++ "/" ++ lowercase name) :
    lowercase (fileName path) = lowercase name := by
  have hname : fileName (lowercase path) = lowercase name := by
    rcases h with h | ⟨folder, h⟩
    · rw [h, fileName_of_not_mem (slash_not_mem_lowercase hslash)]
    · rw [h, fileName_join (slash_not_mem_lowercase hslash)]
  rw [← hname, fileName_lowercase]

/-- **A bare name** means some file exactly if a file has this name, or a note has it
before the extension `.md`, or the name with `.md` behind it is the path of a file, from
the root or from the folder of the source.  Case does not count, except in the extension
of a note that is known by its name. -/
theorem isSome_resolve?_name_iff (hne : reference ≠ "") (htrim : Trimmed reference.toList)
    (hslash : '/' ∉ reference.toList) (source : String) :
    ((ofPaths paths).resolve? reference source).isSome ↔
      (∃ p ∈ paths, lowercase (fileName p) = lowercase reference) ∨
      (∃ p ∈ paths, ∃ stem, fileName p = stem ++ ".md" ∧ lowercase stem = lowercase reference) ∨
      ∃ p ∈ paths, lowercase p = lowercase reference ++ ".md" ∨
        (parentFolder source ≠ "" ∧
          lowercase p = lowercase (parentFolder source ++ "/" ++ reference) ++ ".md") := by
  have hbare : bareReference reference.toList = reference.toList :=
    bareReference_eq_self htrim (fun h => hslash (h.subset List.mem_cons_self))
      fun h => hslash (h.subset (List.mem_cons_of_mem _ List.mem_cons_self))
  rw [isSome_resolve?_iff hne hbare hslash, meantBy_ne_nil_iff]
  simp only [nameKey_eq_some_iff, stemKey_eq_some_iff, exactPaths_eq, List.mem_append,
    List.mem_singleton, mem_triedBefore, lowercase_join]
  constructor
  · rintro (⟨key, (⟨hfolder, rfl | rfl⟩ | rfl) | rfl, p, hp, hpath⟩ | hname | hstem)
    · exact .inl ⟨p, hp, lowercase_fileName_of_path hslash (.inr ⟨_, hpath⟩)⟩
    · exact .inr (.inr ⟨p, hp, .inr ⟨hfolder, hpath⟩⟩)
    · exact .inr (.inr ⟨p, hp, .inl hpath⟩)
    · exact .inl ⟨p, hp, lowercase_fileName_of_path hslash (.inl hpath)⟩
    · exact .inl hname
    · exact .inr (.inl hstem)
  · rintro (hname | hstem | ⟨p, hp, hpath | ⟨hfolder, hpath⟩⟩)
    · exact .inr (.inl hname)
    · exact .inr (.inr hstem)
    · exact .inl ⟨_, .inl (.inr rfl), p, hp, hpath⟩
    · exact .inl ⟨_, .inl (.inl ⟨hfolder, .inr rfl⟩), p, hp, hpath⟩

/-- A note and a picture are found by their names from another folder. -/
theorem isSome_resolve?_name_picture :
    let paths := ["x/Note.md", "y/Pic.PNG"]
    ((ofPaths paths).resolve? "NOTE" "z/a.md").isSome ∧
      ((ofPaths paths).resolve? "pic.png" "z/a.md").isSome := by
  intro paths
  have hnote : Trimmed "NOTE".toList := by decide
  have hpicture : Trimmed "pic.png".toList := by decide
  constructor
  · refine (isSome_resolve?_name_iff (by decide) hnote (by decide) _).2 (.inr (.inl ?_))
    exact ⟨"x/Note.md", List.mem_cons_self, "Note", by decide +kernel, by decide +kernel⟩
  · refine (isSome_resolve?_name_iff (by decide) hpicture (by decide) _).2 (.inl ?_)
    exact ⟨"y/Pic.PNG", by decide, by decide +kernel⟩

/-- **A note is not found by its name** if its extension is in capital letters, although
it is read as a note. -/
theorem note_not_found_by_name :
    Snapshot.isNotePath "x/Note.MD" = true ∧ fileName "x/Note.MD" = "Note" ++ ".MD" ∧
      lowercase "Note" = lowercase "note" ∧
      (ofPaths ["a.md", "x/Note.MD"]).resolve? "note" "a.md" = none := by
  decide +kernel

end LinkResolver

end NoteVault
