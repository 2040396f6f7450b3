import Mathlib.Data.List.Induction
import NoteVault.Link.Resolver
import NoteVault.Proofs.Text.ByteOrder

/-!
# What a link means

A resolver is filled path by path, and the order of the paths shows in one place only:
the files that share a name are kept in that order (`find?_foldl_gather`).  Of these the
one beside the source is picked, and else the nearest one, for which first the length of
the path counts and then the order of bytes.  No two paths are equally near, so what is
picked depends on the files and not on their order (`pick?_eq_some_iff`).

The main result, `resolve?_sound`, is about files that are told apart by their paths, and
inside a folder also by their names, when case does not count (`ToldApart`).
-/

namespace NoteVault

open Text Unicode Fingerprint

namespace LinkResolver

variable {paths other candidates : List String} {path folder name key : String}

/-! ## What a resolver holds -/

/-- The name of a file, in lower case. -/
def nameKey (path : String) : Option String := some (lowercase (fileName path))

/-- The name of a note without its extension, in lower case. -/
def stemKey (path : String) : Option String := (stem? (fileName path)).map lowercase

/-- The files that a key gives a name. -/
def keyed (key : String → Option String) (paths : List String) (name : String) : List String :=
  paths.filter fun path => key path == some name

theorem mem_keyed {key : String → Option String} :
    path ∈ keyed key paths name ↔ path ∈ paths ∧ key path = some name := by
  rw [keyed, List.mem_filter, beq_iff_eq]

theorem keyed_concat (key : String → Option String) (paths : List String) (path name : String) :
    keyed key (paths ++ [path]) name =
      if key path = some name then keyed key paths name ++ [path] else keyed key paths name := by
  rw [keyed, List.filter_append]
  by_cases h : key path = some name
  · simp [keyed, h]
  · simp [keyed, h]

theorem keyed_perm (key : String → Option String) (h : other.Perm paths) (name : String) :
    (keyed key other name).Perm (keyed key paths name) := h.filter _

/-- Adds a path to those with its key, if it has one. -/
def gather (key : String → Option String) (m : NameMap (List String)) (path : String) :
    NameMap (List String) :=
  match key path with
  | some name => append m name path
  | none => m

theorem find?_gather (key : String → Option String) (m : NameMap (List String))
    (path name : String) :
    (gather key m path).find? name =
      if key path = some name then some ((m.find? name).getD [] ++ [path])
      else m.find? name := by
  rw [gather]
  cases hkey : key path with
  | none => rfl
  | some k =>
    show (append m k path).find? name = _
    rw [append, NameMap.find?_alter]
    by_cases hk : name = k
    · rw [if_pos hk, if_pos (congrArg some hk.symm), hk]
    · rw [if_neg hk, if_neg fun h => hk (Option.some.inj h).symm]

/-- **The paths with one key** are gathered in their order. -/
theorem find?_foldl_gather (key : String → Option String) (paths : List String)
    (name : String) :
    (paths.foldl (gather key) .empty).find? name =
      if keyed key paths name = [] then none else some (keyed key paths name) := by
  induction paths using List.reverseRecOn with
  | nil => rfl
  | append_singleton paths path ih =>
    rw [List.foldl_append, List.foldl_cons, List.foldl_nil, find?_gather, ih, keyed_concat]
    by_cases hkey : key path = some name
    · rw [if_pos hkey, if_pos hkey,
        if_neg (List.append_ne_nil_of_right_ne_nil _ (List.cons_ne_nil _ _))]
      by_cases hnone : keyed key paths name = []
      · rw [if_pos hnone, hnone]
        rfl
      · rw [if_neg hnone]
        rfl
    · rw [if_neg hkey, if_neg hkey]

theorem byName_ofPaths (paths : List String) :
    (ofPaths paths).byName = paths.foldl (gather nameKey) .empty :=
  (List.foldl_hom byName fun _ _ => rfl).symm

theorem byStem_ofPaths (paths : List String) :
    (ofPaths paths).byStem = paths.foldl (gather stemKey) .empty := by
  refine (List.foldl_hom byStem fun r path => ?_).symm
  rw [gather, stemKey, add]
  cases stem? (fileName path) <;> rfl

/-- Of paths that are alike in lower case the last one is found. -/
theorem find?_byPath_ofPaths (paths : List String) (key : String) :
    (ofPaths paths).byPath.find? key = paths.reverse.find? (lowercase · == key) := by
  induction paths using List.reverseRecOn with
  | nil => rfl
  | append_singleton paths path ih =>
    have hadd : (ofPaths (paths ++ [path])).byPath =
        (ofPaths paths).byPath.insert (lowercase path) path := by
      rw [ofPaths, List.foldl_append]
      rfl
    rw [hadd, NameMap.find?_insert, ih, List.reverse_concat, List.find?_cons]
    by_cases hkey : key = lowercase path
    · rw [if_pos hkey, hkey, beq_self_eq_true]
    · rw [if_neg hkey, beq_eq_false_iff_ne.2 (Ne.symm hkey)]

theorem of_find?_byPath (h : (ofPaths paths).byPath.find? key = some path) :
    path ∈ paths ∧ lowercase path = key := by
  rw [find?_byPath_ofPaths] at h
  exact ⟨List.mem_reverse.1 (List.mem_of_find?_eq_some h), by simpa using List.find?_some h⟩

theorem find?_byPath_eq_none_iff :
    (ofPaths paths).byPath.find? key = none ↔ ∀ p ∈ paths, lowercase p ≠ key := by
  rw [find?_byPath_ofPaths, List.find?_eq_none]
  simp only [List.mem_reverse, beq_iff_eq, ne_eq]

/-- No two paths of a list are alike in lower case. -/
def PathsApart (paths : List String) : Prop :=
  ∀ p ∈ paths, ∀ q ∈ paths, lowercase p = lowercase q → p = q

instance (paths : List String) : Decidable (PathsApart paths) :=
  inferInstanceAs (Decidable (∀ p ∈ paths, ∀ q ∈ paths, lowercase p = lowercase q → p = q))

theorem PathsApart.find?_byPath_eq_some_iff (h : PathsApart paths) :
    (ofPaths paths).byPath.find? key = some path ↔ path ∈ paths ∧ lowercase path = key := by
  constructor
  · exact of_find?_byPath
  · rintro ⟨hmem, hkey⟩
    cases hfind : (ofPaths paths).byPath.find? key with
    | none => exact absurd hkey (find?_byPath_eq_none_iff.1 hfind path hmem)
    | some p =>
      obtain ⟨hp, hpkey⟩ := of_find?_byPath hfind
      rw [h p hp path hmem (hpkey.trans hkey.symm)]

/-! ## The nearest path -/

/-- A path is nearer than another one: it is shorter, or of the same length and the first
of the two in the order of bytes. -/
def Nearer (a b : String) : Prop :=
  a.utf8ByteSize < b.utf8ByteSize ∨
    a.utf8ByteSize = b.utf8ByteSize ∧ textBytes a < textBytes b

theorem isNearer_iff {a b : String} : isNearer a b = true ↔ Nearer a b := by
  rw [isNearer, Nearer, Bool.or_eq_true, Bool.and_eq_true, decide_eq_true_iff, beq_iff_eq,
    decide_eq_true_iff, textBytes_lt_iff]

theorem Nearer.trans {a b c : String} (hab : Nearer a b) (hbc : Nearer b c) : Nearer a c := by
  rcases hab with hab | ⟨hab, hbytes⟩
  · rcases hbc with hbc | ⟨hbc, -⟩
    · exact .inl (Nat.lt_trans hab hbc)
    · exact .inl (hbc ▸ hab)
  · rcases hbc with hbc | ⟨hbc, hbytes'⟩
    · exact .inl (hab ▸ hbc)
    · exact .inr ⟨hab.trans hbc, List.lt_trans hbytes hbytes'⟩

theorem Nearer.asymm {a b : String} (hab : Nearer a b) (hba : Nearer b a) : False := by
  rcases hab.trans hba with h | ⟨-, h⟩
  · exact Nat.lt_irrefl _ h
  · exact List.lt_irrefl _ h

/-- Of two paths one is nearer. -/
theorem Nearer.total {a b : String} (h : ¬ Nearer a b) : a = b ∨ Nearer b a := by
  rcases Nat.lt_trichotomy a.utf8ByteSize b.utf8ByteSize with hlt | heq | hgt
  · exact absurd (.inl hlt) h
  · by_cases hbytes : b < a
    · exact .inr (.inr ⟨heq.symm, textBytes_lt_iff.2 hbytes⟩)
    · left
      by_contra hne
      have hlt : a < b := Std.lt_of_le_of_ne (String.not_lt.1 hbytes) hne
      exact h (.inr ⟨heq, textBytes_lt_iff.2 hlt⟩)
  · exact .inr (.inl hgt)

/-- A path is the nearest of a list. -/
structure Nearest (candidates : List String) (path : String) : Prop where
  mem : path ∈ candidates
  nearer : ∀ c ∈ candidates, c = path ∨ Nearer path c

theorem Nearest.perm (h : Nearest candidates path) (hperm : other.Perm candidates) :
    Nearest other path :=
  ⟨hperm.mem_iff.2 h.mem, fun c hc => h.nearer c (hperm.mem_iff.1 hc)⟩

/-- A path that is not nearer than one of a list makes no difference to it. -/
theorem Nearest.cons {p q : String} (h : Nearest candidates path) (hq : q ∈ candidates)
    (hp : p = q ∨ Nearer q p) : Nearest (p :: candidates) path := by
  refine ⟨List.mem_cons_of_mem _ h.mem, fun c hc => ?_⟩
  rcases List.mem_cons.1 hc with rfl | hc
  · rcases h.nearer q hq with rfl | hpath
    · exact hp
    · rcases hp with rfl | hp
      · exact .inr hpath
      · exact .inr (hpath.trans hp)
  · exact h.nearer c hc

theorem Nearest.unique {q : String} (hpath : Nearest candidates path)
    (hq : Nearest candidates q) : path = q := by
  rcases hq.nearer path hpath.mem with h | h
  · exact h
  · rcases hpath.nearer q hq.mem with h' | h'
    · exact h'.symm
    · exact (h.asymm h').elim

/-- **The nearest path is found.** -/
theorem nearest_of_nearest? (h : nearest? candidates = some path) : Nearest candidates path := by
  cases candidates with
  | nil => cases h
  | cons first rest =>
    obtain rfl := Option.some.inj h
    clear h
    induction rest generalizing first with
    | nil => exact ⟨List.mem_cons_self, fun c hc => .inl (List.mem_singleton.1 hc)⟩
    | cons p ps ih =>
      rw [List.foldl_cons]
      -- The search goes on with the nearer one of the first two.
      by_cases hnear : Nearer p first
      · rw [if_pos (isNearer_iff.2 hnear)]
        exact (ih p).cons List.mem_cons_self (.inr hnear)
      · rw [if_neg (mt isNearer_iff.1 hnear)]
        exact ((ih first).cons List.mem_cons_self (Nearer.total hnear)).perm
          (List.Perm.swap p first ps)

/-! ## The file that is picked -/

/-- The file that is preferred among several for a source in a folder: the one in that
folder, and if there is none the nearest one. -/
structure Preferred (candidates : List String) (folder path : String) : Prop where
  mem : path ∈ candidates
  beside : ∀ c ∈ candidates, parentFolder c = folder → c = path
  nearest : (∀ c ∈ candidates, parentFolder c ≠ folder) → Nearest candidates path

theorem Preferred.perm (h : Preferred candidates folder path)
    (hperm : other.Perm candidates) : Preferred other folder path :=
  ⟨hperm.mem_iff.2 h.mem, fun c hc => h.beside c (hperm.mem_iff.1 hc),
    fun haway => (h.nearest fun c hc => haway c (hperm.mem_iff.2 hc)).perm hperm⟩

theorem Preferred.unique {q : String} (hpath : Preferred candidates folder path)
    (hq : Preferred candidates folder q) : path = q := by
  by_cases hbeside : ∃ c ∈ candidates, parentFolder c = folder
  · obtain ⟨c, hc, hfolder⟩ := hbeside
    rw [← hpath.beside c hc hfolder, hq.beside c hc hfolder]
  · have haway : ∀ c ∈ candidates, parentFolder c ≠ folder :=
      fun c hc hfolder => hbeside ⟨c, hc, hfolder⟩
    exact (hpath.nearest haway).unique (hq.nearest haway)

theorem mem_of_pick? (h : pick? candidates folder = some path) : path ∈ candidates := by
  unfold pick? at h
  split at h
  · rename_i hfind
    exact Option.some.inj h ▸ List.mem_of_find?_eq_some hfind
  · exact (nearest_of_nearest? h).mem

theorem pick?_eq_none_iff : pick? candidates folder = none ↔ candidates = [] := by
  constructor
  · intro h
    unfold pick? at h
    split at h
    · cases h
    · cases candidates with
      | nil => rfl
      | cons first rest => cases h
  · rintro rfl
    rfl

/-- **The preferred file is picked**, where no two files are in the folder of the
source. -/
theorem pick?_eq_some_iff
    (hapart : ∀ c ∈ candidates, ∀ d ∈ candidates,
      parentFolder c = folder → parentFolder d = folder → c = d) :
    pick? candidates folder = some path ↔ Preferred candidates folder path := by
  have hpicked : ∀ {p}, pick? candidates folder = some p → Preferred candidates folder p := by
    intro p h
    unfold pick? at h
    split at h
    · rename_i q hfind
      obtain rfl := Option.some.inj h
      have hmem := List.mem_of_find?_eq_some hfind
      have hfolder : parentFolder q = folder := by simpa using List.find?_some hfind
      exact ⟨hmem, fun c hc hcfolder => hapart c hc q hmem hcfolder hfolder,
        fun haway => absurd hfolder (haway q hmem)⟩
    · rename_i hnone
      have haway : ∀ c ∈ candidates, parentFolder c ≠ folder := by simpa using hnone
      have hnearest := nearest_of_nearest? h
      exact ⟨hnearest.mem, fun c hc hfolder => absurd hfolder (haway c hc), fun _ => hnearest⟩
  constructor
  · exact hpicked
  · intro h
    cases hpick : pick? candidates folder with
    | none => exact absurd h.mem (pick?_eq_none_iff.1 hpick ▸ List.not_mem_nil)
    | some q => rw [(hpicked hpick).unique h]

/-- The files that a name means: those that have it, and if there are none the notes that
have it before their extension. -/
def meantBy (paths : List String) (name : String) : List String :=
  if keyed nameKey paths name = [] then keyed stemKey paths name else keyed nameKey paths name

theorem meantBy_perm (h : other.Perm paths) (name : String) :
    (meantBy other name).Perm (meantBy paths name) := by
  have hname := keyed_perm nameKey h name
  have hnil : keyed nameKey other name = [] ↔ keyed nameKey paths name = [] := by
    rw [← List.length_eq_zero_iff, hname.length_eq, List.length_eq_zero_iff]
  rw [meantBy, meantBy]
  by_cases hnone : keyed nameKey paths name = []
  · rw [if_pos hnone, if_pos (hnil.2 hnone)]
    exact keyed_perm stemKey h name
  · rw [if_neg hnone, if_neg (mt hnil.1 hnone)]
    exact hname

/-- A name means the file that is picked of those that have it. -/
theorem byName?_ofPaths (paths : List String) (name folder : String) :
    (ofPaths paths).byName? name folder = pick? (meantBy paths name) folder := by
  rw [byName?, byName_ofPaths, byStem_ofPaths, find?_foldl_gather, find?_foldl_gather, meantBy]
  by_cases hname : keyed nameKey paths name = []
  · rw [if_pos hname, if_pos hname, Option.none_or]
    by_cases hstem : keyed stemKey paths name = []
    · rw [if_pos hstem, hstem]
      rfl
    · rw [if_neg hstem]
  · rw [if_neg hname, if_neg hname, Option.some_or]

/-! ## The file that a link means -/

/-- What a link says, in lower case. -/
def linkKey (reference : String) : String :=
  String.ofList (lowercaseChars (bareReference reference.toList))

/-- A link is read as a path that is written out, and else as a name. -/
theorem resolve?_eq (r : LinkResolver) (reference source : String) :
    r.resolve? reference source =
      if bareReference reference.toList = [] then none
      else ((exactPaths (linkKey reference) (parentFolder source)).findSome? r.byPath.find?).or
        (if '/' ∈ bareReference reference.toList then none
          else r.byName? (linkKey reference) (parentFolder source)) := by
  rw [resolve?, linkKey]
  cases hbare : bareReference reference.toList with
  | nil => rfl
  | cons c cs =>
    rw [if_neg (List.cons_ne_nil c cs)]
    dsimp only
    split
    · rename_i hfind
      rw [hfind, Option.some_or]
    · rename_i hfind
      simp only [hfind, Option.none_or, List.contains_iff_mem]

/-- Files that are told apart when case does not count: by their paths, and inside each
folder also by their names, and the notes by their names without the extension. -/
structure ToldApart (paths : List String) : Prop where
  path : PathsApart paths
  name : ∀ p ∈ paths, ∀ q ∈ paths, parentFolder p = parentFolder q → nameKey p = nameKey q → p = q
  stem : ∀ p ∈ paths, ∀ q ∈ paths, parentFolder p = parentFolder q → (stemKey p).isSome →
    stemKey p = stemKey q → p = q

/-- Of the files that a name means at most one is in a folder. -/
theorem ToldApart.meantBy (h : ToldApart paths) :
    ∀ c ∈ meantBy paths name, ∀ d ∈ meantBy paths name,
      parentFolder c = folder → parentFolder d = folder → c = d := by
  intro c hc d hd hcfolder hdfolder
  have hfolder := hcfolder.trans hdfolder.symm
  unfold LinkResolver.meantBy at hc hd
  split at hc
  · rename_i hnone
    rw [if_pos hnone] at hd
    obtain ⟨hc, hcname⟩ := mem_keyed.1 hc
    obtain ⟨hd, hdname⟩ := mem_keyed.1 hd
    exact h.stem c hc d hd hfolder (by rw [hcname]; rfl) (hcname.trans hdname.symm)
  · rename_i hsome
    rw [if_neg hsome] at hd
    obtain ⟨hc, hcname⟩ := mem_keyed.1 hc
    obtain ⟨hd, hdname⟩ := mem_keyed.1 hd
    exact h.name c hc d hd hfolder (hcname.trans hdname.symm)

theorem ToldApart.byName?_eq_some_iff (h : ToldApart paths) :
    (ofPaths paths).byName? name folder = some path ↔
      Preferred (LinkResolver.meantBy paths name) folder path := by
  rw [byName?_ofPaths, pick?_eq_some_iff h.meantBy]

theorem ToldApart.perm (h : ToldApart paths) (hperm : other.Perm paths) : ToldApart other where
  path p hp q hq := h.path p (hperm.mem_iff.1 hp) q (hperm.mem_iff.1 hq)
  name p hp q hq := h.name p (hperm.mem_iff.1 hp) q (hperm.mem_iff.1 hq)
  stem p hp q hq := h.stem p (hperm.mem_iff.1 hp) q (hperm.mem_iff.1 hq)

/-- **The order of the files makes no difference** to what a link means. -/
theorem ToldApart.resolve?_perm (h : ToldApart paths) (hperm : other.Perm paths)
    (reference source : String) :
    (ofPaths other).resolve? reference source = (ofPaths paths).resolve? reference source := by
  have hpath : (ofPaths other).byPath.find? = (ofPaths paths).byPath.find? := by
    funext key
    refine Option.ext fun p => ?_
    rw [(h.perm hperm).path.find?_byPath_eq_some_iff, h.path.find?_byPath_eq_some_iff,
      hperm.mem_iff]
  have hname : (ofPaths other).byName? (linkKey reference) (parentFolder source) =
      (ofPaths paths).byName? (linkKey reference) (parentFolder source) := by
    refine Option.ext fun p => ?_
    rw [(h.perm hperm).byName?_eq_some_iff, h.byName?_eq_some_iff]
    have hmeant := meantBy_perm hperm (linkKey reference)
    exact ⟨fun hp => hp.perm hmeant.symm, fun hp => hp.perm hmeant⟩
  rw [resolve?_eq, resolve?_eq, hpath, hname]

theorem mem_of_mem_meantBy (h : path ∈ meantBy paths name) : path ∈ paths := by
  unfold meantBy at h
  split at h
  · exact (mem_keyed.1 h).1
  · exact (mem_keyed.1 h).1

/-- Only files that a resolver knows are found. -/
theorem mem_of_resolve? {reference source : String}
    (h : (ofPaths paths).resolve? reference source = some path) : path ∈ paths := by
  rw [resolve?_eq] at h
  split at h
  · cases h
  · rcases Option.or_eq_some_iff.1 h with h | ⟨-, h⟩
    · obtain ⟨key, -, hkey⟩ := List.exists_of_findSome?_eq_some h
      exact (of_find?_byPath hkey).1
    · split at h
      · cases h
      · rw [byName?_ofPaths] at h
        exact mem_of_mem_meantBy (mem_of_pick? h)

/-- Where files have paths that a link may write out, it means one of them. -/
theorem lowercase_mem_exactPaths {reference source : String}
    (h : (ofPaths paths).resolve? reference source = some path)
    (hexact : ∃ p ∈ paths, lowercase p ∈ exactPaths (linkKey reference) (parentFolder source)) :
    lowercase path ∈ exactPaths (linkKey reference) (parentFolder source) := by
  obtain ⟨p, hp, hkey⟩ := hexact
  rw [resolve?_eq] at h
  split at h
  · cases h
  · rcases Option.or_eq_some_iff.1 h with h | ⟨hnone, -⟩
    · obtain ⟨key, hmem, hfind⟩ := List.exists_of_findSome?_eq_some h
      rwa [(of_find?_byPath hfind).2]
    · have hfind := List.findSome?_eq_none_iff.1 hnone _ hkey
      exact absurd rfl (find?_byPath_eq_none_iff.1 hfind p hp)

/-- **What a link means** does not depend on the order of the files.  It is one of them,
and one with a path that the link may write out if there are any.  Where there are none
the link is read as a name, if there is no slash in it, and means the preferred one of
the files with that name. -/
theorem resolve?_sound (h : ToldApart paths) (reference source : String) :
    let resolved := (ofPaths paths).resolve? reference source
    let written := exactPaths (linkKey reference) (parentFolder source)
    (∀ other : List String, other.Perm paths →
      (ofPaths other).resolve? reference source = resolved) ∧
    (∀ path, resolved = some path → path ∈ paths ∧
      ((∃ p ∈ paths, lowercase p ∈ written) → lowercase path ∈ written)) ∧
    ((∀ p ∈ paths, lowercase p ∉ written) → ∀ path, resolved = some path ↔
      bareReference reference.toList ≠ [] ∧ '/' ∉ bareReference reference.toList ∧
        Preferred (meantBy paths (linkKey reference)) (parentFolder source) path) := by
  intro resolved written
  refine ⟨fun other hperm => h.resolve?_perm hperm reference source,
    fun path hpath => ⟨mem_of_resolve? hpath, lowercase_mem_exactPaths hpath⟩,
    fun hexact path => ?_⟩
  have hnone : written.findSome? (ofPaths paths).byPath.find? = none := by
    rw [List.findSome?_eq_none_iff]
    intro key hkey
    exact find?_byPath_eq_none_iff.2 fun p hp hpkey => hexact p hp (hpkey ▸ hkey)
  show (ofPaths paths).resolve? reference source = some path ↔ _
  rw [resolve?_eq, hnone, Option.none_or, ← h.byName?_eq_some_iff]
  by_cases hbare : bareReference reference.toList = []
  · simp [hbare]
  · by_cases hslash : '/' ∈ bareReference reference.toList
    · simp [hslash]
    · simp [hbare, hslash]

instance (a b : String) : Decidable (Nearer a b) := decidable_of_iff _ isNearer_iff

/-- Three notes have the name; none is beside the source, and of the two shortest paths
the first one counts, although it comes last. -/
theorem resolve?_sound_three_notes :
    let paths := ["deep/nested/Note.md", "b/Note.md", "a/NOTE.md"]
    ToldApart paths ∧ ["b/Note.md", "a/NOTE.md", "deep/nested/Note.md"].Perm paths ∧
      (∀ p ∈ paths, lowercase p ∉ exactPaths (linkKey " note ") (parentFolder "x/y.md")) ∧
      (ofPaths ["b/Note.md", "a/NOTE.md", "deep/nested/Note.md"]).resolve? " note " "x/y.md" =
        some "a/NOTE.md" := by
  intro paths
  have hapart : ToldApart paths := ⟨by decide +kernel, by decide +kernel, by decide +kernel⟩
  have hperm : ["b/Note.md", "a/NOTE.md", "deep/nested/Note.md"].Perm paths := by decide
  have hexact : ∀ p ∈ paths,
      lowercase p ∉ exactPaths (linkKey " note ") (parentFolder "x/y.md") := by
    decide +kernel
  have hpreferred : Preferred (meantBy paths (linkKey " note ")) (parentFolder "x/y.md")
      "a/NOTE.md" :=
    ⟨by decide +kernel, by decide +kernel, fun _ => ⟨by decide +kernel, by decide +kernel⟩⟩
  obtain ⟨horder, -, hname⟩ := resolve?_sound hapart " note " "x/y.md"
  refine ⟨hapart, hperm, hexact, ?_⟩
  rw [horder _ hperm]
  exact (hname hexact _).2 ⟨by decide +kernel, by decide +kernel, hpreferred⟩

end LinkResolver

end NoteVault
