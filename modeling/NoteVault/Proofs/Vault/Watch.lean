import NoteVault.Proofs.Vault.Path
import NoteVault.Vault.Load
import NoteVault.Vault.Watch

/-!
# Changes of the files that are read

A vault is read from all files of which no name is ignored, and from two files of the
host application, whose folder may be ignored.  A change on the disk has to be noticed
where it concerns one of them.  The files of the host are opened by joining paths, but
they are told from other files by comparing the steps of paths, so the question is
whether both mean the same places.

A place is described by the names along a path (`location`), which is where the path
leads in a tree without links (`location_of_resolve`).  In these terms
`DiskChange.isReadPath_iff` says which paths are noticed.  Among them are all that are
listed when a vault is read (`DiskChange.isReadPath_of_mem_list`), and the files of the
host, if their folder begins with a name (`changes_of_read_files_are_seen`).  If it
begins with a dot, their changes are noticed only where the folder is not ignored.
-/

namespace NoteVault

open Text

/-! ## Where paths lead -/

namespace DiskNode

/-- There are no links in a tree. -/
def LinkFree (disk : DiskNode) : Prop := ∀ names target, disk.at? names ≠ some (.link target)

theorem at?_concat {disk : DiskNode} {here : List String} {members : List (String × DiskNode)}
    (h : disk.at? here = some (.folder members)) (name : String) :
    disk.at? (here ++ [name]) = members.lookup name := by
  induction here generalizing disk with
  | nil =>
    obtain rfl := Option.some.inj h
    rw [List.nil_append, at?, member?]
    cases members.lookup name <;> rfl
  | cons first here ih =>
    rw [at?] at h
    rw [List.cons_append, at?]
    cases hfirst : disk.member? first with
    | none => rw [hfirst] at h; cases h
    | some node =>
      rw [hfirst] at h
      exact ih h

theorem follow_of_linkFree {disk : DiskNode} (hfree : disk.LinkFree) {links : Nat}
    {here steps place : List String} (hup : ".." ∉ steps)
    (h : disk.follow links here steps = .ok place) :
    place = here ++ steps.filter fun s => s ≠ "" ∧ s ≠ "." := by
  -- By the steps that are followed; the way up and links do not come up.
  fun_induction follow disk links here steps with
  | case1 links here => simpa using h.symm
  | case2 links here step steps members hat hgap ih =>
    have hdropped : ¬ (step ≠ "" ∧ step ≠ ".") := fun hkept => hgap.elim hkept.1 hkept.2
    rw [ih (List.not_mem_of_not_mem_cons hup) h, List.filter_cons,
      if_neg (mt of_decide_eq_true hdropped)]
  | case3 => exact absurd List.mem_cons_self hup
  | case4 => cases h
  | case5 => cases h
  | case6 here step steps members hat hgap hstep target hlookup =>
    exact absurd ((at?_concat hat step).trans hlookup) (hfree _ _)
  | case7 links here step steps members hat hgap hstep member hlink hlookup ih =>
    rw [ih (List.not_mem_of_not_mem_cons hup) h, List.filter_cons,
      if_pos (decide_eq_true (not_or.1 hgap)), List.append_assoc, List.singleton_append]
  | case8 => cases h
  | case9 => cases h

/-- **In a tree without links a path leads along its names**, unless it goes up. -/
theorem location_of_resolve {disk : DiskNode} (hfree : disk.LinkFree) {path : String}
    {place : List String} (hup : ".." ∉ location path) (h : disk.resolve path = .ok place) :
    place = location path := by
  rw [resolve] at h
  split at h
  · have hnames : ".." ∉ pathNames path := fun hmem => by
      rw [location_eq_filter] at hup
      exact hup (List.mem_filter.2 ⟨hmem, by decide⟩)
    rw [follow_of_linkFree hfree hnames h, location_eq_filter]
    rfl
  · cases h

/-- The names that are followed are names of members. -/
theorem follow_isName {disk : DiskNode} {links : Nat} {here steps place : List String}
    (hhere : ∀ name ∈ here, IsName name.toList) (hsteps : ∀ step ∈ steps, '/' ∉ step.toList)
    (h : disk.follow links here steps = .ok place) : ∀ name ∈ place, IsName name.toList := by
  fun_induction follow disk links here steps with
  | case1 links here =>
    obtain rfl := Except.ok.inj h
    exact hhere
  | case2 links here step steps members hat hgap ih =>
    exact ih hhere (List.forall_mem_cons.1 hsteps).2 h
  | case3 links here steps members hat hgap ih =>
    exact ih (fun name hname => hhere name ((List.dropLast_sublist here).subset hname))
      (List.forall_mem_cons.1 hsteps).2 h
  | case4 => cases h
  | case5 => cases h
  | case6 here step steps members hat hgap hstep target hlookup links ih =>
    refine ih ?_ ?_ h
    · intro name hname
      split at hname
      · cases hname
      · exact hhere name hname
    · -- The target of the link stands in front of the steps that are left.
      intro other hother
      rcases List.mem_append.1 hother with hother | hother
      · exact no_slash_of_mem_pathNames hother
      · exact (List.forall_mem_cons.1 hsteps).2 other hother
  | case7 links here step steps members hat hgap hstep member hlink hlookup ih =>
    obtain ⟨hslash, hrest⟩ := List.forall_mem_cons.1 hsteps
    obtain ⟨hempty, hdot⟩ := not_or.1 hgap
    refine ih (List.forall_mem_append.2 ⟨hhere, List.forall_mem_singleton.2 ?_⟩) hrest h
    exact ⟨hslash, fun hnil => hempty (String.toList_inj.1 hnil),
      fun heq => hdot (String.toList_inj.1 heq)⟩
  | case8 => cases h
  | case9 => cases h

end DiskNode

/-- The folder of a vault that has been opened is reached by names of members. -/
theorem Vault.isName_of_openAt {disk : DiskNode} {opened : String} {vault : Vault}
    (h : Vault.openAt disk opened = .ok vault) : ∀ name ∈ vault.root, IsName name.toList := by
  rw [openAt] at h
  cases hresolve : disk.resolve opened with
  | error fault =>
    rw [hresolve] at h
    cases h
  | ok names =>
    rw [hresolve] at h
    dsimp only at h
    split at h
    · obtain rfl := Except.ok.inj h
      rw [DiskNode.resolve] at hresolve
      split at hresolve
      · exact DiskNode.follow_isName (fun _ hmem => absurd hmem List.not_mem_nil)
          (fun _ => no_slash_of_mem_pathNames) hresolve
      · cases hresolve
    · cases h

/-! ## The files of the host -/

/-- The step of a path that a segment stands for. -/
def PathStep.ofSegment (s : List Char) : PathStep :=
  if s = ['.', '.'] then .up else .name (String.ofList s)

theorem PathStep.ofSegment_injective {s t : List Char} (h : ofSegment s = ofSegment t) :
    s = t := by
  rw [ofSegment, ofSegment] at h
  split at h
  · split at h
    · rename_i hs ht
      rw [hs, ht]
    · cases h
  · split at h
    · cases h
    · exact String.ofList_inj.1 (PathStep.name.inj h)

/-- A path that begins with a name is made of its segments alone. -/
theorem pathSteps_of_plainStart {path : List Char} (h : Vault.PlainStart path) :
    pathSteps path = (segments path).map PathStep.ofSegment := by
  by_cases hne : path = []
  · subst hne
    rfl
  · have hname := Vault.isName_takeWhile h hne
    obtain ⟨ps, hpieces⟩ := exists_pieces_eq_cons '/' path
    rw [pathSteps, hpieces]
    split
    · rename_i heq
      exact absurd (List.cons.inj heq).1 hname.ne_nil
    · rename_i heq
      exact absurd (List.cons.inj heq).1 hname.ne_dot
    · rfl

/-- Any other path has a step in front of its segments, which no segment stands for. -/
theorem exists_pathSteps_eq_cons {path : List Char} (h : ¬ Vault.PlainStart path) :
    ∃ first, (∀ s, PathStep.ofSegment s ≠ first) ∧
      pathSteps path = first :: (segments path).map PathStep.ofSegment := by
  have hroot : ∀ s, PathStep.ofSegment s ≠ .root := fun s => by
    rw [PathStep.ofSegment]
    split <;> exact nofun
  have hhere : ∀ s, PathStep.ofSegment s ≠ .here := fun s => by
    rw [PathStep.ofSegment]
    split <;> exact nofun
  fun_cases Vault.skipGaps path with
  | case1 cs =>
    obtain ⟨ps, hpieces⟩ := exists_pieces_eq_cons '/' cs
    have hall : pieces '/' ('/' :: cs) = [] :: pieces '/' cs := if_pos rfl
    refine ⟨.root, hroot, ?_⟩
    rw [pathSteps, hall, hpieces]
    rfl
  | case2 => exact ⟨.here, hhere, rfl⟩
  | case3 cs =>
    have hall : pieces '/' ('.' :: '/' :: cs) = ['.'] :: pieces '/' cs :=
      pieces_append_cons ['.'] cs
    refine ⟨.here, hhere, ?_⟩
    rw [pathSteps, hall]
    rfl
  | case4 _ hslash hdot hdotSlash => exact absurd ⟨hslash, hdot, hdotSlash⟩ h

theorem afterSteps?_eq_some_iff {beginning steps rest : List PathStep} :
    afterSteps? beginning steps = some rest ↔ steps = beginning ++ rest := by
  induction beginning generalizing steps with
  | nil => exact ⟨Option.some.inj, congrArg some⟩
  | cons first beginning ih =>
    cases steps with
    | nil => exact ⟨nofun, nofun⟩
    | cons step steps =>
      rw [afterSteps?, List.cons_append, List.cons.injEq]
      by_cases hstep : first = step
      · rw [if_pos hstep, ih]
        exact (and_iff_right hstep.symm).symm
      · rw [if_neg hstep]
        exact ⟨nofun, fun h => absurd h.1.symm hstep⟩

theorem isHostFile_iff_pathSteps {path : List Char} {hostFolder : String} :
    isHostFile path hostFolder = true ↔ ∃ name ∈ hostFiles,
      pathSteps path = pathSteps hostFolder.toList ++ [.name name] := by
  rw [isHostFile]
  constructor
  · intro h
    split at h
    · rename_i name hafter
      exact ⟨name, List.contains_iff_mem.1 h, afterSteps?_eq_some_iff.1 hafter⟩
    · cases h
  · rintro ⟨name, hname, hsteps⟩
    rw [afterSteps?_eq_some_iff.2 hsteps]
    exact List.contains_iff_mem.2 hname

theorem ofSegment_of_mem_hostFiles {name : String} (h : name ∈ hostFiles) :
    PathStep.ofSegment name.toList = .name name := by
  have hup : name.toList ≠ ['.', '.'] := by
    revert name
    decide
  rw [PathStep.ofSegment, if_neg hup, String.ofList_toList]

/-- **A file of the host is told by its segments**, if its folder begins with a name. -/
theorem isHostFile_iff {path : List Char} {hostFolder : String} (hpath : Vault.PlainStart path) :
    isHostFile path hostFolder = true ↔ Vault.PlainStart hostFolder.toList ∧
      ∃ name ∈ hostFiles, segments path = segments hostFolder.toList ++ [name.toList] := by
  rw [isHostFile_iff_pathSteps, pathSteps_of_plainStart hpath]
  by_cases hstart : Vault.PlainStart hostFolder.toList
  · rw [and_iff_right hstart, pathSteps_of_plainStart hstart]
    refine exists_congr fun name => and_congr_right fun hname => ?_
    rw [← ofSegment_of_mem_hostFiles hname, ← List.map_singleton, ← List.map_append]
    exact List.map_inj_right fun _ _ => PathStep.ofSegment_injective
  · -- The step in front of the folder is none of the steps of the path.
    obtain ⟨first, hfirst, hsteps⟩ := exists_pathSteps_eq_cons hstart
    refine iff_of_false ?_ fun h => hstart h.1
    rintro ⟨name, -, heq⟩
    rw [hsteps, List.cons_append, List.map_eq_cons_iff] at heq
    obtain ⟨s, _, _, hs, _⟩ := heq
    exact hfirst s hs

/-! ## The changes that are seen -/

theorem segments_of_mem_hostFiles {name : String} (h : name ∈ hostFiles) :
    segments name.toList = [name.toList] := by
  revert name
  decide

theorem isAbsolute_of_mem_hostFiles {name : String} (h : name ∈ hostFiles) :
    isAbsolute name = false := by
  revert name
  decide

/-- A file of the host is read from its folder, which is inside the vault. -/
theorem segments_hostPath {vault : Vault} {settings : Settings} {name : String}
    (hroot : ∀ name ∈ vault.root, IsName name.toList)
    (hrelative : isAbsolute settings.hostFolder = false) (hname : name ∈ hostFiles) :
    segments (hostPath vault settings name).toList =
      vault.root.map String.toList ++ (segments settings.hostFolder.toList ++ [name.toList]) := by
  rw [hostPath, segments_joinPath (isAbsolute_of_mem_hostFiles hname),
    segments_joinPath hrelative, Vault.rootPath, segments_absolutePath hroot,
    segments_of_mem_hostFiles hname, List.append_assoc]

mutual

/-- What is listed is inside the folder, and no name on the way to it is ignored. -/
theorem DiskNode.names_of_mem_list {ignored above names : List String} {found : DiskNode} :
    (node : DiskNode) → (names, found) ∈ node.list ignored above →
      ∃ inside, names = above ++ inside ∧ inside ≠ [] ∧ ∀ name ∈ inside, name ∉ ignored
  | .folder members, h => names_of_mem_listAll members h
  | .file _ _, h => absurd h List.not_mem_nil
  | .link _, h => absurd h List.not_mem_nil

theorem DiskNode.names_of_mem_listAll {ignored above names : List String} {found : DiskNode} :
    (members : List (String × DiskNode)) → (names, found) ∈ listAll ignored above members →
      ∃ inside, names = above ++ inside ∧ inside ≠ [] ∧ ∀ name ∈ inside, name ∉ ignored
  | [], h => absurd h List.not_mem_nil
  | (name, node) :: rest, h => by
    rw [listAll] at h
    split at h
    · exact names_of_mem_listAll rest h
    · rename_i hshown
      have hname : name ∉ ignored := mt List.contains_iff_mem.2 hshown
      rcases List.mem_append.1 h with h | h
      · rcases List.mem_cons.1 h with h | h
        · exact ⟨[name], (Prod.mk.inj h).1, List.cons_ne_nil _ _, List.forall_mem_singleton.2 hname⟩
        · obtain ⟨inside, rfl, -, hinside⟩ := names_of_mem_list node h
          exact ⟨name :: inside, List.append_assoc above [name] inside, List.cons_ne_nil _ _,
            List.forall_mem_cons.2 ⟨hname, hinside⟩⟩
      · exact names_of_mem_listAll rest h

end

namespace DiskChange

variable {vault : Vault} {settings : Settings}

/-- **The paths that are noticed** below a vault: those without an ignored name, and
those of the files of the host, if their folder begins with a name. -/
theorem isReadPath_iff {path : String} {inside : List String}
    (habsolute : isAbsolute path = true) (hplace : location path = vault.root ++ inside)
    (hinside : inside ≠ []) :
    isReadPath vault settings path = true ↔
      (¬ ∃ name ∈ inside, name ≠ ".." ∧ name ∈ settings.ignoredNames) ∨
        (Vault.PlainStart settings.hostFolder.toList ∧
          ∃ name ∈ hostFiles, inside = location settings.hostFolder ++ [name]) := by
  -- What is compared is the rest of the path below the vault, as it is written.
  rw [location_eq_iff, List.map_append] at hplace
  obtain ⟨rest, hbelow, hrest, hstart⟩ := Vault.exists_below? habsolute hplace
  have hnames : (segments rest).map String.ofList = inside := by
    rw [hrest, List.map_map]
    exact List.map_id'' (fun _ => String.ofList_toList) _
  have hne : rest ≠ [] := by
    rintro rfl
    exact hinside hnames.symm
  have hread : isReadPath vault settings path =
      (!hasSegmentIn settings.ignoredNames rest || isHostFile rest settings.hostFolder) := by
    rw [isReadPath, hbelow]
    cases rest with
    | nil => exact absurd rfl hne
    | cons c rest => rfl
  rw [hread, Bool.or_eq_true, Bool.not_eq_true', ← Bool.not_eq_true, hasSegmentIn_iff, hnames,
    isHostFile_iff hstart]
  refine or_congr_right (and_congr_right fun _ => exists_congr fun name => and_congr_right ?_)
  intro _
  rw [← List.map_inj_right fun _ _ => String.toList_inj.1, List.map_append, map_toList_location,
    List.map_singleton, hrest]

/-- **What is listed in a vault is noticed.** -/
theorem isReadPath_of_mem_list {node found : DiskNode} {names : List String}
    (hlisted : (names, found) ∈ node.list settings.ignoredNames []) {path : String}
    (habsolute : isAbsolute path = true) (hplace : location path = vault.root ++ names) :
    isReadPath vault settings path = true := by
  obtain ⟨inside, rfl, hinside, hshown⟩ := DiskNode.names_of_mem_list node hlisted
  rw [isReadPath_iff habsolute hplace hinside]
  exact .inl fun ⟨name, hmem, _, hignored⟩ => hshown name hmem hignored

end DiskChange

/-- **No change of a file that is read goes unseen**, if the folder of the host begins
with a name.  The change is one of a path below an opened vault.  Either no name on the
way from the vault is ignored, or the path is that of a file of the host. -/
theorem changes_of_read_files_are_seen {disk : DiskNode} {opened : String} {vault : Vault}
    (hopen : Vault.openAt disk opened = .ok vault) {settings : Settings}
    (hfolder : Vault.PlainStart settings.hostFolder.toList) {change : DiskChange}
    (halters : change.kind.alters = true) {path : String} (hpath : path ∈ change.paths)
    (habsolute : isAbsolute path = true) {inside : List String}
    (hplace : location path = vault.root ++ inside) (hinside : inside ≠ [])
    (hread : (∀ name ∈ inside, name ∉ settings.ignoredNames) ∨
      ∃ name ∈ hostFiles, location path = location (hostPath vault settings name)) :
    change.isRelevant vault settings = true := by
  have hrelative : isAbsolute settings.hostFolder = false := by
    rw [isAbsolute, beq_eq_false_iff_ne]
    intro hhead
    obtain ⟨rest, hrest⟩ := List.head?_eq_some_iff.1 hhead
    exact hfolder.ne_slash rest hrest
  have hseen : DiskChange.isReadPath vault settings path = true := by
    rw [DiskChange.isReadPath_iff habsolute hplace hinside]
    rcases hread with hshown | ⟨name, hname, hsame⟩
    · exact .inl fun ⟨name, hmem, _, hignored⟩ => hshown name hmem hignored
    · refine .inr ⟨hfolder, name, hname, ?_⟩
      have hhost : location (hostPath vault settings name) =
          vault.root ++ (location settings.hostFolder ++ [name]) := by
        rw [location_eq_iff, List.map_append, List.map_append, map_toList_location]
        exact segments_hostPath (Vault.isName_of_openAt hopen) hrelative hname
      rw [hplace, hhost] at hsame
      exact List.append_cancel_left hsame
  rw [DiskChange.isRelevant, halters, Bool.true_and]
  exact List.any_eq_true.2 ⟨path, hpath, hseen⟩

/-- A vault in which the host application keeps its bookmarks. -/
def bookmarksDisk : DiskNode :=
  .folder [("vault", .folder [(".obsidian", .folder [("bookmarks.json", .file .empty 0)])])]

theorem openAt_bookmarksDisk : Vault.openAt bookmarksDisk "/vault" = .ok ⟨["vault"]⟩ := by
  simp [Vault.openAt, DiskNode.resolve, isAbsolute, pathNames, Text.pieces, DiskNode.follow,
    DiskNode.at?, DiskNode.member?, bookmarksDisk, DiskNode.isFolder]

/-- The folder of the host is ignored, but its bookmarks are read, and taking them away
is seen. -/
theorem changes_of_read_files_are_seen_bookmarks :
    let path := "/vault/.obsidian/bookmarks.json"
    Settings.default.ignoredNames.contains ".obsidian" = true ∧
      location path = location (hostPath ⟨["vault"]⟩ .default "bookmarks.json") ∧
      DiskChange.isRelevant ⟨["vault"]⟩ .default ⟨.remove, [path]⟩ = true := by
  intro path
  have hsame : location path = location (hostPath ⟨["vault"]⟩ .default "bookmarks.json") := by
    decide +kernel
  have hplace : location path = ["vault"] ++ [".obsidian", "bookmarks.json"] := by
    decide +kernel
  refine ⟨by decide, hsame, ?_⟩
  exact changes_of_read_files_are_seen openAt_bookmarksDisk (by decide) rfl
    List.mem_cons_self (by decide) hplace (List.cons_ne_nil _ _)
    (.inr ⟨"bookmarks.json", by decide, hsame⟩)

/-- **Bookmarks behind a dot are missed**: where the folder of the host is written with a
dot in front, the same bookmarks are read from the same place, but a change of them is
not seen. -/
theorem bookmarks_behind_dot_are_missed :
    let settings : Settings := { Settings.default with hostFolder := "./.obsidian" }
    let path := "/vault/.obsidian/bookmarks.json"
    let place := ["vault", ".obsidian", "bookmarks.json"]
    Vault.openAt bookmarksDisk "/vault" = .ok ⟨["vault"]⟩ ∧
      location path = place ∧
      location (hostPath ⟨["vault"]⟩ settings "bookmarks.json") = place ∧
      bookmarksDisk.resolve path = .ok place ∧
      bookmarksDisk.resolve (hostPath ⟨["vault"]⟩ settings "bookmarks.json") = .ok place ∧
      DiskChange.isRelevant ⟨["vault"]⟩ settings ⟨.content, [path]⟩ = false := by
  intro settings path place
  have hhost : hostPath ⟨["vault"]⟩ settings "bookmarks.json" =
      "/vault/./.obsidian/bookmarks.json" := by
    decide +kernel
  refine ⟨openAt_bookmarksDisk, by decide +kernel, by decide +kernel, ?_, ?_, by decide +kernel⟩
  · simp [path, place, DiskNode.resolve, isAbsolute, pathNames, Text.pieces, DiskNode.follow,
      DiskNode.at?, DiskNode.member?, bookmarksDisk]
  · rw [hhost]
    simp [place, DiskNode.resolve, isAbsolute, pathNames, Text.pieces, DiskNode.follow,
      DiskNode.at?, DiskNode.member?, bookmarksDisk]

end NoteVault
