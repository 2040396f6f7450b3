import Mathlib.Data.List.Basic
import Mathlib.Data.List.Induction
import NoteVault.Index.Cache
import NoteVault.Proofs.Collation.Preorder
import NoteVault.Proofs.Index.Contents
import NoteVault.Proofs.Index.Fingerprint

/-!
# Runs of an index cache

A cache answers a lookup with the index it holds whenever the fingerprint is the
one of the last lookup, and fingerprints leave out sizes, creation times and
metadata.  So an answer need not be the index of the snapshot that is asked
about.  This module says what it is, for every run of lookups and of requests to
forget the index.

**What an outline decides.**  A record is *bare* without its size, its creation
time, its tags and its properties.  The bare records of a snapshot are a function
of its outline, and so are the folders and all choices that the rules make:
indexes of snapshots with one outline are `Alike`.

**The run.**  After a lookup a cache holds the fingerprint of that lookup
(`held_print_run`), with the index of some lookup of the run that had the same
fingerprint (`held_index_run`).  Where the digests of a run do not collide, this
decides which lookups build (`rebuilt_iff_stale`) and which indexes they give.
-/

namespace NoteVault

/-! ## What an outline decides -/

/-- A record without what its path and its time do not decide: size, creation
time, tags and properties. -/
def FileRecord.bare (file : FileRecord) : FileRecord :=
  { file with size := 0, created := none, displayTags := [], tags := [], properties := [] }

theorem FileRecord.bare_ofParts (path : String) (stat : FileStat) (known : Option Metadata) :
    (ofParts path stat known).bare = ofParts path ⟨0, none, stat.modified⟩ none := by
  simp only [bare, ofParts, Option.map_none, Option.getD_none, List.map_nil, firstOccurrences,
    List.foldl_nil]

/-- The bare record of an outline that is a file. -/
def Outline.record? : Outline → Option FileRecord
  | .file path modified => some (FileRecord.ofParts path ⟨0, none, modified⟩ none)
  | .folder _ => none

/-- The folder of an outline; the vault itself does not count as one. -/
def Outline.folder? : Outline → Option String
  | .file _ _ => none
  | .folder path => if path = "" ∨ path = "/" then none else some path

theorem Snapshot.map_bare_records (s : Snapshot) :
    s.records.map FileRecord.bare = s.outline.filterMap Outline.record? := by
  rw [records, outline, List.map_filterMap, List.filterMap_map]
  congr 1
  funext e
  cases e with
  | file path stat => exact congrArg some (FileRecord.bare_ofParts path stat _)
  | folder path => rfl

theorem Snapshot.folders_eq (s : Snapshot) : s.folders = s.outline.filterMap Outline.folder? := by
  rw [folders, outline, List.filterMap_map]
  congr 1
  funext e
  cases e <;> rfl

theorem Snapshot.map_bare_shown (s : Snapshot) (rules : Exclusion) :
    (s.shown rules).map FileRecord.bare =
      (s.outline.filterMap Outline.record?).filter fun file => !rules.hides file := by
  rw [← map_bare_records, List.filter_map, shown]
  rfl

namespace VaultIndex

/-- **Indexes that agree but for sizes, creation times, tags and properties**:
they hold the same folders, the same files in the same order in every list, and
for each path both or neither a record, with the same time. -/
structure Alike (a b : VaultIndex) : Prop where
  folders : a.folders = b.folders
  allFiles : a.allFiles.map FileRecord.bare = b.allFiles.map FileRecord.bare
  filteredFiles : a.filteredFiles.map FileRecord.bare = b.filteredFiles.map FileRecord.bare
  filesIn : ∀ c, (a.filesIn c).map FileRecord.bare = (b.filesIn c).map FileRecord.bare
  record? : ∀ path, (a.record? path).map FileRecord.bare = (b.record? path).map FileRecord.bare

variable [Collator]

/-- **Snapshots with one outline have indexes that are alike.** -/
theorem alike_of_outline_eq {s s' : Snapshot} (rules : Exclusion)
    (h : s.outline = s'.outline) : (classify s rules).Alike (classify s' rules) := by
  have hshown : (s.shown rules).map FileRecord.bare = (s'.shown rules).map FileRecord.bare := by
    rw [s.map_bare_shown, s'.map_bare_shown, h]
  -- A choice that reads the bare record only can be made after baring.
  have hpart : ∀ p : FileRecord → Bool, (∀ file, p file.bare = p file) →
      ((s.shown rules).filter p).map FileRecord.bare =
        ((s'.shown rules).filter p).map FileRecord.bare := by
    intro p hp
    have hmove : ∀ files : List FileRecord,
        (files.filter p).map FileRecord.bare = (files.map FileRecord.bare).filter p := by
      intro files
      rw [List.filter_map, show p ∘ FileRecord.bare = p from funext hp]
    rw [hmove, hmove, hshown]
  constructor
  · rw [classify_folders, classify_folders, s.folders_eq, s'.folders_eq, h]
  · rw [classify_allFiles, classify_allFiles, s.map_bare_records, s'.map_bare_records, h]
  · rw [classify_filteredFiles, classify_filteredFiles, hshown]
  · intro c
    rw [classify_filesIn, classify_filesIn]
    exact hpart _ fun _ => rfl
  · intro path
    rw [classify_record?, classify_record?, ← List.getLast?_map, ← List.getLast?_map]
    exact congrArg List.getLast? (hpart _ fun _ => rfl)

/-- Snapshots with the same entries, which know the same of their files, have
the same index. -/
theorem classify_eq_of_entries_eq {s s' : Snapshot} (rules : Exclusion)
    (hentries : s.entries = s'.entries)
    (hknown : ∀ path stat, SnapshotEntry.file path stat ∈ s.entries →
      s.metadata.find? path = s'.metadata.find? path) :
    classify s rules = classify s' rules := by
  have hrecords : s.records = s'.records := by
    rw [Snapshot.records, Snapshot.records, ← hentries]
    refine List.filterMap_congr fun e he => ?_
    cases e with
    | folder path => rfl
    | file path stat => rw [SnapshotEntry.record?, SnapshotEntry.record?, hknown path stat he]
  exact classify_congr rules hrecords (by rw [Snapshot.folders, Snapshot.folders, hentries])

end VaultIndex

namespace IndexCache

/-! ## Runs -/

/-- What is asked of a cache. -/
inductive Request where
  | lookup (snapshot : Snapshot) (rules : Exclusion)
  | invalidate

/-- The snapshot and the rules of a lookup. -/
def Request.looked? : Request → Option (Snapshot × Exclusion)
  | .lookup s rules => some (s, rules)
  | .invalidate => none

/-- The snapshots and the rules of the lookups, in order. -/
def lookups (requests : List Request) : List (Snapshot × Exclusion) :=
  requests.filterMap Request.looked?

theorem lookups_append (as bs : List Request) : lookups (as ++ bs) = lookups as ++ lookups bs :=
  List.filterMap_append

theorem mem_lookups_of_split {requests before later : List Request} {s : Snapshot}
    {rules : Exclusion} (hrun : requests = before ++ .lookup s rules :: later) :
    (s, rules) ∈ lookups requests := by
  rw [hrun, lookups_append]
  exact List.mem_append_right _ List.mem_cons_self

section Collated

variable [Collator]

/-- The cache after a request. -/
def next (cache : IndexCache) : Request → IndexCache
  | .lookup s rules => (cache.request s rules).cache
  | .invalidate => cache.invalidate

/-- The answer to a request; forgetting the index has none. -/
def answer? (cache : IndexCache) : Request → Option Answer
  | .lookup s rules => some (cache.request s rules)
  | .invalidate => none

/-- The cache after several requests. -/
def run (cache : IndexCache) (requests : List Request) : IndexCache := requests.foldl next cache

/-- The answers to several requests, in order. -/
def answers : IndexCache → List Request → List Answer
  | _, [] => []
  | cache, r :: rs => (cache.answer? r).toList ++ answers (cache.next r) rs

theorem run_concat (cache : IndexCache) (before : List Request) (r : Request) :
    cache.run (before ++ [r]) = (cache.run before).next r := by
  rw [run, List.foldl_append]
  rfl

theorem answers_append (cache : IndexCache) (before later : List Request) :
    cache.answers (before ++ later) = cache.answers before ++ (cache.run before).answers later := by
  induction before generalizing cache with
  | nil => rfl
  | cons r before ih =>
    rw [List.cons_append, answers, answers, ih, List.append_assoc]
    rfl

/-- **What a lookup does.**  Either the fingerprint is the one held, the index
held is the answer and the cache stays, or the index is built and kept. -/
theorem request_cases (cache : IndexCache) (s : Snapshot) (rules : Exclusion) :
    (∃ index, cache.held = some (fingerprint s rules, index) ∧
        cache.request s rules = ⟨cache, index, false⟩) ∨
      (cache.held.map Prod.fst ≠ some (fingerprint s rules) ∧
        cache.request s rules =
          ⟨⟨some (fingerprint s rules, .classify s rules), cache.rebuilds + 1⟩,
            .classify s rules, true⟩) := by
  unfold request
  dsimp only
  split
  · rename_i held index hheld
    split
    · rename_i heq
      exact Or.inl ⟨index, by rw [hheld, heq], rfl⟩
    · rename_i hne
      exact Or.inr ⟨by rw [hheld]; exact fun h => hne (Option.some.inj h), rfl⟩
  · rename_i hheld
    exact Or.inr ⟨by rw [hheld]; exact nofun, rfl⟩

theorem rebuilt_request (cache : IndexCache) (s : Snapshot) (rules : Exclusion) :
    (cache.request s rules).rebuilt = true ↔
      cache.held.map Prod.fst ≠ some (fingerprint s rules) := by
  rcases cache.request_cases s rules with ⟨index, hheld, heq⟩ | ⟨hheld, heq⟩
  · rw [heq, hheld]
    exact ⟨nofun, fun h => absurd rfl h⟩
  · rw [heq]
    exact ⟨fun _ => hheld, fun _ => rfl⟩

/-- A lookup counts as one more index exactly when it builds. -/
theorem rebuilds_request (cache : IndexCache) (s : Snapshot) (rules : Exclusion) :
    (cache.request s rules).cache.rebuilds =
      cache.rebuilds + if (cache.request s rules).rebuilt then 1 else 0 := by
  rcases cache.request_cases s rules with ⟨index, _, heq⟩ | ⟨_, heq⟩ <;> rw [heq] <;> rfl

/-- After a lookup a cache holds the fingerprint of that lookup. -/
theorem held_print_request (cache : IndexCache) (s : Snapshot) (rules : Exclusion) :
    (cache.request s rules).cache.held.map Prod.fst = some (fingerprint s rules) := by
  rcases cache.request_cases s rules with ⟨index, hheld, heq⟩ | ⟨_, heq⟩
  · rw [heq, hheld]
    rfl
  · rw [heq]
    rfl

/-- The number of indexes built grows by the answers that were built anew. -/
theorem rebuilds_run (cache : IndexCache) (requests : List Request) :
    (cache.run requests).rebuilds =
      cache.rebuilds + (cache.answers requests).countP fun answer => answer.rebuilt := by
  induction requests generalizing cache with
  | nil => rfl
  | cons r requests ih =>
    have hrun : cache.run (r :: requests) = (cache.next r).run requests := rfl
    rw [hrun, ih, answers, List.countP_append, ← Nat.add_assoc]
    congr 1
    cases r with
    | invalidate => rfl
    | lookup s rules =>
      show (cache.request s rules).cache.rebuilds =
        cache.rebuilds + [cache.request s rules].countP fun answer => answer.rebuilt
      rw [rebuilds_request, List.countP_singleton]

/-- Each lookup has one answer. -/
theorem length_answers (cache : IndexCache) (requests : List Request) :
    (cache.answers requests).length = (lookups requests).length := by
  induction requests generalizing cache with
  | nil => rfl
  | cons r requests ih =>
    rw [answers, List.length_append, ih]
    cases r with
    | invalidate => exact Nat.zero_add _
    | lookup s rules => exact Nat.add_comm _ _

/-- **No run overflows a counter of 64 bits** that has fewer lookups than such a counter
can count. -/
theorem rebuilds_run_lt {requests : List Request} (h : (lookups requests).length < 2 ^ 64) :
    (empty.run requests).rebuilds < 2 ^ 64 := by
  have hcount := List.countP_le_length (p := fun answer : Answer => answer.rebuilt)
    (l := empty.answers requests)
  rw [length_answers] at hcount
  rw [rebuilds_run]
  exact Nat.lt_of_le_of_lt (Nat.zero_add _ ▸ hcount) h

/-! ## What a cache holds -/

/-- The fingerprint of the last request, if that was a lookup. -/
def lastPrint? (before : List Request) : Option (List UInt8) :=
  match before.getLast? with
  | some (.lookup s rules) => some (fingerprint s rules)
  | _ => none

/-- A cache holds the fingerprint of the last lookup until it forgets. -/
theorem held_print_run (before : List Request) :
    (empty.run before).held.map Prod.fst = lastPrint? before := by
  rcases List.eq_nil_or_concat before with rfl | ⟨earlier, r, rfl⟩
  · rfl
  · rw [List.concat_eq_append, run_concat, lastPrint?, List.getLast?_concat]
    cases r with
    | invalidate => rfl
    | lookup s rules => exact (empty.run earlier).held_print_request s rules

/-- The index held is the index of a lookup of the run with the fingerprint
held. -/
theorem held_index_run (before : List Request) {print : List UInt8} {index : VaultIndex}
    (h : (empty.run before).held = some (print, index)) :
    ∃ p ∈ lookups before, fingerprint p.1 p.2 = print ∧ index = .classify p.1 p.2 := by
  induction before using List.reverseRecOn generalizing print index with
  | nil => exact nomatch h
  | append_singleton earlier r ih =>
    rw [lookups_append]
    rw [run_concat] at h
    cases r with
    | invalidate => exact nomatch h
    | lookup s rules =>
      rw [next] at h
      rcases (empty.run earlier).request_cases s rules with ⟨known, _, heq⟩ | ⟨_, heq⟩
      · -- A hit keeps the cache, so the index is from an earlier lookup.
        rw [heq] at h
        obtain ⟨p, hp, hpr⟩ := ih h
        exact ⟨p, List.mem_append_left _ hp, hpr⟩
      · rw [heq] at h
        obtain ⟨rfl, rfl⟩ := Prod.mk.inj (Option.some.inj h)
        exact ⟨(s, rules), List.mem_append_right _ List.mem_cons_self, rfl, rfl⟩

/-- So is the index of an answer, for the lookups up to this one. -/
theorem index_request_run (before : List Request) (s : Snapshot) (rules : Exclusion) :
    ∃ p ∈ lookups (before ++ [.lookup s rules]), fingerprint p.1 p.2 = fingerprint s rules ∧
      ((empty.run before).request s rules).index = .classify p.1 p.2 := by
  rw [lookups_append]
  rcases (empty.run before).request_cases s rules with ⟨index, hheld, heq⟩ | ⟨_, heq⟩
  · obtain ⟨p, hp, hprint, hindex⟩ := held_index_run before hheld
    exact ⟨p, List.mem_append_left _ hp, hprint, by rw [heq]; exact hindex⟩
  · exact ⟨(s, rules), List.mem_append_right _ List.mem_cons_self, rfl, by rw [heq]⟩

/-! ## Runs without collisions -/

/-- The digests of a run tell apart the bytes that are digested in it. -/
def CollisionFree (requests : List Request) : Prop :=
  ∀ p ∈ lookups requests, ∀ q ∈ lookups requests,
    fingerprint p.1 p.2 = fingerprint q.1 q.2 →
      Fingerprint.bytes p.1 p.2 = Fingerprint.bytes q.1 q.2

/-- Two lookups differ in an entry (its kind, its path or its time) or in the
names that the rules hide. -/
def Differ (p q : Snapshot × Exclusion) : Prop :=
  p.1.outline ≠ q.1.outline ∨ p.2.extensions ≠ q.2.extensions ∨ p.2.folders ≠ q.2.folders

/-- **When a lookup has to build**: it is the first one, the index has been
forgotten since the last one, or it differs from the last one. -/
def Stale (before : List Request) (s : Snapshot) (rules : Exclusion) : Prop :=
  lookups before = [] ∨
    (∃ earlier between, before = earlier ++ .invalidate :: between ∧ lookups between = []) ∨
      ∃ last, (lookups before).getLast? = some last ∧ Differ last (s, rules)

/-- Snapshots of a run that have the same outline agree in sizes and creation
times, and know the same of their files. -/
def OutlineDecides (requests : List Request) : Prop :=
  ∀ p ∈ lookups requests, ∀ q ∈ lookups requests, p.1.outline = q.1.outline →
    p.1.entries = q.1.entries ∧
      ∀ path stat, SnapshotEntry.file path stat ∈ p.1.entries →
        p.1.metadata.find? path = q.1.metadata.find? path

omit [Collator] in
/-- Behind a lookup, only a difference makes the next one build. -/
theorem stale_concat_lookup {earlier : List Request} {s' s : Snapshot} {rules' rules : Exclusion} :
    Stale (earlier ++ [.lookup s' rules']) s rules ↔ Differ (s', rules') (s, rules) := by
  have hlookups : lookups (earlier ++ [.lookup s' rules']) = lookups earlier ++ [(s', rules')] :=
    lookups_append _ _
  rw [Stale, hlookups, List.getLast?_concat]
  constructor
  · rintro (hnone | ⟨as, bs, hsplit, hbs⟩ | ⟨last, hlast, hdiffer⟩)
    · exact absurd hnone (List.append_ne_nil_of_right_ne_nil _ (List.cons_ne_nil _ _))
    · -- The lookup is the last request, so it stands behind the forgetting.
      exfalso
      rcases List.eq_nil_or_concat bs with rfl | ⟨cs, r, rfl⟩
      · exact nomatch (List.append_inj' hsplit rfl).2
      · rw [List.concat_eq_append] at hsplit hbs
        have hr : Request.lookup s' rules' = r := by
          have hlast := congrArg List.getLast? hsplit
          rw [List.getLast?_concat, ← List.cons_append, ← List.append_assoc,
            List.getLast?_concat] at hlast
          exact Option.some.inj hlast
        rw [lookups_append, ← hr] at hbs
        exact nomatch (List.append_eq_nil_iff.1 hbs).2
    · rw [← Option.some.inj hlast] at hdiffer
      exact hdiffer
  · exact fun hdiffer => Or.inr (Or.inr ⟨_, rfl, hdiffer⟩)

section NoCollision

variable {requests : List Request} (hfit : ∀ p ∈ lookups requests, p.1.PathsFit)
  (hfree : CollisionFree requests)

include hfit hfree

omit [Collator] in
/-- Where digests do not collide, fingerprints tell exactly whether two lookups
of the run differ. -/
theorem fingerprint_eq_iff {p q : Snapshot × Exclusion} (hp : p ∈ lookups requests)
    (hq : q ∈ lookups requests) :
    fingerprint p.1 p.2 = fingerprint q.1 q.2 ↔
      p.1.outline = q.1.outline ∧ p.2.extensions = q.2.extensions ∧
        p.2.folders = q.2.folders := by
  constructor
  · exact fun h => Fingerprint.eq_of_bytes_eq (hfit p hp) (hfit q hq) (hfree p hp q hq h)
  · rintro ⟨houtline, hext, hfolders⟩
    rw [fingerprint, fingerprint, Fingerprint.bytes_congr houtline hext hfolders]

omit [Collator] in
theorem differ_iff {p q : Snapshot × Exclusion} (hp : p ∈ lookups requests)
    (hq : q ∈ lookups requests) : Differ p q ↔ fingerprint p.1 p.2 ≠ fingerprint q.1 q.2 := by
  rw [Ne, fingerprint_eq_iff hfit hfree hp hq, not_and_or, not_and_or]
  rfl

/-- **A lookup builds exactly when it has to.** -/
theorem rebuilt_iff_stale {before later : List Request} {s : Snapshot} {rules : Exclusion}
    (hrun : requests = before ++ .lookup s rules :: later) :
    ((empty.run before).request s rules).rebuilt = true ↔ Stale before s rules := by
  rw [rebuilt_request, held_print_run]
  rcases List.eq_nil_or_concat before with rfl | ⟨earlier, r, rfl⟩
  · exact ⟨fun _ => Or.inl rfl, fun _ => nofun⟩
  · rw [List.concat_eq_append] at hrun ⊢
    rw [lastPrint?, List.getLast?_concat]
    cases r with
    | invalidate => exact ⟨fun _ => Or.inr (Or.inl ⟨earlier, [], rfl, rfl⟩), fun _ => nofun⟩
    | lookup s' rules' =>
      have hprev : (s', rules') ∈ lookups requests :=
        mem_lookups_of_split (hrun.trans (List.append_assoc _ _ _))
      have hnow : (s, rules) ∈ lookups requests := mem_lookups_of_split hrun
      rw [stale_concat_lookup, differ_iff hfit hfree hprev hnow]
      exact not_congr (Option.some_inj)

/-- Every answer is the index of a lookup of the run with the same outline,
under the same rules. -/
theorem index_of_outline {before later : List Request} {s : Snapshot} {rules : Exclusion}
    (hrun : requests = before ++ .lookup s rules :: later) :
    ∃ t, (t, rules) ∈ lookups requests ∧ t.outline = s.outline ∧
      ((empty.run before).request s rules).index = .classify t rules := by
  obtain ⟨⟨t, trules⟩, hp, hprint, hindex⟩ := index_request_run before s rules
  have hlookups : lookups requests =
      lookups (before ++ [.lookup s rules]) ++ lookups later := by
    rw [hrun, ← lookups_append, List.append_assoc]
    rfl
  have hmem : (t, trules) ∈ lookups requests := by
    rw [hlookups]
    exact List.mem_append_left _ hp
  obtain ⟨houtline, hext, hfolders⟩ :=
    (fingerprint_eq_iff hfit hfree hmem (mem_lookups_of_split hrun)).1 hprint
  -- Rules are their two sets of names.
  have hrules : trules = rules := by
    cases trules
    cases rules
    exact congr (congrArg Exclusion.mk hext) hfolders
  subst hrules
  exact ⟨t, hmem, houtline, hindex⟩

/-- **Every run of a cache is sound.**  Each lookup builds exactly when it has
to, the number of indexes built is the number of answers built anew, and every
answer is like the index of the snapshot that is asked about — the same index,
where snapshots of the run with one outline do not differ in anything else. -/
theorem run_sound :
    (empty.run requests).rebuilds =
        ((empty.answers requests).countP fun answer => answer.rebuilt) ∧
      ∀ before s rules later, requests = before ++ .lookup s rules :: later →
        ∃ answer : Answer,
          empty.answers requests =
              empty.answers before ++ answer :: answer.cache.answers later ∧
            (answer.rebuilt = true ↔ Stale before s rules) ∧
            answer.index.Alike (.classify s rules) ∧
            (OutlineDecides requests → answer.index = .classify s rules) := by
  refine ⟨by rw [rebuilds_run]; exact Nat.zero_add _, ?_⟩
  intro before s rules later hrun
  refine ⟨(empty.run before).request s rules, ?_, rebuilt_iff_stale hfit hfree hrun, ?_, ?_⟩
  · rw [hrun, answers_append]
    rfl
  · obtain ⟨t, _, houtline, hindex⟩ := index_of_outline hfit hfree hrun
    rw [hindex]
    exact VaultIndex.alike_of_outline_eq rules houtline
  · intro hdecides
    obtain ⟨t, ht, houtline, hindex⟩ := index_of_outline hfit hfree hrun
    obtain ⟨hentries, hknown⟩ := hdecides _ ht _ (mem_lookups_of_split hrun) houtline
    rw [hindex]
    exact VaultIndex.classify_eq_of_entries_eq rules hentries hknown

end NoCollision

end Collated

/-- A vault with one note, changed at a given time. -/
def noteChangedAt (ms : Int64) : Snapshot :=
  { Snapshot.empty with entries := [.file "a.md" ⟨1, none, some ms⟩] }

/-- A note changes between two lookups; then the index is forgotten, and looked
up twice. -/
def changeRun : List Request :=
  [.lookup (noteChangedAt 5) .none, .lookup (noteChangedAt 6) .none, .invalidate,
    .lookup (noteChangedAt 6) .none, .lookup (noteChangedAt 6) .none]

theorem mem_lookups_changeRun {p : Snapshot × Exclusion} (hp : p ∈ lookups changeRun) :
    p = (noteChangedAt 5, .none) ∨ p = (noteChangedAt 6, .none) := by
  have hlookups : lookups changeRun =
      (noteChangedAt 5, .none) :: List.replicate 3 (noteChangedAt 6, .none) := rfl
  rw [hlookups, List.mem_cons, List.mem_replicate] at hp
  exact hp.imp id And.right

theorem collisionFree_changeRun : CollisionFree changeRun := by
  have hne : fingerprint (noteChangedAt 5) .none ≠ fingerprint (noteChangedAt 6) .none := by
    decide +kernel
  intro p hp q hq h
  rcases mem_lookups_changeRun hp with rfl | rfl <;>
    rcases mem_lookups_changeRun hq with rfl | rfl
  · rfl
  · exact absurd h hne
  · exact absurd h.symm hne
  · rfl

theorem outlineDecides_changeRun : OutlineDecides changeRun := by
  intro p hp q hq h
  rcases mem_lookups_changeRun hp with rfl | rfl <;>
    rcases mem_lookups_changeRun hq with rfl | rfl
  · exact ⟨rfl, fun _ _ _ => rfl⟩
  · exact absurd h (by decide)
  · exact absurd h (by decide)
  · exact ⟨rfl, fun _ _ _ => rfl⟩

attribute [local instance] Collation.inLowercase

/-- In this run the lookup behind the forgetting builds the index of the note as
it is by then. -/
theorem run_sound_changeRun :
    (∀ p ∈ lookups changeRun, p.1.PathsFit) ∧ CollisionFree changeRun ∧
      OutlineDecides changeRun ∧
      ∃ answer ∈ empty.answers changeRun,
        answer.rebuilt = true ∧ answer.index = .classify (noteChangedAt 6) .none := by
  have hfit : ∀ p ∈ lookups changeRun, p.1.PathsFit := by
    intro p hp e he
    rcases mem_lookups_changeRun hp with rfl | rfl <;> obtain rfl := List.mem_singleton.1 he <;>
      decide
  obtain ⟨answer, hanswers, hbuilt, _, hindex⟩ :=
    (run_sound hfit collisionFree_changeRun).2
      [.lookup (noteChangedAt 5) .none, .lookup (noteChangedAt 6) .none, .invalidate] _ _ _ rfl
  refine ⟨hfit, collisionFree_changeRun, outlineDecides_changeRun, answer, ?_, ?_, ?_⟩
  · rw [hanswers]
    exact List.mem_append_right _ List.mem_cons_self
  · exact hbuilt.2 (Or.inr (Or.inl ⟨[_, _], [], rfl, rfl⟩))
  · exact hindex outlineDecides_changeRun

end IndexCache

end NoteVault
