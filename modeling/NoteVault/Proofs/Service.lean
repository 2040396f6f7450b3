import NoteVault.Proofs.Index.Cache
import NoteVault.Proofs.Places
import NoteVault.Proofs.Query.Chain
import NoteVault.Service

/-!
# Reads never disturb a service

Every request but reading the vault anew goes through the cache of the service, which
builds an index whenever it does not hold the fingerprint that it is asked for.  A
service that has been opened always holds the fingerprint of its own snapshot under its
own rules (`Current`): reading the vault brings this about, whether the cache is hit or
not (`current_reload`), and a read, which asks for that very fingerprint, changes
nothing (`next_of_isRead`).  So an answer depends on the request and on what has been
read of the disk, and on no other request (`reads_do_not_disturb`).

Nothing is assumed of the digests: a fingerprint that two snapshots share would give an
old index, but always the same one.
-/

namespace NoteVault

open Calendar Query

namespace IndexCache

/-- A lookup of the fingerprint that is held changes nothing. -/
theorem request_of_held [Collator] {cache : IndexCache} {s : Snapshot} {rules : Exclusion}
    (h : cache.held.map Prod.fst = some (fingerprint s rules)) :
    (cache.request s rules).cache = cache ∧ (cache.request s rules).rebuilt = false := by
  rcases cache.request_cases s rules with ⟨index, -, heq⟩ | ⟨hheld, -⟩
  · rw [heq]
    exact ⟨rfl, rfl⟩
  · exact absurd h hheld

end IndexCache

namespace Service

/-! ## Runs -/

/-- Whether a request leaves the disk alone. -/
def Request.isRead : Request → Bool
  | .reload => false
  | _ => true

theorem isRead_of_ne_reload {r : Request} (h : r ≠ .reload) : r.isRead = true := by
  cases r with
  | reload => exact absurd rfl h
  | _ => rfl

/-- Whether an answer tells that the index had to be built anew. -/
def Reply.isRebuilt : Reply → Bool
  | .reloaded rebuilt => rebuilt
  | _ => false

/-- A request, with the disk and the day as they are by then. -/
structure Asked where
  disk : DiskNode
  today : Day
  request : Request

section Collated

variable [Collator]

/-- The service after a request. -/
def next (s : Service) (a : Asked) : Service := (s.handle a.disk a.today a.request).1

/-- The answer to a request. -/
def answer (s : Service) (a : Asked) : Reply := (s.handle a.disk a.today a.request).2

/-- The service after several requests. -/
def run (s : Service) (asked : List Asked) : Service := asked.foldl next s

/-- The answers to several requests, in order. -/
def answers : Service → List Asked → List Reply
  | _, [] => []
  | s, a :: asked => s.answer a :: answers (s.next a) asked

/-- What each request keeps, a run keeps. -/
theorem run_keeps {P : Service → Prop} (hnext : ∀ s a, P s → P (s.next a)) {s : Service}
    (h : P s) (asked : List Asked) : P (s.run asked) := by
  induction asked generalizing s with
  | nil => exact h
  | cons a asked ih => exact ih (hnext s a h)

/-! ## The index that is held -/

/-- The lookup that a service makes: its own snapshot, under its own rules. -/
def lookup (s : Service) : IndexCache.Answer := s.cache.request s.snapshot s.settings.exclusion

/-- **The cache holds the fingerprint of the present snapshot.** -/
def Current (s : Service) : Prop :=
  s.cache.held.map Prod.fst = some (fingerprint s.snapshot s.settings.exclusion)

theorem current_reload (s : Service) (disk : DiskNode) : (s.reload disk).1.Current :=
  IndexCache.held_print_request _ _ _

/-- A request that goes through the index leaves the service with the cache of its
lookup. -/
theorem fst_withIndex (s : Service) (reply : VaultIndex → Reply) :
    (s.withIndex reply).1 = { s with cache := s.lookup.cache } := rfl

theorem withIndex_of_current {s : Service} (h : s.Current) (reply : VaultIndex → Reply) :
    (s.withIndex reply).1 = s := by
  rw [fst_withIndex, lookup, (IndexCache.request_of_held h).1]

/-- **A read leaves the service as it is.** -/
theorem next_of_isRead {s : Service} (h : s.Current) {a : Asked}
    (hread : a.request.isRead = true) : s.next a = s := by
  obtain ⟨disk, today, request⟩ := a
  cases request with
  | reload => cases hread
  | saved filter => rfl
  | query state pageSize => exact withIndex_of_current h _
  | searchTags query => exact withIndex_of_current h _
  | tagSummary order => exact withIndex_of_current h _
  | dashboard => exact withIndex_of_current h _
  | backlinks path => exact withIndex_of_current h _
  | outgoing path => exact withIndex_of_current h _
  | index => exact withIndex_of_current h _

/-- A read leaves the disk alone. -/
theorem handle_of_isRead {r : Request} (hread : r.isRead = true) (s : Service)
    (disk disk' : DiskNode) (today : Day) : s.handle disk today r = s.handle disk' today r := by
  cases r with
  | reload => cases hread
  | _ => rfl

theorem Current.next {s : Service} (h : s.Current) (a : Asked) : (s.next a).Current := by
  by_cases hreload : a.request = .reload
  · rw [Service.next, hreload]
    exact s.current_reload a.disk
  · rw [next_of_isRead h (isRead_of_ne_reload hreload)]
    exact h

theorem Current.run {s : Service} (h : s.Current) (asked : List Asked) : (s.run asked).Current :=
  run_keeps (fun _ a h => h.next a) h asked

/-! ## The number of indexes -/

/-- Only a request that tells so builds an index. -/
theorem rebuilds_next {s : Service} (h : s.Current) (a : Asked) :
    (s.next a).cache.rebuilds = s.cache.rebuilds + if (s.answer a).isRebuilt then 1 else 0 := by
  by_cases hreload : a.request = .reload
  · rw [Service.next, answer, hreload]
    exact IndexCache.rebuilds_request _ _ _
  · have hread := isRead_of_ne_reload hreload
    rw [next_of_isRead h hread]
    obtain ⟨disk, today, request⟩ := a
    cases request with
    | reload => cases hread
    | _ => rfl

theorem rebuilds_run {s : Service} (h : s.Current) (asked : List Asked) :
    (s.run asked).cache.rebuilds =
      s.cache.rebuilds + (s.answers asked).countP Reply.isRebuilt := by
  induction asked generalizing s with
  | nil => rfl
  | cons a asked ih =>
    have hrun : s.run (a :: asked) = (s.next a).run asked := rfl
    rw [hrun, ih (h.next a), rebuilds_next h, answers, List.countP_cons]
    omega

/-! ## Runs that differ in reads -/

/-- **Leaving reads out leaves out their answers**, and changes no other. -/
theorem answers_atPlaces {s : Service} (h : s.Current) {asked : List Asked} {keep : Nat → Bool}
    (hreads : ∀ i a, asked[i]? = some a → keep i = false → a.request.isRead = true) :
    s.answers (atPlaces keep asked) = atPlaces keep (s.answers asked) := by
  induction asked generalizing s keep with
  | nil => rfl
  | cons a asked ih =>
    -- The places behind this one are counted from the next one on.
    have hlater : ∀ s : Service, s.Current →
        s.answers (atPlaces (fun i => keep (i + 1)) asked) =
          atPlaces (fun i => keep (i + 1)) (s.answers asked) :=
      fun s h => ih h fun i b hb => hreads (i + 1) b hb
    rw [answers, atPlaces, atPlaces]
    cases hkeep : keep 0 with
    | true => exact congrArg (s.answer a :: ·) (hlater (s.next a) (h.next a))
    | false =>
      rw [next_of_isRead h (hreads 0 a rfl hkeep)]
      exact hlater s h

/-- The answer to a request does not move with the clock. -/
def Request.Timeless (r : Request) : Prop :=
  ∀ (s : Service) (disk : DiskNode) (today later : Day),
    (s.handle disk today r).2 = (s.handle disk later r).2

/-- Only a query can move with the clock, and only by a term that does. -/
theorem Request.timeless_of_terms {r : Request}
    (h : ∀ state pageSize, r = .query state pageSize → ∀ term ∈ state.terms, term.Timeless) :
    r.Timeless := by
  intro s disk today later
  cases r with
  | query state pageSize =>
    have hevaluate : ∀ files, evaluate (s.context later) state.terms files =
        evaluate (s.context today) state.terms files :=
      fun files => evaluate_of_timeless (h state pageSize rfl) (s.context today) later files
    simp only [handle, withIndex, execute, results, hevaluate]
  | _ => rfl

/-- The same is asked: the vault is read from the same disk, and the day is the same
unless the answer does not move with it. -/
structure Asked.Same (a b : Asked) : Prop where
  request : a.request = b.request
  disk : a.request = .reload → a.disk = b.disk
  today : a.today = b.today ∨ a.request.Timeless

theorem Asked.Same.answer_eq {a b : Asked} (h : a.Same b) (s : Service) :
    s.answer a = s.answer b := by
  have hdisk : s.handle a.disk a.today a.request = s.handle b.disk a.today a.request := by
    by_cases hreload : a.request = .reload
    · rw [h.disk hreload]
    · exact handle_of_isRead (isRead_of_ne_reload hreload) s _ _ _
  rw [answer, answer, hdisk, ← h.request]
  rcases h.today with htoday | htimeless
  · rw [htoday]
  · exact htimeless s b.disk a.today b.today

theorem Asked.Same.next_eq {a b : Asked} (h : a.Same b) {s : Service} (hs : s.Current) :
    s.next a = s.next b := by
  by_cases hreload : a.request = .reload
  · rw [Service.next, Service.next, ← h.request, hreload, h.disk hreload]
    rfl
  · have hread := isRead_of_ne_reload hreload
    rw [next_of_isRead hs hread, next_of_isRead hs (h.request ▸ hread)]

/-- Neither the disk at a read nor a day that does not matter changes an answer. -/
theorem answers_of_same {s : Service} (hs : s.Current) {asked other : List Asked}
    (h : List.Forall₂ Asked.Same asked other) : s.answers asked = s.answers other := by
  induction h generalizing s with
  | nil => rfl
  | @cons a b asked other hab _ ih =>
    rw [answers, answers, hab.answer_eq, hab.next_eq hs, ih (hab.next_eq hs ▸ hs.next a)]

/-! ## Services that have been opened -/

/-- An opened service has read its vault once. -/
theorem openAt_cases {disk : DiskNode} {path : String} {settingsPath : Option String} {s : Service}
    (h : openAt disk path settingsPath = .ok s) :
    ∃ vault settings, s = ((start vault settings).reload disk).1 := by
  unfold openAt at h
  cases hvault : Vault.openAt disk path with
  | error fault => rw [hvault] at h; cases h
  | ok vault =>
    rw [hvault] at h
    cases hsettings : readSettings disk
        (settingsPath.getD (joinPath vault.rootPath Settings.defaultPlace)) with
    | error fault =>
      simp only [bind, Except.bind, hsettings] at h
      cases h
    | ok settings =>
      simp only [bind, Except.bind, hsettings] at h
      cases h
      exact ⟨vault, settings, rfl⟩

theorem rebuilds_reload_start (vault : Vault) (settings : Settings) (disk : DiskNode) :
    ((start vault settings).reload disk).1.cache.rebuilds = 1 := rfl

/-- A service that nothing has told to watch does not hear of changes. -/
theorem hear_of_not_watching {s : Service} (h : s.watching = false) (disk : DiskNode)
    (change : DiskChange) : s.hear disk change = (s, none) := by
  simp [hear, h]

theorem watching_next (s : Service) (a : Asked) : (s.next a).watching = s.watching := by
  obtain ⟨disk, today, request⟩ := a
  cases request <;> rfl

/-- **Reads never disturb a service** that has been opened, whatever happens on the disk
in between.  A read leaves the service as it is, and the lookup it makes does not build
an index; changes on the disk are not heard of.  Leaving out reads, or putting some in,
changes no other answer, and neither do the disks and the days on which an answer does
not depend.  The number of indexes built is one more than the number of answers that
tell so. -/
theorem reads_do_not_disturb {disk : DiskNode} {path : String} {settingsPath : Option String}
    {s : Service} (h : openAt disk path settingsPath = .ok s) :
    (∀ before : List Asked,
        (∀ a : Asked, a.request.isRead = true → (s.run before).next a = s.run before) ∧
          (s.run before).lookup.rebuilt = false ∧
          ∀ later change, (s.run before).hear later change = (s.run before, none)) ∧
      (∀ (asked : List Asked) (keep : Nat → Bool),
        (∀ i a, asked[i]? = some a → keep i = false → a.request.isRead = true) →
          s.answers (atPlaces keep asked) = atPlaces keep (s.answers asked)) ∧
      (∀ asked other : List Asked, List.Forall₂ Asked.Same asked other →
        s.answers asked = s.answers other) ∧
      ∀ asked : List Asked,
        (s.run asked).cache.rebuilds = 1 + (s.answers asked).countP Reply.isRebuilt := by
  obtain ⟨vault, settings, rfl⟩ := openAt_cases h
  have hcurrent := (start vault settings).current_reload disk
  refine ⟨fun before => ⟨fun a hread => next_of_isRead (hcurrent.run before) hread, ?_, ?_⟩,
    fun asked keep => answers_atPlaces hcurrent, fun asked other => answers_of_same hcurrent,
    fun asked => ?_⟩
  · exact (IndexCache.request_of_held (hcurrent.run before)).2
  · have hwatching : (((start vault settings).reload disk).1.run before).watching = false :=
      run_keeps (P := fun s => s.watching = false) (fun s a hs => (watching_next s a).trans hs)
        rfl before
    exact fun later change => hear_of_not_watching hwatching later change
  · rw [rebuilds_run hcurrent, rebuilds_reload_start]

end Collated

attribute [local instance] Collation.inLowercase

/-- A disk with one note. -/
def oneNoteDisk : DiskNode := .folder [("a.md", .file "#tag".toUTF8 0)]

theorem openAt_oneNoteDisk :
    openAt oneNoteDisk "/" none = .ok ((start ⟨[]⟩ .default).reload oneNoteDisk).1 := by
  have hvault : Vault.openAt oneNoteDisk "/" = .ok ⟨[]⟩ := by
    simp [Vault.openAt, DiskNode.resolve, isAbsolute, pathNames, Text.pieces, DiskNode.follow,
      DiskNode.at?, oneNoteDisk, DiskNode.isFolder]
  have hplace : joinPath (Vault.rootPath ⟨[]⟩) Settings.defaultPlace =
      "/.obsidian/vault-navigator/config.toml" := by
    decide +kernel
  have hsettings : readSettings oneNoteDisk "/.obsidian/vault-navigator/config.toml" =
      .ok .default := by
    simp [readSettings, DiskNode.readText, DiskNode.resolve, isAbsolute, pathNames, Text.pieces,
      DiskNode.follow, DiskNode.at?, oneNoteDisk, List.lookup_cons, List.lookup_nil]
  simp [openAt, hvault, hplace, hsettings, bind, Except.bind, pure, Except.pure]

/-- The note goes away and the vault is read again; a query before that, which asks for
notes on whatever day, and one after it that fails, make no difference. -/
theorem reads_do_not_disturb_one_note :
    ∃ s, openAt oneNoteDisk "/" none = .ok s ∧
      let notes (disk : DiskNode) (today : Day) : Asked := ⟨disk, today, .query (.ofText "@n") none⟩
      let readAgain : Asked := ⟨.emptyFolder, DayRange.epoch, .reload⟩
      let failing : Asked := ⟨.emptyFolder, DayRange.epoch, .query (.ofText "@today") (some 0)⟩
      ∀ today,
        s.answers [readAgain] = atPlaces (fun i => i == 1)
            (s.answers [notes oneNoteDisk DayRange.epoch, readAgain, failing]) ∧
          s.answers [notes oneNoteDisk DayRange.epoch, readAgain, failing] =
            s.answers [notes .emptyFolder today, readAgain, failing] ∧
          (s.run [readAgain, failing]).cache.rebuilds =
            1 + (s.answers [readAgain, failing]).countP Reply.isRebuilt := by
  refine ⟨_, openAt_oneNoteDisk, ?_⟩
  intro notes readAgain failing today
  obtain ⟨-, hleave, hsame, hcount⟩ := reads_do_not_disturb openAt_oneNoteDisk
  have hreads : ∀ (i : Nat) (a : Asked),
      [notes oneNoteDisk DayRange.epoch, readAgain, failing][i]? = some a →
        (i == 1) = false → a.request.isRead = true := by
    intro i a ha hi
    match i with
    | 0 => cases ha; rfl
    | 1 => cases hi
    | 2 => cases ha; rfl
    | i + 3 => cases ha
  have hterms : (State.ofText "@n").terms = [.type (.category .notes)] := by decide +kernel
  have htimeless : (notes oneNoteDisk DayRange.epoch).request.Timeless := by
    refine Request.timeless_of_terms fun state pageSize hquery term hterm => ?_
    cases hquery
    rw [hterms, List.mem_singleton] at hterm
    rw [hterm]
    trivial
  have hnotes : (notes oneNoteDisk DayRange.epoch).Same (notes .emptyFolder today) :=
    ⟨rfl, nofun, .inr htimeless⟩
  refine ⟨hleave _ _ hreads, hsame _ _ ?_, hcount _⟩
  exact .cons hnotes (.cons ⟨rfl, fun _ => rfl, .inl rfl⟩ (.cons ⟨rfl, nofun, .inl rfl⟩ .nil))

end Service

end NoteVault
