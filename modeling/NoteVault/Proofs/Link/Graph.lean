import Mathlib.Algebra.BigOperators.Finprod
import NoteVault.Proofs.Index.Records
import NoteVault.Proofs.Snapshot.Builder
import NoteVault.Proofs.Text.ByteOrder

/-!
# Links read in both directions

A link graph keeps the targets of each source, with the number of links to each of
them, and beside them the sources of each target.  The sources are gathered once, from
the pairs that are joined by links (`LinkGraph.foldl_addInbound_pairs`), so that a
path is a source of exactly those paths that are its targets (`mem_backlinks_ofCounts`).

Both sides are maps of maps, of which only the rows are read (`NameMap.row`).  What
holds of a row holds of the targets of a source and of the sources of a target.

The main result, `links_mirror`, is about the graph that steps of a builder leave
behind.  It includes that the numbers of targets and of sources of all paths have the
same sum: both count the pairs that are joined.
-/

namespace NoteVault

open Fingerprint

/-! ## Rows of a map of maps -/

namespace NameMap

variable {α : Type}

/-- What a map of maps holds for a name; where it holds nothing, an empty map. -/
def row (m : NameMap (NameMap α)) (name : String) : NameMap α := (m.find? name).getD .empty

theorem row_alter (m : NameMap (NameMap α)) (name : String) (f : NameMap α → NameMap α)
    (k : String) :
    (m.alter name fun held => f (held.getD .empty)).row k =
      if k = name then f (m.row name) else m.row k := by
  rw [row, find?_alter]
  by_cases hk : k = name
  · rw [if_pos hk, if_pos hk]
    rfl
  · rw [if_neg hk, if_neg hk]
    rfl

/-- In a row each name stands once, in the order of its bytes. -/
theorem pairwise_bytes_keys (m : NameMap α) :
    m.keys.Pairwise fun a b => textBytes a < textBytes b :=
  m.pairwise_keys.imp textBytes_lt_iff.2

end NameMap

namespace LinkGraph

variable (graph : LinkGraph)

theorem outgoing_eq (path : String) : graph.outgoing path = (graph.resolved.row path).keys := by
  rw [outgoing, NameMap.row]
  cases graph.resolved.find? path <;> rfl

theorem backlinks_eq (path : String) : graph.backlinks path = (graph.inbound.row path).keys := by
  rw [backlinks, NameMap.row]
  cases graph.inbound.find? path <;> rfl

theorem outgoingCount_eq_length (path : String) :
    graph.outgoingCount path = (graph.outgoing path).length := by
  rw [outgoingCount, outgoing]
  cases graph.resolved.find? path with
  | none => rfl
  | some targets => exact targets.length_keys.symm

theorem backlinkCount_eq_length (path : String) :
    graph.backlinkCount path = (graph.backlinks path).length := by
  rw [backlinkCount, backlinks]
  cases graph.inbound.find? path with
  | none => rfl
  | some sources => exact sources.length_keys.symm

theorem pairwise_outgoing (path : String) :
    (graph.outgoing path).Pairwise fun a b => textBytes a < textBytes b := by
  rw [outgoing_eq]
  exact NameMap.pairwise_bytes_keys _

theorem pairwise_backlinks (path : String) :
    (graph.backlinks path).Pairwise fun a b => textBytes a < textBytes b := by
  rw [backlinks_eq]
  exact NameMap.pairwise_bytes_keys _

theorem nodup_outgoing (path : String) : (graph.outgoing path).Nodup := by
  rw [outgoing_eq]
  exact NameMap.nodup_keys _

theorem nodup_backlinks (path : String) : (graph.backlinks path).Nodup := by
  rw [backlinks_eq]
  exact NameMap.nodup_keys _

/-! ## The number of links -/

/-- The number of links from a source to a target, where it is stored. -/
def count? (source target : String) : Option Nat := (graph.resolved.row source).find? target

theorem mem_outgoing_iff {source target : String} :
    target ∈ graph.outgoing source ↔ (graph.count? source target).isSome := by
  rw [outgoing_eq, NameMap.mem_keys_iff, count?]

/-- A link more is counted for its own source and target, and for no others. -/
theorem count?_countLink (counts : NameMap (NameMap Nat)) (link : String × String)
    (source target : String) :
    (ofCounts (SnapshotBuilder.countLink counts link)).count? source target =
      if (source, target) = link then
        some (((ofCounts counts).count? source target).getD 0 + 1)
      else (ofCounts counts).count? source target := by
  obtain ⟨from', to'⟩ := link
  have hrow := counts.row_alter from'
    (fun targets => targets.alter to' fun count => count.getD 0 + 1) source
  show ((SnapshotBuilder.countLink counts (from', to')).row source).find? target = _
  rw [SnapshotBuilder.countLink, hrow]
  by_cases hsource : source = from'
  · subst hsource
    rw [if_pos rfl, NameMap.find?_alter]
    by_cases htarget : target = to'
    · subst htarget
      rw [if_pos rfl, if_pos rfl]
      rfl
    · rw [if_neg htarget, if_neg fun h => htarget (Prod.mk.inj h).2]
      rfl
  · rw [if_neg hsource, if_neg fun h => hsource (Prod.mk.inj h).1]
    rfl

/-- **Links are counted one by one**: a pair is stored with the number of its links,
and a pair that no link joins is not stored. -/
theorem count?_foldl_countLink (links : List (String × String)) (source target : String) :
    (ofCounts (links.foldl SnapshotBuilder.countLink .empty)).count? source target =
      if links.count (source, target) = 0 then none else some (links.count (source, target)) := by
  induction links using List.reverseRecOn with
  | nil => rfl
  | append_singleton links link ih =>
    rw [List.foldl_append, List.foldl_cons, List.foldl_nil, count?_countLink, ih,
      List.count_append, List.count_singleton]
    by_cases hlink : (source, target) = link
    · subst hlink
      rw [if_pos rfl, if_pos (beq_self_eq_true _), if_neg (Nat.succ_ne_zero _)]
      by_cases hnone : links.count (source, target) = 0
      · rw [if_pos hnone, hnone]
        rfl
      · rw [if_neg hnone]
        rfl
    · have hother : (link == (source, target)) = false := beq_eq_false_iff_ne.2 (Ne.symm hlink)
      rw [if_neg hlink, hother]
      rfl

/-! ## The sources of a target -/

/-- The pairs of a source and a target that are joined by links. -/
def pairs (counts : NameMap (NameMap Nat)) : List (String × String) :=
  counts.toList.flatMap fun (source, targets) => targets.keys.map (source, ·)

theorem mem_pairs {counts : NameMap (NameMap Nat)} {source target : String} :
    (source, target) ∈ pairs counts ↔ target ∈ (ofCounts counts).outgoing source := by
  rw [pairs, List.mem_flatMap, outgoing]
  constructor
  · rintro ⟨⟨_, targets⟩, hmem, hpair⟩
    obtain ⟨_, htarget, heq⟩ := List.mem_map.1 hpair
    obtain ⟨rfl, rfl⟩ := Prod.mk.inj heq
    show _ ∈ ((counts.find? _).map NameMap.keys).getD []
    rw [counts.find?_eq_some_iff.2 hmem]
    exact htarget
  · show target ∈ ((counts.find? source).map NameMap.keys).getD [] → _
    cases hfind : counts.find? source with
    | none => exact fun h => nomatch h
    | some targets =>
      intro htarget
      exact ⟨(source, targets), counts.find?_eq_some_iff.1 hfind,
        List.mem_map.2 ⟨target, htarget, rfl⟩⟩

/-- The inverse takes in the joined pairs one by one. -/
theorem foldl_addInbound_pairs (counts : NameMap (NameMap Nat)) :
    inboundOf counts =
      (pairs counts).foldl (fun inbound (source, target) => addInbound source inbound target)
        .empty := by
  rw [inboundOf, pairs, List.foldl_flatMap]
  simp only [List.foldl_map]

theorem mem_row_addInbound (inbound : NameMap NameSet) {source target s t : String} :
    source ∈ ((addInbound s inbound t).row target).keys ↔
      (source, target) = (s, t) ∨ source ∈ (inbound.row target).keys := by
  have hrow := inbound.row_alter t (fun sources => sources.insert s ()) target
  rw [addInbound, hrow]
  by_cases htarget : target = t
  · subst htarget
    rw [if_pos rfl, NameMap.mem_keys_insert, Prod.mk.injEq]
    exact or_congr_left (and_iff_left rfl).symm
  · rw [if_neg htarget]
    exact ⟨.inr, fun h => h.resolve_left fun heq => htarget (Prod.mk.inj heq).2⟩

/-- The sources of a target, after links have been noted one by one. -/
theorem mem_row_foldl_addInbound (links : List (String × String)) (inbound : NameMap NameSet)
    {source target : String} :
    source ∈ ((links.foldl (fun inbound (s, t) => addInbound s inbound t) inbound).row
        target).keys ↔
      (source, target) ∈ links ∨ source ∈ (inbound.row target).keys := by
  induction links generalizing inbound with
  | nil => simp
  | cons link links ih =>
    rw [List.foldl_cons, ih, mem_row_addInbound, List.mem_cons, or_left_comm, or_assoc]

/-- **A path is a source of its targets**, and of no other path. -/
theorem mem_backlinks_ofCounts {counts : NameMap (NameMap Nat)} {source target : String} :
    source ∈ (ofCounts counts).backlinks target ↔ target ∈ (ofCounts counts).outgoing source := by
  rw [backlinks_eq, ← mem_pairs]
  show source ∈ ((inboundOf counts).row target).keys ↔ _
  rw [foldl_addInbound_pairs, mem_row_foldl_addInbound]
  exact or_iff_left (List.not_mem_nil)

/-! ## All paths together -/

theorem support_card_filter_subset {ι : Type} (s : Finset ι) (label : ι → String) :
    (Function.support fun path => (s.filter fun i => label i = path).card) ⊆
      s.image label := by
  intro path hpath
  obtain ⟨i, hi⟩ := Finset.card_pos.1 (Nat.pos_of_ne_zero hpath)
  obtain ⟨hmem, rfl⟩ := Finset.mem_filter.1 hi
  exact Finset.mem_image_of_mem label hmem

/-- The elements with each label add up to all elements. -/
theorem finsum_card_filter {ι : Type} (s : Finset ι) (label : ι → String) :
    ∑ᶠ path, (s.filter fun i => label i = path).card = s.card := by
  rw [finsum_eq_sum_of_support_subset _ (support_card_filter_subset s label)]
  exact (Finset.card_eq_sum_card_image label s).symm

theorem finite_support_card_filter {ι : Type} (s : Finset ι) (label : ι → String) :
    (Function.support fun path => (s.filter fun i => label i = path).card).Finite :=
  (s.image label).finite_toSet.subset (support_card_filter_subset s label)

/-- The targets of a path are the joined pairs that begin with it. -/
theorem outgoingCount_ofCounts (counts : NameMap (NameMap Nat)) :
    (ofCounts counts).outgoingCount =
      fun path => ((pairs counts).toFinset.filter fun pair => pair.1 = path).card := by
  funext path
  rw [outgoingCount_eq_length, ← List.toFinset_card_of_nodup (nodup_outgoing _ path)]
  refine Finset.card_nbij' (fun target => (path, target)) Prod.snd ?_ ?_ ?_ ?_
  · intro target htarget
    have hpair := mem_pairs.2 (List.mem_toFinset.1 htarget)
    exact Finset.mem_filter.2 ⟨List.mem_toFinset.2 hpair, rfl⟩
  · rintro ⟨source, target⟩ hpair
    obtain ⟨hmem, rfl⟩ := Finset.mem_filter.1 hpair
    exact List.mem_toFinset.2 (mem_pairs.1 (List.mem_toFinset.1 hmem))
  · exact fun target _ => rfl
  · rintro ⟨source, target⟩ hpair
    obtain ⟨-, rfl⟩ := Finset.mem_filter.1 hpair
    rfl

/-- The sources of a path are the joined pairs that end with it. -/
theorem backlinkCount_ofCounts (counts : NameMap (NameMap Nat)) :
    (ofCounts counts).backlinkCount =
      fun path => ((pairs counts).toFinset.filter fun pair => pair.2 = path).card := by
  funext path
  rw [backlinkCount_eq_length, ← List.toFinset_card_of_nodup (nodup_backlinks _ path)]
  refine Finset.card_nbij' (fun source => (source, path)) Prod.fst ?_ ?_ ?_ ?_
  · intro source hsource
    have hpair := mem_pairs.2 (mem_backlinks_ofCounts.1 (List.mem_toFinset.1 hsource))
    exact Finset.mem_filter.2 ⟨List.mem_toFinset.2 hpair, rfl⟩
  · rintro ⟨source, target⟩ hpair
    obtain ⟨hmem, rfl⟩ := Finset.mem_filter.1 hpair
    exact List.mem_toFinset.2 (mem_backlinks_ofCounts.2 (mem_pairs.1 (List.mem_toFinset.1 hmem)))
  · exact fun source _ => rfl
  · rintro ⟨source, target⟩ hpair
    obtain ⟨-, rfl⟩ := Finset.mem_filter.1 hpair
    rfl

/-! ## The graph of given links -/

/-- **A link graph reads the same in both directions**, and it holds the links that are
given. -/
structure Mirrors [Collator] (graph : LinkGraph) (links : List (String × String)) : Prop where
  /-- A pair is stored with the number of its links; a pair without links is not stored. -/
  count? : ∀ source target, graph.count? source target =
    if links.count (source, target) = 0 then none else some (links.count (source, target))
  mem_outgoing : ∀ source target,
    target ∈ graph.outgoing source ↔ (source, target) ∈ links
  mem_backlinks : ∀ source target,
    source ∈ graph.backlinks target ↔ target ∈ graph.outgoing source
  /-- Each target stands once, in the order of bytes, and so does each source. -/
  pairwise_outgoing : ∀ path,
    (graph.outgoing path).Pairwise fun a b => textBytes a < textBytes b
  pairwise_backlinks : ∀ path,
    (graph.backlinks path).Pairwise fun a b => textBytes a < textBytes b
  outgoingCount : ∀ path, graph.outgoingCount path = (graph.outgoing path).length
  backlinkCount : ∀ path, graph.backlinkCount path = (graph.backlinks path).length
  /-- Only finitely many paths have targets or sources, so that these can be summed. -/
  finite_outgoing : (Function.support graph.outgoingCount).Finite
  finite_backlinks : (Function.support graph.backlinkCount).Finite
  finsum_counts : ∑ᶠ path, graph.outgoingCount path = ∑ᶠ path, graph.backlinkCount path
  /-- Files of an index are linked in both directions, whatever the index hides. -/
  records : ∀ (s : Snapshot) (rules : Exclusion) (a b : String) (fileA fileB : FileRecord),
    (VaultIndex.classify s rules).record? a = some fileA →
    (VaultIndex.classify s rules).record? b = some fileB →
    (fileB ∈ (VaultIndex.classify s rules).outgoingLinks a graph ↔
      fileA ∈ (VaultIndex.classify s rules).backlinks b graph)

end LinkGraph

namespace Snapshot

/-- The targets of a path are those that links of this path lead to. -/
theorem mem_outgoing_ofSteps {steps : List BuildStep} {source target : String} :
    target ∈ (ofSteps steps).links.outgoing source ↔
      (source, target) ∈ BuildStep.links steps := by
  rw [LinkGraph.mem_outgoing_iff, links_ofSteps, LinkGraph.count?_foldl_countLink,
    ← List.count_pos_iff]
  by_cases hnone : (BuildStep.links steps).count (source, target) = 0
  · rw [if_pos hnone, hnone]
    exact iff_of_false Bool.false_ne_true (Nat.lt_irrefl 0)
  · rw [if_neg hnone]
    exact iff_of_true rfl (Nat.pos_of_ne_zero hnone)

theorem mem_backlinks_ofSteps {steps : List BuildStep} {source target : String} :
    source ∈ (ofSteps steps).links.backlinks target ↔
      (source, target) ∈ BuildStep.links steps := by
  rw [← mem_outgoing_ofSteps, links_ofSteps]
  exact LinkGraph.mem_backlinks_ofCounts

end Snapshot

/-- **The link graph is its own inverse**: the graph that steps of a builder leave
behind holds their links, as often as they come, and reads the same in both
directions.  The links may lead to missing files, or from a file to itself. -/
theorem links_mirror [Collator] (steps : List BuildStep) :
    (Snapshot.ofSteps steps).links.Mirrors (BuildStep.links steps) := by
  have hinverse : ∀ source target, source ∈ (Snapshot.ofSteps steps).links.backlinks target ↔
      target ∈ (Snapshot.ofSteps steps).links.outgoing source := by
    intro source target
    rw [Snapshot.mem_backlinks_ofSteps, Snapshot.mem_outgoing_ofSteps]
  constructor
  · intro source target
    rw [Snapshot.links_ofSteps]
    exact LinkGraph.count?_foldl_countLink _ source target
  · intro source target
    exact Snapshot.mem_outgoing_ofSteps
  · exact hinverse
  · exact LinkGraph.pairwise_outgoing _
  · exact LinkGraph.pairwise_backlinks _
  · exact LinkGraph.outgoingCount_eq_length _
  · exact LinkGraph.backlinkCount_eq_length _
  · rw [Snapshot.links_ofSteps, LinkGraph.outgoingCount_ofCounts]
    exact LinkGraph.finite_support_card_filter _ _
  · rw [Snapshot.links_ofSteps, LinkGraph.backlinkCount_ofCounts]
    exact LinkGraph.finite_support_card_filter _ _
  · rw [Snapshot.links_ofSteps, LinkGraph.outgoingCount_ofCounts,
      LinkGraph.backlinkCount_ofCounts, LinkGraph.finsum_card_filter,
      LinkGraph.finsum_card_filter]
  · intro s rules a b fileA fileB hA hB
    rw [VaultIndex.outgoingLinks, VaultIndex.backlinks, VaultIndex.mem_classify_records_iff hB,
      VaultIndex.mem_classify_records_iff hA]
    exact (hinverse a b).symm

/-- A path may link to itself, and links that come twice are counted twice but have one
target. -/
example :
    let graph := (Snapshot.ofSteps [.link "b" "b", .link "b" "a", .link "b" "a"]).links
    graph.count? "b" "a" = some 2 ∧ graph.outgoing "b" = ["a", "b"] ∧
      graph.backlinks "b" = ["b"] := by
  decide +kernel

end NoteVault
