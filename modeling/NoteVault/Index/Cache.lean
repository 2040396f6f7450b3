import NoteVault.Index.Classify
import NoteVault.Index.Fingerprint

/-!
A cache that keeps the last index until a fingerprint changes. Sizes, metadata and links are not
part of the fingerprint: a snapshot that differs in them only is answered with the index kept.
-/

namespace NoteVault

/-- An index with its fingerprint, and the number of indexes built so far. -/
structure IndexCache where
  held : Option (List UInt8 × VaultIndex)
  rebuilds : Nat

namespace IndexCache

/-- Holds nothing. -/
def empty : IndexCache := ⟨none, 0⟩

/-- The answer to a request for an index: the cache afterwards, the index, and whether it has been
built anew. -/
structure Answer where
  cache : IndexCache
  index : VaultIndex
  rebuilt : Bool

/-- Builds an index and keeps it. -/
def rebuild [Collator] (cache : IndexCache) (print : List UInt8) (snapshot : Snapshot)
    (rules : Exclusion) : Answer :=
  let index := VaultIndex.classify snapshot rules
  ⟨⟨some (print, index), cache.rebuilds + 1⟩, index, true⟩

/-- The index of a snapshot, built anew only where its fingerprint is not the one held. -/
def request [Collator] (cache : IndexCache) (snapshot : Snapshot) (rules : Exclusion) : Answer :=
  let print := fingerprint snapshot rules
  match cache.held with
  | some (held, index) =>
    if held = print then ⟨cache, index, false⟩ else cache.rebuild print snapshot rules
  | none => cache.rebuild print snapshot rules

/-- Forgets the index. -/
def invalidate (cache : IndexCache) : IndexCache := { cache with held := none }

end IndexCache

end NoteVault
