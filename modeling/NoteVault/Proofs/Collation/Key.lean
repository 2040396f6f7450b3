import NoteVault.Collation.Key
import NoteVault.Proofs.Collation.Preorder

/-!
# Comparing by keys is a total preorder

Keys are compared by two lists of numbers, the second only where the first are equal.
So the collator by tables compares texts by a lexicographic order read off them, and
what needs collation to be a total preorder holds of the command line, which runs with
this collator.
-/

namespace NoteVault.Collation

theorem compareLists_eq_compareLex (as bs : List Nat) :
    compareLists as bs = List.compareLex compare as bs := by
  induction as generalizing bs with
  | nil => cases bs <;> rfl
  | cons a as ih =>
    cases bs with
    | nil => rfl
    | cons b bs => rw [compareLists, ih, List.compareLex_cons_cons]

instance : Std.TransCmp compareLists := by
  rw [funext fun as => funext (compareLists_eq_compareLex as)]
  infer_instance

instance : Std.TransCmp Key.compare :=
  have := transCmp_comap compareLists Key.primaries
  have := transCmp_comap compareLists Key.secondaries
  inferInstanceAs (Std.TransCmp (compareLex
    (fun a b : Key => compareLists a.primaries b.primaries)
    fun a b => compareLists a.secondaries b.secondaries))

/-- **The collator by tables makes collation a total preorder.** -/
instance : Std.TransCmp (@collate byKeys) :=
  @transCmp_collate byKeys fun _ h => Option.some.inj h ▸ transCmp_comap Key.compare key

end NoteVault.Collation
