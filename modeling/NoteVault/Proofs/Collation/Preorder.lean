import NoteVault.Collation.Basic
import NoteVault.Proofs.StableSort

/-!
# Collation is as lawful as its collator

Sorting names asks of collation that it is a total preorder (`Std.TransCmp`): any two
texts compare, in one of the two directions at least, and the comparison is transitive.
Different texts may compare as equal.  Collation has this where the collator has it
(`transCmp_collate`), and also where there is no collator, since texts in lower case are
compared by a linear order.
-/

namespace NoteVault.Collation

/-- Comparing in lower case is a total preorder. -/
instance : Std.TransCmp compareLowercase :=
  transCmp_comap (compare : String → String → Ordering) Unicode.lowercase

/-- **Collation is a total preorder** where the comparison of the collator is one. -/
theorem transCmp_collate [Collator]
    (h : ∀ cmp, Collator.compare? = some cmp → Std.TransCmp cmp) : Std.TransCmp collate := by
  cases hcmp : Collator.compare? with
  | none =>
    have hcollate : collate = compareLowercase := by
      funext a b
      rw [collate, hcmp]
    rw [hcollate]
    infer_instance
  | some cmp =>
    have hcollate : collate = cmp := by
      funext a b
      rw [collate, hcmp]
    rw [hcollate]
    exact h cmp hcmp

/-- A collator that compares in lower case.  Words of plain letters in lower case stand
in the order of the alphabet. -/
@[reducible] def inLowercase : Collator := ⟨some compareLowercase⟩

instance : Std.TransCmp (@collate inLowercase) :=
  @transCmp_collate inLowercase fun _ h => Option.some.inj h ▸ inferInstance

end NoteVault.Collation
