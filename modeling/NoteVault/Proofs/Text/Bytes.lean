import NoteVault.Text.Cut

/-!
# Places counted in bytes

A place in a text is a number of bytes, and a cursor may be any number: it means the last
place between two characters that is not behind it (`PartsAt`).  A text that is cut at a
number of bytes is cut there (`splitAtByte_eq_iff`).  Where the number is that of the bytes
of a beginning, the place is the one behind it (`isValid_byteLength`).
-/

namespace NoteVault.Text

@[simp] theorem byteLength_append (a b : List Char) :
    byteLength (a ++ b) = byteLength a + byteLength b := by
  induction a with
  | nil => simp [byteLength]
  | cons c a ih => simp only [List.cons_append, byteLength, ih, Nat.add_assoc]

theorem byteLength_eq_zero_iff {cs : List Char} : byteLength cs = 0 ↔ cs = [] := by
  cases cs with
  | nil => simp [byteLength]
  | cons c cs =>
    have hpos := c.utf8Size_pos
    simp only [byteLength, List.cons_ne_nil, iff_false]
    omega

/-- The bytes of a text are those of its characters. -/
theorem byteLength_toList (s : String) : byteLength s.toList = s.utf8ByteSize := by
  have hlist : ∀ cs, byteLength cs = (String.ofList cs).utf8ByteSize := by
    intro cs
    induction cs with
    | nil => rfl
    | cons c cs ih =>
      have hsplit : String.ofList (c :: cs) = String.singleton c ++ String.ofList cs := by
        rw [String.singleton_eq_ofList, ← String.ofList_append, List.singleton_append]
      rw [byteLength, ih, hsplit, String.utf8ByteSize_append, String.utf8ByteSize_singleton]
  rw [hlist, String.ofList_toList]

/-- Beginnings of one text that take the same number of bytes are the same. -/
theorem append_inj_of_byteLength {a b a' b' : List Char} (h : a ++ b = a' ++ b')
    (hlength : byteLength a = byteLength a') : a = a' ∧ b = b' := by
  rcases List.append_eq_append_iff.1 h with ⟨c, rfl, rfl⟩ | ⟨c, rfl, rfl⟩
  all_goals
    rw [byteLength_append] at hlength
    obtain rfl : c = [] := byteLength_eq_zero_iff.1 (by omega)
    simp

/-- A text is parted at a cursor: what stands before it is the longest beginning of the
text that does not reach behind the cursor. -/
structure PartsAt (limit : Nat) (cs before after : List Char) : Prop where
  whole : before ++ after = cs
  le_limit : byteLength before ≤ limit
  last : ∀ a b, a ++ b = cs → byteLength a ≤ limit → byteLength a ≤ byteLength before

namespace PartsAt

variable {limit : Nat} {cs before after before' after' : List Char}

/-- There is only one such place. -/
theorem unique (h : PartsAt limit cs before after) (h' : PartsAt limit cs before' after') :
    before = before' ∧ after = after' :=
  append_inj_of_byteLength (h.whole.trans h'.whole.symm)
    (Nat.le_antisymm (h'.last _ _ h.whole h.le_limit) (h.last _ _ h'.whole h'.le_limit))

theorem append (a b : List Char) : PartsAt (byteLength a) (a ++ b) a b :=
  ⟨rfl, Nat.le_refl _, fun _ _ _ hle => hle⟩

/-- At the end of a text everything stands before the cursor. -/
theorem utf8ByteSize (s : String) : PartsAt s.utf8ByteSize s.toList s.toList [] := by
  have h := append s.toList []
  rwa [byteLength_toList, List.append_nil] at h

end PartsAt

theorem partsAt_splitAtByte (limit : Nat) (cs : List Char) :
    PartsAt limit cs (splitAtByte limit cs).1 (splitAtByte limit cs).2 := by
  induction cs generalizing limit with
  | nil =>
    refine ⟨rfl, Nat.zero_le _, fun a b hab _ => ?_⟩
    rw [(List.append_eq_nil_iff.1 hab).1]
    exact Nat.le_refl _
  | cons c cs ih =>
    by_cases hc : c.utf8Size ≤ limit
    · obtain ⟨hwhole, hle, hlast⟩ := ih (limit - c.utf8Size)
      rw [splitAtByte, if_pos hc]
      refine ⟨congrArg (c :: ·) hwhole, ?_, fun a b hab hlimit => ?_⟩
      · simp only [byteLength]
        omega
      · cases a with
        | nil => exact Nat.zero_le _
        | cons d a =>
          obtain ⟨rfl, htail⟩ := List.cons.inj hab
          simp only [byteLength] at hlimit ⊢
          have hrest := hlast a b htail (by omega)
          omega
    · rw [splitAtByte, if_neg hc]
      refine ⟨rfl, Nat.zero_le _, fun a b hab hlimit => ?_⟩
      cases a with
      | nil => exact Nat.le_refl _
      | cons d a =>
        obtain ⟨rfl, -⟩ := List.cons.inj hab
        simp only [byteLength] at hlimit
        omega

/-- **A text is cut at a number of bytes** where a cursor of that number parts it. -/
theorem splitAtByte_eq_iff {limit : Nat} {cs before after : List Char} :
    splitAtByte limit cs = (before, after) ↔ PartsAt limit cs before after := by
  constructor
  · intro h
    have hparts := partsAt_splitAtByte limit cs
    rwa [h] at hparts
  · intro h
    obtain ⟨hbefore, hafter⟩ := (partsAt_splitAtByte limit cs).unique h
    exact Prod.ext hbefore hafter

/-! ## Places between characters -/

/-- Behind a beginning of a text there is a place between two characters. -/
theorem isValid_byteLength (a b : List Char) :
    String.Pos.Raw.IsValid (String.ofList (a ++ b)) ⟨byteLength a⟩ := by
  rw [String.Pos.Raw.isValid_iff_exists_append]
  refine ⟨String.ofList a, String.ofList b, String.ofList_append, ?_⟩
  rw [String.rawEndPos, ← byteLength_toList, String.toList_ofList]

theorem splitAtByte_byteLength (a b : List Char) :
    splitAtByte (byteLength a) (a ++ b) = (a, b) :=
  splitAtByte_eq_iff.2 (.append a b)

end NoteVault.Text
