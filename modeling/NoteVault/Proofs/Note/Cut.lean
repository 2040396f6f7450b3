import NoteVault.Proofs.Note.Fence
import NoteVault.Proofs.Text.Bytes

/-!
# What the cut of a note leaves

The parts of a note that begins with properties can also be cut out at places counted in
bytes, by a scan that adds up the lengths of the lines before the closing one
(`splitAtPlaces_eq`).  Its places stand between characters of the text
(`isValid_closingPlaces`).

Neither way looks at what the properties say.  So the body is what it is whether they can
be read or not (`cut_loses_nothing`).
-/

namespace NoteVault.Note

open Text

variable {text rest : List Char} {c : Cut}

/-! ## Places in bytes -/

/-- The scan for the closing line with places counted in bytes, from where the first of the
lines begins: where the closing line begins and where it ends. -/
def closingPlaces? (place : Nat) : List (List Char) → Option (Nat × Nat)
  | [] => none
  | line :: ls =>
    let behind := place + byteLength line
    if bareLine line = fenceLine then some (place, behind) else closingPlaces? behind ls

/-- The properties of a text and its body, cut out at places counted in bytes. -/
def splitAtPlaces (text : List Char) : Option (List Char) × List Char :=
  match openingLine? text with
  | none => (none, text)
  | some (_, rest) =>
    match closingPlaces? 0 (linesWithEnds rest) with
    | none => (none, text)
    | some (first, behind) => (some (splitAtByte first rest).1, (splitAtByte behind rest).2)

/-- The places are the lengths of the lines before the closing one, without it and with
it. -/
theorem closingPlaces?_eq (place : Nat) (ls : List (List Char)) :
    closingPlaces? place ls = (cutAtFence ls).map fun (before, fence, _) =>
      (place + byteLength before.flatten, place + byteLength (before.flatten ++ fence)) := by
  induction ls generalizing place with
  | nil => rfl
  | cons line ls ih =>
    rw [closingPlaces?, cutAtFence]
    by_cases hline : bareLine line = fenceLine
    · rw [if_pos hline, if_pos hline]
      rfl
    · rw [if_neg hline, if_neg hline, ih, Option.map_map]
      cases cutAtFence ls with
      | none => rfl
      | some parts =>
        simp only [Option.map_some, Function.comp_apply, List.flatten_cons, byteLength_append,
          Nat.add_assoc]

theorem append_of_cutAtFence {before after : List (List Char)} {fence : List Char}
    (h : cutAtFence (linesWithEnds rest) = some (before, fence, after)) :
    rest = before.flatten ++ fence ++ after.flatten := by
  have hrest := flatten_linesWithEnds rest
  rw [cutAtFence_append h, List.flatten_append, List.flatten_cons] at hrest
  rw [← hrest, List.append_assoc]

/-- **The places stand between characters** of the text that is cut, the second one not
before the first. -/
theorem isValid_closingPlaces {first behind : Nat}
    (h : closingPlaces? 0 (linesWithEnds rest) = some (first, behind)) :
    first ≤ behind ∧ String.Pos.Raw.IsValid (String.ofList rest) ⟨first⟩ ∧
      String.Pos.Raw.IsValid (String.ofList rest) ⟨behind⟩ := by
  rw [closingPlaces?_eq, Option.map_eq_some_iff] at h
  obtain ⟨⟨before, fence, after⟩, hcut, hplaces⟩ := h
  obtain ⟨rfl, rfl⟩ := Prod.mk.inj hplaces
  rw [append_of_cutAtFence hcut, Nat.zero_add, Nat.zero_add]
  refine ⟨?_, ?_, isValid_byteLength _ _⟩
  · rw [byteLength_append]
    exact Nat.le_add_right _ _
  · rw [List.append_assoc]
    exact isValid_byteLength _ _

/-- **Cutting at places** counted in bytes comes to the same as cutting at lines. -/
theorem splitAtPlaces_eq (text : List Char) :
    splitAtPlaces text = ((cut? text).map Cut.properties, bodyOf text) := by
  rw [splitAtPlaces, bodyOf, cut?]
  cases openingLine? text with
  | none => rfl
  | some parts =>
    obtain ⟨opening, rest⟩ := parts
    dsimp only
    rw [closingPlaces?_eq]
    cases hcut : cutAtFence (linesWithEnds rest) with
    | none => rfl
    | some parts =>
      obtain ⟨before, fence, after⟩ := parts
      have hrest := append_of_cutAtFence hcut
      have hfirst := splitAtByte_byteLength before.flatten (fence ++ after.flatten)
      have hbehind := splitAtByte_byteLength (before.flatten ++ fence) after.flatten
      rw [← List.append_assoc, ← hrest] at hfirst
      rw [← hrest] at hbehind
      simp only [Option.map_some, Nat.zero_add, hfirst, hbehind]

/-! ## Notes -/

theorem IsCut.bodyOf_eq (h : IsCut text c) : bodyOf text = c.body := by
  rw [bodyOf, cut?_eq_some_iff_isCut.2 h]

theorem IsCut.frontmatter_parse {text : String} (h : IsCut text.toList c) :
    (parse text).frontmatter = Yaml.mapping? c.properties := by
  rw [parse_eq, cut?_eq_some_iff_isCut.2 h]
  rfl

/-- What is read beside the properties is read from the body alone. -/
theorem parse_of_bodyOf_eq {text other : String} (h : bodyOf other.toList = bodyOf text.toList) :
    (parse other).tags = (parse text).tags ∧ (parse other).links = (parse text).links := by
  rw [parse_eq, parse_eq, h]
  exact ⟨rfl, rfl⟩

/-- **The cut of a note loses nothing.**  It comes to the same as a cut at places counted in
bytes, all of which stand between characters.  A text that does not begin with properties,
or does not close them, is all body and has no properties.  Any other text is, in this
order, the line that opens the properties, whole lines none of which closes them, the first
line that does, and the body.  The body stays the same, and so do the tags and links that
are read from it, when these lines are replaced by others that can be read as properties,
or by others that cannot. -/
theorem cut_loses_nothing (text : String) :
    splitAtPlaces text.toList = ((cut? text.toList).map Cut.properties, bodyOf text.toList) ∧
    (∀ opening rest first behind, openingLine? text.toList = some (opening, rest) →
      closingPlaces? 0 (linesWithEnds rest) = some (first, behind) →
      first ≤ behind ∧ String.Pos.Raw.IsValid (String.ofList rest) ⟨first⟩ ∧
        String.Pos.Raw.IsValid (String.ofList rest) ⟨behind⟩) ∧
    (¬ HasProperties text.toList →
      bodyOf text.toList = text.toList ∧ (parse text).frontmatter = none) ∧
    (HasProperties text.toList → ∃ c, IsCut text.toList c ∧ bodyOf text.toList = c.body ∧
      (parse text).frontmatter = Yaml.mapping? c.properties ∧
      ∀ properties, WholeLines properties →
        (∀ line ∈ linesWithEnds properties, bareLine line ≠ fenceLine) →
        let other := String.ofList (c.opening ++ properties ++ c.closing ++ c.body)
        bodyOf other.toList = c.body ∧ (parse other).frontmatter = Yaml.mapping? properties ∧
          (parse other).tags = (parse text).tags ∧ (parse other).links = (parse text).links) := by
  refine ⟨splitAtPlaces_eq _, fun _ _ _ _ _ => isValid_closingPlaces, fun hnone => ?_,
    fun hhas => ?_⟩
  · have hcut := cut?_eq_none_iff.2 hnone
    rw [parse_eq, bodyOf, hcut]
    exact ⟨rfl, rfl⟩
  · obtain ⟨c, hcut⟩ := Option.ne_none_iff_exists'.1 (mt cut?_eq_none_iff.1 (not_not.2 hhas))
    have h := cut?_eq_some_iff_isCut.1 hcut
    refine ⟨c, h, h.bodyOf_eq, h.frontmatter_parse, fun properties hwhole hopen => ?_⟩
    intro other
    have hother : IsCut other.toList { c with properties := properties } := by
      rw [String.toList_ofList]
      exact h.replace hwhole hopen h.closing_whole
    have hsame : bodyOf other.toList = bodyOf text.toList :=
      hother.bodyOf_eq.trans h.bodyOf_eq.symm
    exact ⟨hother.bodyOf_eq, hother.frontmatter_parse, parse_of_bodyOf_eq hsame⟩

/-- Properties that cannot be read, between lines with more than one carriage return at
their ends, are cut off as others are that can be read. -/
theorem cut_loses_nothing_broken :
    let text := "---\r\ntags: [\n---\r\r\n#body"
    let other := "---\r\ntags: x\r\n\n---\r\r\n#body"
    HasProperties text.toList ∧ bodyOf text.toList = "#body".toList ∧
      bodyOf other.toList = "#body".toList ∧ (parse text).frontmatter.isSome = false ∧
      (parse other).frontmatter.isSome = true ∧ (parse text).tags = ["#body"] ∧
      (parse other).tags = (parse text).tags := by
  intro text other
  have hhas : HasProperties text.toList :=
    ⟨"---\r\n".toList, "tags: [\n---\r\r\n#body".toList, by decide, .inr (by decide), by decide⟩
  obtain ⟨c, hcut, hbody, hbroken, hreplaced⟩ := (cut_loses_nothing text).2.2.2 hhas
  have hparts : IsCut text.toList
      ⟨"---\r\n".toList, "tags: [\n".toList, "---\r\r\n".toList, "#body".toList⟩ :=
    ⟨by decide, by decide, by decide, by decide, by decide, by decide, by decide⟩
  obtain rfl := hparts.unique hcut
  obtain ⟨hother, hread, htags, -⟩ := hreplaced "tags: x\r\n\n".toList (by decide) (by decide)
  refine ⟨hhas, hbody, hother, ?_, ?_, by decide +kernel, htags⟩
  · rw [hbroken]
    decide +kernel
  · exact (congrArg Option.isSome hread).trans (by decide +kernel)

end NoteVault.Note
