import Mathlib.Data.List.Induction
import NoteVault.Note.Parsed
import NoteVault.Proofs.Note.Frontmatter

/-!
# What fences hide

A line is shown if it is no fence and an even number of fences stands before it
(`shownLines`).  The tags and the links of a note are those of the shown lines of its
body, each at its first place (`Scan.ofText_eq`).  So nothing that is read from a note
changes when lines behind an opening fence are replaced by others, as long as none of
them is a fence (`hidden_lines_do_not_show`).
-/

namespace NoteVault.Note

open Text

namespace Scan

/-- Whether a fence is open behind lines: an odd number of them are fences. -/
def fenceOpen (lines : List (List Char)) : Bool := lines.countP isFence % 2 == 1

/-- The lines that no fence hides, without the fences themselves. -/
def shownLines (lines : List (List Char)) : List (List Char) :=
  (lines.zipIdx.filter fun e => !isFence e.1 && !fenceOpen (lines.take e.2)).map Prod.fst

theorem fenceOpen_concat (lines : List (List Char)) (line : List Char) :
    fenceOpen (lines ++ [line]) = if isFence line then !fenceOpen lines else fenceOpen lines := by
  rw [fenceOpen, fenceOpen, List.countP_append, List.countP_singleton]
  cases isFence line with
  | false => rfl
  | true =>
    rw [if_pos rfl, if_pos rfl, Bool.eq_iff_iff, Bool.not_eq_true', beq_iff_eq,
      beq_eq_false_iff_ne]
    omega

theorem shownLines_concat (lines : List (List Char)) (line : List Char) :
    shownLines (lines ++ [line]) =
      shownLines lines ++ if !isFence line && !fenceOpen lines then [line] else [] := by
  have hbefore : (lines.zipIdx.filter fun e =>
        !isFence e.1 && !fenceOpen ((lines ++ [line]).take e.2)) =
      lines.zipIdx.filter fun e => !isFence e.1 && !fenceOpen (lines.take e.2) := by
    refine List.filter_congr fun e he => ?_
    rw [List.take_append_of_le_length (Nat.le_of_lt (List.snd_lt_of_mem_zipIdx he))]
  have hlast : ([line].zipIdx lines.length).filter (fun e =>
        !isFence e.1 && !fenceOpen ((lines ++ [line]).take e.2)) =
      if !isFence line && !fenceOpen lines then [(line, lines.length)] else [] := by
    rw [List.zipIdx_singleton, List.filter_cons, List.filter_nil, List.take_left]
  rw [shownLines, List.zipIdx_append, List.filter_append, List.map_append, hbefore, Nat.zero_add,
    hlast, ← shownLines, apply_ite (List.map Prod.fst)]
  rfl

/-- **What a scan has found** after some lines: the tags and the links of the lines shown,
each at its first place. -/
theorem foldl_step_start (lines : List (List Char)) :
    lines.foldl step start =
      ⟨fenceOpen lines, firstOccurrences ((shownLines lines).flatMap lineTags),
        firstOccurrences ((shownLines lines).flatMap lineLinks)⟩ := by
  induction lines using List.reverseRecOn with
  | nil => rfl
  | append_singleton lines line ih =>
    rw [List.foldl_append, ih, List.foldl_cons, List.foldl_nil, step, fenceOpen_concat,
      shownLines_concat]
    by_cases hfence : isFence line = true
    · rw [if_pos hfence, if_pos hfence, hfence, Bool.not_true, Bool.false_and,
        if_neg Bool.false_ne_true, List.append_nil]
    · rw [if_neg hfence, if_neg hfence, Bool.eq_false_iff.2 hfence]
      by_cases hopen : fenceOpen lines = true
      · rw [if_pos hopen, hopen, Bool.not_true, Bool.and_false, if_neg Bool.false_ne_true,
          List.append_nil]
      · rw [if_neg hopen, Bool.eq_false_iff.2 hopen, Bool.not_false, Bool.and_true, if_pos rfl,
          List.flatMap_append, List.flatMap_append, firstOccurrences_append,
          firstOccurrences_append, List.flatMap_singleton, List.flatMap_singleton]

/-- **The tags and the links of a text** are those of its shown lines. -/
theorem ofText_eq (text : List Char) :
    (ofText text).tags = ((shownLines (lines text)).flatMap lineTags).eraseDups ∧
      (ofText text).links = ((shownLines (lines text)).flatMap lineLinks).eraseDups := by
  rw [ofText, foldl_step_start, firstOccurrences_eq_eraseDups, firstOccurrences_eq_eraseDups]
  exact ⟨rfl, rfl⟩

/-- Behind an open fence nothing is found in lines that are no fences. -/
theorem foldl_step_of_fenced {s : Scan} (hopen : s.fenced = true) {lines : List (List Char)}
    (h : ∀ line ∈ lines, isFence line = false) : lines.foldl step s = s := by
  induction lines with
  | nil => rfl
  | cons line lines ih =>
    obtain ⟨hline, hlines⟩ := List.forall_mem_cons.1 h
    rw [List.foldl_cons, step, hline, if_neg Bool.false_ne_true, if_pos hopen, ih hlines]

/-- Two lists of lines that differ only behind a fence that opens, in lines none of which
is a fence. -/
inductive AlikeOutside : List (List Char) → List (List Char) → Prop
  | replace {before behind hidden hidden' : List (List Char)} {fence : List Char}
      (closed : fenceOpen before = false) (opens : isFence fence = true)
      (no_fence : ∀ line ∈ hidden, isFence line = false)
      (no_fence' : ∀ line ∈ hidden', isFence line = false) :
      AlikeOutside (before ++ fence :: (hidden ++ behind)) (before ++ fence :: (hidden' ++ behind))

namespace AlikeOutside

variable {ls ls' : List (List Char)}

/-- **Hidden lines are not seen** by a scan. -/
theorem foldl_step_eq (h : AlikeOutside ls ls') : ls.foldl step start = ls'.foldl step start := by
  cases h with
  | @replace before behind hidden hidden' fence closed opens no_fence no_fence' =>
    have hopen : ((before.foldl step start).step fence).fenced = true := by
      rw [foldl_step_start, step, if_pos opens, closed]
      rfl
    rw [List.foldl_append, List.foldl_append, List.foldl_cons, List.foldl_cons,
      List.foldl_append, List.foldl_append, foldl_step_of_fenced hopen no_fence,
      foldl_step_of_fenced hopen no_fence']

theorem ne_nil (h : AlikeOutside ls ls') : ls ≠ [] := by
  cases h
  simp

/-- A first line that is no fence is not hidden, and has a fence behind it. -/
theorem exists_eq_cons {first : List Char} {rest : List (List Char)} (h : AlikeOutside ls ls')
    (hfirst : ls' = first :: rest) (hfence : isFence first = false) :
    ∃ rest', ls = first :: rest' ∧ rest' ≠ [] := by
  cases h with
  | @replace before behind hidden hidden' fence closed opens no_fence no_fence' =>
    cases before with
    | nil =>
      obtain ⟨rfl, -⟩ := List.cons.inj hfirst
      rw [hfence] at opens
      cases opens
    | cons line before =>
      obtain ⟨rfl, -⟩ := List.cons.inj hfirst
      exact ⟨before ++ fence :: (hidden ++ behind), rfl, by simp⟩

end AlikeOutside

end Scan

/-! ## Notes -/

theorem parse_eq (text : String) :
    parse text =
      ⟨(Scan.ofText (bodyOf text.toList)).tags.map String.ofList,
        ((cut? text.toList).map Cut.properties).bind Yaml.mapping?,
        (Scan.ofText (bodyOf text.toList)).links.map String.ofList⟩ := by
  rw [parse, bodyOf]
  cases cut? text.toList <;> rfl

/-- Where lines of the body are hidden, the note is cut at the same place whatever they
are. -/
theorem cut?_of_alikeOutside {text body : List Char} (hclosed : PropertiesClosed text)
    (h : Scan.AlikeOutside (lines (bodyOf text)) (lines body)) :
    bodyOf (frontOf text ++ body) = body ∧
      (cut? (frontOf text ++ body)).map Cut.properties = (cut? text).map Cut.properties := by
  cases hcut : cut? text with
  | none =>
    have hopening := openingLine?_eq_none_of_closed hclosed hcut
    have hbody : bodyOf text = text := by rw [bodyOf, hcut]
    have hfront : frontOf text ++ body = body := by rw [frontOf, hcut, List.nil_append]
    have hnew : cut? body = none := by
      cases hopens : openingLine? body with
      | none => rw [cut?, hopens]
      | some parts =>
        obtain ⟨rest, hlines, hne⟩ := h.exists_eq_cons (lines_of_openingLine? hopens) (by decide)
        rw [hbody] at hlines
        exact absurd hopening (openingLine?_ne_none_of_lines hlines hne)
    rw [hfront, bodyOf, hnew]
    exact ⟨rfl, rfl⟩
  | some c =>
    have hbody : bodyOf text = c.body := by rw [bodyOf, hcut]
    have hne : c.body ≠ [] := by
      intro hnil
      rw [hbody, hnil] at h
      exact h.ne_nil rfl
    have hnew := cut?_replace hcut hne body
    have hfront : frontOf text = c.opening ++ c.properties ++ c.closing := by rw [frontOf, hcut]
    rw [hfront, bodyOf, hnew]
    exact ⟨rfl, rfl⟩

/-- **Fences hide what they hold.**  A note is what stands before its body and the body;
its tags and its links are those of the shown lines of the body, each at its first place;
and a note with closed properties, or with none, is read the same when lines behind an
opening fence, none of which is a fence, are replaced by others of this kind. -/
theorem hidden_lines_do_not_show (text : String) :
    frontOf text.toList ++ bodyOf text.toList = text.toList ∧
    (parse text).tags = (((Scan.shownLines (lines (bodyOf text.toList))).flatMap
      lineTags).eraseDups).map String.ofList ∧
    (parse text).links = (((Scan.shownLines (lines (bodyOf text.toList))).flatMap
      lineLinks).eraseDups).map String.ofList ∧
    (PropertiesClosed text.toList → ∀ body,
      Scan.AlikeOutside (lines (bodyOf text.toList)) (lines body) →
        parse (String.ofList (frontOf text.toList ++ body)) = parse text) := by
  obtain ⟨htags, hlinks⟩ := Scan.ofText_eq (bodyOf text.toList)
  refine ⟨frontOf_append_bodyOf _, by rw [parse_eq, htags], by rw [parse_eq, hlinks], ?_⟩
  intro hclosed body halike
  obtain ⟨hbody, hproperties⟩ := cut?_of_alikeOutside hclosed halike
  have hscan : Scan.ofText body = Scan.ofText (bodyOf text.toList) := halike.foldl_step_eq.symm
  rw [parse_eq, parse_eq, String.toList_ofList, hbody, hproperties, hscan]

/-- A note with properties, a fence that is closed and one that is not: a line of three
hyphens and an empty one may take the place of a tag and a link behind the first fence. -/
theorem hidden_lines_do_not_show_code :
    let text := "---\na: b\n---\n#x\n\x60\x60\x60\n#no [[no]]\n\x60\x60\x60\r\n#yes\n\x60\x60\x60"
    let other := "---\na: b\n---\n#x\n\x60\x60\x60\n---\n\n\x60\x60\x60\n#yes\n\x60\x60\x60\n"
    PropertiesClosed text.toList ∧ (parse text).tags = ["#x", "#yes"] ∧
      parse other = parse text := by
  intro text other
  let body := "#x\n\x60\x60\x60\n---\n\n\x60\x60\x60\n#yes\n\x60\x60\x60\n"
  let fence := "\x60\x60\x60".toList
  have hclosed : PropertiesClosed text.toList := by
    rintro rest (hrest | hrest)
    · obtain rfl : text.toList.drop 4 = rest := by rw [hrest]; rfl
      exact ⟨"---\n".toList, by decide +kernel, by decide +kernel⟩
    · have hreturn : text.toList[3]? = some '\r' := by rw [hrest]; rfl
      exact absurd hreturn (by decide +kernel)
  have halike : Scan.AlikeOutside (lines (bodyOf text.toList)) (lines body.toList) := by
    have htext : lines (bodyOf text.toList) = ["#x".toList] ++
        fence :: (["#no [[no]]".toList] ++ [fence, "#yes".toList, fence]) := by decide +kernel
    have hbody : lines body.toList = ["#x".toList] ++
        fence :: (["---".toList, []] ++ [fence, "#yes".toList, fence]) := by decide +kernel
    rw [htext, hbody]
    exact .replace (by decide) (by decide) (by decide) (by decide)
  obtain ⟨-, htags, -, hsame⟩ := hidden_lines_do_not_show text
  have hother : String.ofList (frontOf text.toList ++ body.toList) = other := by decide +kernel
  rw [htags, ← hother]
  exact ⟨hclosed, by decide +kernel, hsame hclosed body.toList halike⟩

end NoteVault.Note
