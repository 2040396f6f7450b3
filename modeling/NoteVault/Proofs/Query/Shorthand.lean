import Mathlib.Data.List.TakeWhile
import NoteVault.Proofs.Pattern.Word
import NoteVault.Proofs.Query.Complement
import NoteVault.Proofs.Query.Texts
import NoteVault.Proofs.Unicode.Space

/-!
# The shorthands for an extension and for the root

A dot with an extension behind it, and a single slash, are read as patterns
(`parse_dotWord`, `parse_slash`), and patterns are sought in all texts of a file.  What
stands at the ends of these texts says where such a pattern can be found: the one for
an extension in the name, in the time and in the last tag (`any_texts_extension`), the
one for the root in the folder only (`any_texts_root`), as long as times are not
written as a slash.

So the shorthand for the root asks for what it says (`files_evaluate_root`).  The one
for an extension finds all files that have it, and those that show it in another place
(`files_evaluate_extension`, `extension_shown_otherwise`).
-/

namespace NoteVault.Query

open Calendar Pattern Text Unicode

/-! ## Patterns in the texts of a file -/

theorem admits_text {source : String} {r : Regex} (h : Regex.parse? source = some r)
    (ctx : Context) (file : FileRecord) :
    (Term.text source).admits ctx file =
      (Matcher.texts ctx file).any fun text => r.isMatch text.toList := by
  have hterm : Matcher.ofTerm? ctx (.text source) = some (.pattern r) :=
    congrArg (Option.map Matcher.pattern) h
  rw [Term.admits, hterm]
  rfl

theorem readable_text_iff {source : String} :
    (Term.text source).Readable ↔ (Regex.parse? source).isSome = true :=
  ⟨fun h => h source rfl, fun h _ he => Option.some.inj he ▸ h⟩

/-- The time of a file, written as patterns find it. -/
def modifiedText (ctx : Context) (file : FileRecord) : Option String :=
  (file.modified.map Int64.toInt).bind ctx.dateFormat.write?

theorem any_texts (ctx : Context) (file : FileRecord) (p : String → Bool) :
    (Matcher.texts ctx file).any p =
      (p file.name || p file.folder || (modifiedText ctx file).any p || p file.tagText ||
        p file.propertiesText) := by
  have htime : (modifiedText ctx file).toList.any p = (modifiedText ctx file).any p := by
    cases modifiedText ctx file with
    | none => rfl
    | some text => exact Bool.or_false _
  show ([file.name, file.folder] ++ (modifiedText ctx file).toList ++
    [file.tagText, file.propertiesText]).any p = _
  simp only [List.any_append, List.any_cons, List.any_nil, Bool.or_false, htime, Bool.or_assoc]

/-! ## Reading a shorthand -/

theorem isSpace_of_isAlphanum {c : Char} (h : c.isAlphanum = true) : isSpace c = false := by
  have hnarrow := isAlpha_isDigit_of_isSpace c.toNat (toNat_lt_of_isAlphanum h)
  rw [Char.ofNat_toNat] at hnarrow
  refine Bool.eq_false_iff.2 fun hspace => ?_
  obtain ⟨halpha, hdigit⟩ := hnarrow hspace
  rw [Char.isAlphanum, halpha, hdigit] at h
  cases h

/-- A text without white space, quotes and exclamation marks in front is one token. -/
theorem tokens_word {c : Char} {cs : List Char} (hspace : ∀ d ∈ c :: cs, isSpace d = false)
    (hquote : isQuote c = false) (hbang : c ≠ '!') : tokens (c :: cs) = [c :: cs] := by
  have hphrase : quoted? (c :: cs) = none := by
    rw [quoted?_of_head_ne (by simpa using hbang), phrase?, hquote]
    rfl
  have hall : ∀ d ∈ c :: cs, (!isSpace d) = true := by
    intro d hd
    rw [hspace d hd]
    rfl
  have hcut : cutToken (c :: cs) = (c :: cs, []) := by
    rw [cutToken, hphrase]
    exact Prod.ext (List.takeWhile_eq_self_iff.2 hall) (List.dropWhile_eq_nil_iff.2 hall)
  rw [tokens_of_not_space cs (hspace c List.mem_cons_self), hcut, tokens_nil]

theorem ofList_dotWord (ext : String) :
    String.ofList ('\\' :: '.' :: (ext.toList ++ ['$'])) = "\\." ++ ext ++ "$" := by
  rw [← String.toList_inj, String.toList_ofList, String.toList_append, String.toList_append]
  rfl

theorem parse_dotWord {ext : String} (hext : ∀ c ∈ ext.toList, isSpace c = false) :
    parse ("." ++ ext) = [.text ("\\." ++ ext ++ "$")] := by
  have hlist : ("." ++ ext).toList = '.' :: ext.toList := String.toList_append
  have hspace : ∀ c ∈ '.' :: ext.toList, isSpace c = false :=
    List.forall_mem_cons.2 ⟨by decide, hext⟩
  rw [parse, hlist, trim_eq_self (trimmed_of_no_space hspace),
    tokens_word hspace (by decide) (by decide)]
  exact congrArg (fun source => [Term.text source]) (ofList_dotWord ext)

theorem parse_slash : parse "/" = [.text "^/$"] ∧ parse "!/" = [.exclude (.text "^/$")] := by
  decide +kernel

/-! ## An extension at the end of a text -/

theorem toList_toLower (text : String) : text.toLower.toList = text.toList.map Char.toLower :=
  String.toList_map

/-- Whether a text ends in a dot and an extension, in any case. -/
def showsAtEnd (ext text : String) : Bool :=
  (cutLast '.' text.toList).any fun cut => sameFolded cut.2 ext.toList

/-- **Whether a file shows an extension otherwise** than by having it: its extension has
a long s in the place of an s, its name is nothing but a dot and the extension, its time
is written so that it ends in them, or its last tag does. -/
def showsOtherwise (ctx : Context) (ext : String) (file : FileRecord) : Bool :=
  file.extension.toList.contains longS && sameFolded file.extension.toList ext.toList ||
    sameFolded file.name.toList ('.' :: ext.toList) ||
    (modifiedText ctx file).any (showsAtEnd ext) ||
    file.displayTags.getLast?.any (showsAtEnd ext)

/-- A text that folds like a dot and more begins with a dot. -/
theorem sameFolded_dot_iff {text cs : List Char} :
    sameFolded text ('.' :: cs) = true ↔ ∃ last, text = '.' :: last ∧ sameFolded last cs = true := by
  rw [sameFolded_iff]
  constructor
  · intro h
    cases text with
    | nil => cases h
    | cons d last =>
      obtain ⟨hd, hlast⟩ := List.cons.inj h
      obtain rfl := (fold_eq_fold_iff_of_not_isAlpha (by decide) (by decide) d).1 hd
      exact ⟨last, rfl, sameFolded_iff.2 hlast⟩
  · rintro ⟨last, rfl, hsame⟩
    rw [List.map_cons, List.map_cons, sameFolded_iff.1 hsame]

section Extension

variable {ext : String} (hext : ∀ c ∈ ext.toList, c.isAlphanum = true)

include hext

/-- Only letters and digits fold like those of an extension. -/
theorem not_mem_of_sameFolded_extension {cs : List Char} (h : sameFolded cs ext.toList = true)
    {c : Char} (hc : c.toNat < 128 ∧ c.isAlphanum = false) : c ∉ cs := by
  obtain ⟨hascii, hother⟩ := hc
  have halpha : c.isAlpha = false := (Bool.or_eq_false_iff.1 hother).1
  refine not_mem_of_sameFolded h hascii halpha fun hmem => ?_
  rw [hext c hmem] at hother
  cases hother

/-- The dot before an extension is the last one. -/
theorem cutLast_extension {text before last : List Char} (htext : text = before ++ '.' :: last)
    (hsame : sameFolded last ext.toList = true) : cutLast '.' text = some (before, last) :=
  cutLast_eq_some_iff.2 ⟨htext, not_mem_of_sameFolded_extension hext hsame (by decide)⟩

theorem showsAtEnd_iff (text : String) :
    showsAtEnd ext text = true ↔
      ∃ before last, text.toList = before ++ '.' :: last ∧ sameFolded last ext.toList = true := by
  rw [showsAtEnd]
  constructor
  · intro h
    cases hcut : cutLast '.' text.toList with
    | none => rw [hcut] at h; cases h
    | some cut =>
      rw [hcut] at h
      exact ⟨cut.1, cut.2, (cutLast_eq_some_iff.1 hcut).1, h⟩
  · rintro ⟨before, last, htext, hsame⟩
    rw [cutLast_extension hext htext hsame]
    exact hsame

/-- **The pattern for an extension** is found in the texts that end in it. -/
theorem isMatch_dotWord (text : String) :
    (Regex.wordAtEnd ('.' :: ext.toList)).isMatch text.toList = showsAtEnd ext text := by
  have hascii : ∀ c ∈ '.' :: ext.toList, c.toNat < 128 :=
    List.forall_mem_cons.2 ⟨by decide, fun c hc => toNat_lt_of_isAlphanum (hext c hc)⟩
  rw [Bool.eq_iff_iff, Regex.isMatch_wordAtEnd hascii, showsAtEnd_iff hext]
  constructor
  · rintro ⟨before, found, htext, hfold⟩
    obtain ⟨last, rfl, hsame⟩ := sameFolded_dot_iff.1 (sameFolded_iff.2 hfold)
    exact ⟨before, last, htext, hsame⟩
  · rintro ⟨before, last, htext, hsame⟩
    exact ⟨before, _, htext, sameFolded_iff.1 (sameFolded_dot_iff.2 ⟨last, rfl, hsame⟩)⟩

/-- What ends in another character than a letter or digit ends in no extension. -/
theorem showsAtEnd_of_getLast? (hne : ext ≠ "") {text : String} {c : Char}
    (hc : c.toNat < 128 ∧ c.isAlphanum = false) (h : ∀ d ∈ text.toList.getLast?, d = c) :
    showsAtEnd ext text = false := by
  rw [← Bool.not_eq_true, showsAtEnd_iff hext]
  rintro ⟨before, last, htext, hsame⟩
  have hnot := not_mem_of_sameFolded_extension hext hsame hc
  rcases List.eq_nil_or_concat last with rfl | ⟨rest, d, rfl⟩
  · have hnil := List.map_eq_nil_iff.1 (sameFolded_iff.1 hsame).symm
    exact hne (String.toList_inj.1 hnil)
  · rw [List.concat_eq_append] at htext hnot
    have hlast : text.toList.getLast? = some d := by
      rw [htext, ← List.cons_append, ← List.append_assoc, List.getLast?_concat]
    exact hnot (h d hlast ▸ List.mem_append_right _ List.mem_cons_self)

/-! ## The places where a file shows an extension -/

/-- **The name** shows the extension of the file, or all there is of the name. -/
theorem showsAtEnd_name (hne : ext ≠ "") {file : FileRecord} (h : file.Built) :
    showsAtEnd ext file.name =
      (sameFolded file.extension.toList ext.toList ||
        sameFolded file.name.toList ('.' :: ext.toList)) := by
  have hascii : ∀ c ∈ ext.toList, c.toNat < 128 :=
    fun c hc => toNat_lt_of_isAlphanum (hext c hc)
  rw [Bool.eq_iff_iff, Bool.or_eq_true, sameFolded_dot_iff, showsAtEnd_iff hext]
  rcases FileRecord.extension_cases h with ⟨c, base, last, hlast, hlower⟩ | ⟨hnone, hdot⟩
  · -- The part behind the last dot is the extension, and something stands before the dot.
    have hsame : sameFolded file.extension.toList ext.toList = sameFolded last ext.toList := by
      rw [hlower, Bool.eq_iff_iff, sameFolded_iff, sameFolded_iff,
        map_fold_lowercaseChars_iff hascii]
    rw [hsame]
    constructor
    · rintro ⟨before, found, hname, hfound⟩
      cases (cutLast_extension hext hname hfound).symm.trans hlast
      exact Or.inl hfound
    · rintro (hfound | ⟨found, hname, hfound⟩)
      · exact ⟨c :: base, last, (cutLast_eq_some_iff.1 hlast).1, hfound⟩
      · exact ⟨[], found, hname, hfound⟩
  · -- Without an extension, a dot can only be the first character of the name.
    have hempty : sameFolded file.extension.toList ext.toList = false := by
      rw [hnone, ← Bool.not_eq_true, sameFolded_iff]
      exact fun h => hne (String.toList_inj.1 (List.map_eq_nil_iff.1 h.symm))
    rw [hempty]
    constructor
    · rintro ⟨before, found, hname, hfound⟩
      obtain rfl := hdot _ _ (cutLast_extension hext hname hfound)
      exact Or.inr ⟨found, hname, hfound⟩
    · rintro (h | ⟨found, hname, hfound⟩)
      · cases h
      · exact ⟨[], found, hname, hfound⟩

/-- **The tags in one line** show an extension that the last tag shows. -/
theorem showsAtEnd_tagText {file : FileRecord} (h : file.Built) :
    showsAtEnd ext file.tagText = file.displayTags.getLast?.any (showsAtEnd ext) := by
  cases hlast : file.displayTags.getLast? with
  | none =>
    rw [FileRecord.tagText, List.getLast?_eq_none_iff.1 hlast, joinWith_nil]
    rfl
  | some tag =>
    obtain ⟨before, htext⟩ := exists_joinWith_of_getLast? " " hlast
    obtain ⟨name, hname⟩ := FileRecord.exists_of_mem_displayTags h (List.mem_of_getLast? hlast)
    have hsign : '#' ∈ tag.toList := by
      rw [hname, String.toList_ofList]
      exact List.mem_cons_self
    rw [Option.any_some, Bool.eq_iff_iff, showsAtEnd_iff hext, showsAtEnd_iff hext,
      FileRecord.tagText, htext]
    constructor
    · rintro ⟨front, last, heq, hsame⟩
      rcases List.append_eq_append_iff.1 heq with ⟨rest, -, htag⟩ | ⟨rest, -, hrest⟩
      · exact ⟨rest, last, htag, hsame⟩
      · -- The tag would stand behind the dot, number sign and all.
        have hmem : '#' ∈ '.' :: last := hrest ▸ List.mem_append_right _ hsign
        have hnot := not_mem_of_sameFolded_extension hext hsame (c := '#') (by decide)
        exact absurd hmem (List.not_mem_cons_of_ne_of_not_mem (by decide) hnot)
    · rintro ⟨front, last, heq, hsame⟩
      exact ⟨before ++ front, last, by rw [heq, List.append_assoc], hsame⟩

/-- The extension of a file is the same for patterns if it is the same but for the case
of ASCII letters, or has a long s. -/
theorem sameFolded_extension {file : FileRecord} (h : file.Built) :
    sameFolded file.extension.toList ext.toList =
      (file.extension.toLower == ext.toLower ||
        file.extension.toList.contains longS && sameFolded file.extension.toList ext.toList) := by
  have hascii : ∀ c ∈ ext.toList, c.toNat < 128 :=
    fun c hc => toNat_lt_of_isAlphanum (hext c hc)
  have hlower : (file.extension.toLower == ext.toLower) = true ↔
      file.extension.toList.map Char.toLower = ext.toList.map Char.toLower := by
    rw [beq_iff_eq, ← String.toList_inj, toList_toLower, toList_toLower]
  -- The extension is in lower case, and the lower case of a Kelvin sign is a plain k.
  have hkelvin : kelvinSign ∉ file.extension.toList := by
    rcases FileRecord.extension_cases h with ⟨-, -, last, -, hlast⟩ | ⟨hnone, -⟩
    · rw [hlast]
      exact kelvinSign_not_mem_lowercaseChars last
    · rw [hnone]
      exact List.not_mem_nil
  rw [Bool.eq_iff_iff, Bool.or_eq_true, Bool.and_eq_true, List.contains_iff_mem, hlower]
  constructor
  · intro hsame
    by_cases hs : longS ∈ file.extension.toList
    · exact Or.inr ⟨hs, hsame⟩
    · exact Or.inl ((sameFolded_iff_of_not_mem hascii hs hkelvin).1 hsame)
  · rintro (hlower | ⟨-, hsame⟩)
    · exact sameFolded_of_toLower hascii hlower
    · exact hsame

/-- **The pattern for an extension in the texts of a file.** -/
theorem any_texts_extension (hne : ext ≠ "") (ctx : Context) {file : FileRecord}
    (h : file.Built) :
    (Matcher.texts ctx file).any (showsAtEnd ext) =
      (file.extension.toLower == ext.toLower || showsOtherwise ctx ext file) := by
  have hfolder : showsAtEnd ext file.folder = false :=
    showsAtEnd_of_getLast? hext hne (c := '/') (by decide) fun d hd =>
      Option.some.inj (hd.symm.trans (getLast?_folderText file.path))
  have hproperties : showsAtEnd ext file.propertiesText = false :=
    showsAtEnd_of_getLast? hext hne (c := '\x27') (by decide)
      (FileRecord.getLast?_propertiesText file)
  rw [any_texts, showsAtEnd_name hext hne h, sameFolded_extension hext h, hfolder, hproperties,
    showsAtEnd_tagText hext h, showsOtherwise]
  simp only [Bool.or_false, Bool.or_assoc]

end Extension

/-! ## The shorthand for an extension -/

theorem parse?_extension {ext : String} (hext : ∀ c ∈ ext.toList, c.isAlphanum = true) :
    Regex.parse? ("\\." ++ ext ++ "$") =
      if 72 * (ext.toList.length + 1) + 64 ≤ greatestWeight then
        some (Regex.wordAtEnd ('.' :: ext.toList))
      else none := by
  rw [← ofList_dotWord]
  exact Regex.parse?_dotWord hext

/-- Only the length of an extension can keep its pattern from being read. -/
theorem readable_extension_iff {ext : String} (hext : ∀ c ∈ ext.toList, c.isAlphanum = true) :
    (Term.text ("\\." ++ ext ++ "$")).Readable ↔
      72 * (ext.toList.length + 1) + 64 ≤ greatestWeight := by
  rw [readable_text_iff, parse?_extension hext]
  split
  · exact ⟨fun _ => ‹_›, fun _ => rfl⟩
  · exact ⟨nofun, fun h => absurd h ‹_›⟩

/-- **A file that a search for an extension lets pass**, where its pattern can be read. -/
theorem admits_extension {ext : String} (hne : ext ≠ "")
    (hext : ∀ c ∈ ext.toList, c.isAlphanum = true)
    (hfits : 72 * (ext.toList.length + 1) + 64 ≤ greatestWeight) (ctx : Context)
    {file : FileRecord} (h : file.Built) :
    (Term.text ("\\." ++ ext ++ "$")).admits ctx file =
      (file.extension.toLower == ext.toLower || showsOtherwise ctx ext file) := by
  have hread := parse?_extension hext
  rw [if_pos hfits] at hread
  rw [admits_text hread, ← any_texts_extension hext hne ctx h]
  exact congrArg _ (funext (isMatch_dotWord hext))

theorem files_evaluate_dotWord (ctx : Context) {ext : String}
    (hext : ∀ c ∈ ext.toList, c.isAlphanum = true) (files : List FileRecord) :
    (evaluate ctx (parse ("." ++ ext)) files).files =
      files.filter ((Term.text ("\\." ++ ext ++ "$")).admits ctx) := by
  rw [parse_dotWord fun c hc => isSpace_of_isAlphanum (hext c hc), files_evaluate_singleton]

/-- **A search for an extension** reads the pattern of a dot and the extension at the
end.  Where that pattern can be read, and it can unless the extension is extremely long,
the files that are left are exactly those that have the extension, in either case, and
those that show it otherwise. -/
theorem files_evaluate_extension (ctx : Context) {ext : String} (hne : ext ≠ "")
    (hext : ∀ c ∈ ext.toList, c.isAlphanum = true) {files : List FileRecord}
    (hbuilt : ∀ file ∈ files, file.Built) :
    let term : Term := .text ("\\." ++ ext ++ "$")
    let found := (evaluate ctx (parse ("." ++ ext)) files).files
    parse ("." ++ ext) = [term] ∧
      (term.Readable → found = files.filter fun file =>
        file.extension.toLower == ext.toLower || showsOtherwise ctx ext file) ∧
      (¬ term.Readable → found = files) ∧
      (ext.length ≤ 10000 → term.Readable) := by
  intro term found
  have hfound : found = files.filter (term.admits ctx) := files_evaluate_dotWord ctx hext files
  refine ⟨parse_dotWord fun c hc => isSpace_of_isAlphanum (hext c hc), fun h => ?_, fun h => ?_,
    fun h => ?_⟩
  · rw [hfound]
    exact List.filter_congr fun file hfile =>
      admits_extension hne hext ((readable_extension_iff hext).1 h) ctx (hbuilt file hfile)
  · rw [hfound]
    exact List.filter_eq_self.2 fun file _ => admits_of_not_readable h ctx file
  · rw [readable_extension_iff hext, String.length_toList]
    have hweight : greatestWeight = 10485760 := rfl
    omega

/-- Two notes and an image, with the extension in the name, as all of the name, and not at
all. -/
def endings : List FileRecord :=
  [.ofParts "a.MD" .unknown none, .ofParts ".md" .unknown none, .ofParts "md.png" .unknown none]

theorem built_endings : ∀ file ∈ endings, file.Built := by
  simp only [endings, List.forall_mem_cons]
  exact ⟨⟨_, _, _, rfl⟩, ⟨_, _, _, rfl⟩, ⟨_, _, _, rfl⟩, nofun⟩

/-- The extension in capital letters is found, and so is the name that is all
extension. -/
theorem files_evaluate_extension_md :
    let ctx : Context := ⟨DayRange.epoch, .ofText "YYYY", []⟩
    "md" ≠ "" ∧ (∀ c ∈ "md".toList, c.isAlphanum = true) ∧ (∀ file ∈ endings, file.Built) ∧
      (Term.text "\\.md$").Readable ∧
      (evaluate ctx (parse ".md") endings).files.map (·.path) = ["a.MD", ".md"] := by
  intro ctx
  have hext : ∀ c ∈ "md".toList, c.isAlphanum = true := List.all_eq_true.1 (by decide)
  obtain ⟨-, hexact, -, hread⟩ :=
    files_evaluate_extension ctx (by decide) hext built_endings
  have hreadable : (Term.text "\\.md$").Readable := hread (by decide)
  have hfound := congrArg (List.map FileRecord.path) (hexact hreadable)
  refine ⟨by decide, hext, built_endings, hreadable, hfound.trans ?_⟩
  decide +kernel

/-- A file that a search for an extension finds, although it does not have it. -/
structure FoundWithout (ctx : Context) (ext : String) (file : FileRecord) : Prop where
  ne_empty : ext ≠ ""
  alphanumeric : ∀ c ∈ ext.toList, c.isAlphanum = true
  built : file.Built
  found : (evaluate ctx (parse ("." ++ ext)) [file]).files = [file]
  without : file.extension.toLower ≠ ext.toLower

namespace FoundWithout

variable {ctx : Context} {ext : String} {file : FileRecord}

theorem of_admits (hne : ext ≠ "") (hext : ∀ c ∈ ext.toList, c.isAlphanum = true)
    (hbuilt : file.Built) (hwithout : file.extension.toLower ≠ ext.toLower)
    (hadmits : (Term.text ("\\." ++ ext ++ "$")).admits ctx file = true) :
    FoundWithout ctx ext file where
  ne_empty := hne
  alphanumeric := hext
  built := hbuilt
  found := by
    rw [files_evaluate_dotWord ctx hext]
    exact List.filter_eq_self.2 (List.forall_mem_singleton.2 hadmits)
  without := hwithout

/-- A file that shows an extension otherwise is found. -/
theorem of_showsOtherwise (hne : ext ≠ "") (hext : ∀ c ∈ ext.toList, c.isAlphanum = true)
    (hbuilt : file.Built) (hwithout : file.extension.toLower ≠ ext.toLower)
    (hfits : 72 * (ext.toList.length + 1) + 64 ≤ greatestWeight)
    (hshown : showsOtherwise ctx ext file = true) : FoundWithout ctx ext file := by
  refine of_admits hne hext hbuilt hwithout ?_
  rw [admits_extension hne hext hfits ctx hbuilt, hshown, Bool.or_true]

/-- Every file is found, where an extension is too long for a pattern. -/
theorem of_too_long (hne : ext ≠ "") (hext : ∀ c ∈ ext.toList, c.isAlphanum = true)
    (hbuilt : file.Built) (hwithout : file.extension.toLower ≠ ext.toLower)
    (hlong : ¬ 72 * (ext.toList.length + 1) + 64 ≤ greatestWeight) :
    FoundWithout ctx ext file :=
  of_admits hne hext hbuilt hwithout
    (admits_of_not_readable (fun h => hlong ((readable_extension_iff hext).1 h)) ctx file)

end FoundWithout

/-- The lower case of an extension with a long s has it still. -/
theorem lowercaseChars_longS : lowercaseChars ['c', longS, 's'] = ['c', longS, 's'] := by
  have hlowered : ∀ c ∈ ['c', longS, 's'], lowercaseChar c = c := by
    simp only [List.forall_mem_cons]
    exact ⟨lowercaseChar_of_ascii (by decide), lowercaseChar_longS,
      lowercaseChar_of_ascii (by decide), nofun⟩
  refine lowercaseFrom_of_lowered (fun c hc => ⟨?_, ?_, hlowered c hc⟩) []
  · rintro rfl
    exact absurd hc (by decide)
  · rintro rfl
    exact absurd hc (by decide)

theorem splitName_longS :
    (FileRecord.splitName (fileName (String.ofList ['a', '.', 'c', longS, 's']))).2 =
      String.ofList ['c', longS, 's'] := by
  have hcut : cutLast '.' (fileName (String.ofList ['a', '.', 'c', longS, 's'])).toList =
      some (['a'], ['c', longS, 's']) := by decide +kernel
  rw [FileRecord.splitName, hcut]
  exact congrArg String.ofList lowercaseChars_longS

theorem sameFolded_longS : sameFolded ['c', longS, 's'] "css".toList = true := by
  rw [sameFolded_iff]
  simp only [List.map_cons, List.map_nil, fold_longS]
  decide

/-- **Files that are found without the extension**: a name that is nothing else, a last
tag and a time that end in it, a long s in the place of an s; and any file, where the
extension is too long for a pattern. -/
theorem extension_shown_otherwise :
    let ctx : Context := ⟨DayRange.epoch, .ofText "DD.MM.YYYY", []⟩
    FoundWithout ctx "md" (.ofParts ".md" .unknown none) ∧
      FoundWithout ctx "md" (.ofParts "b.png" .unknown (some ⟨["#notes.md"], none⟩)) ∧
      FoundWithout ctx "2025" (.ofParts "a.md" ⟨1, none, some 1740000000000⟩ none) ∧
      FoundWithout ctx "css" (.ofParts (String.ofList ['a', '.', 'c', longS, 's']) .unknown none) ∧
      FoundWithout ctx (String.ofList (List.replicate 400000 'a')) (.ofParts "a.md" .unknown none) := by
  intro ctx
  refine ⟨?dotFile, ?tag, ?time, ?longS, ?tooLong⟩
  case dotFile =>
    exact .of_showsOtherwise (by decide) (List.all_eq_true.1 (by decide)) ⟨_, _, _, rfl⟩
      (by decide +kernel) (by decide) (by decide +kernel)
  case tag =>
    exact .of_showsOtherwise (by decide) (List.all_eq_true.1 (by decide)) ⟨_, _, _, rfl⟩
      (by decide +kernel) (by decide) (by decide +kernel)
  case time =>
    exact .of_showsOtherwise (by decide) (List.all_eq_true.1 (by decide)) ⟨_, _, _, rfl⟩
      (by decide +kernel) (by decide) (by decide +kernel)
  case longS =>
    refine .of_showsOtherwise (by decide) (List.all_eq_true.1 (by decide)) ⟨_, _, _, rfl⟩
      ?_ (by decide) ?_
    · rw [FileRecord.extension_ofParts, splitName_longS]
      decide +kernel
    · rw [showsOtherwise, FileRecord.extension_ofParts, splitName_longS, String.toList_ofList,
        sameFolded_longS]
      rfl
  case tooLong =>
    have hlist : (String.ofList (List.replicate 400000 'a')).toList = List.replicate 400000 'a' :=
      String.toList_ofList
    have hlength : (String.ofList (List.replicate 400000 'a')).toList.length = 400000 := by
      rw [hlist, List.length_replicate]
    refine .of_too_long (fun h => ?_) (fun c hc => ?_) ⟨_, _, _, rfl⟩ (fun h => ?_) ?_
    · rw [h] at hlength
      exact absurd hlength (by decide)
    · rw [hlist] at hc
      rw [List.eq_of_mem_replicate hc]
      decide
    · have hlower := congrArg (·.toList.length) h
      simp only [toList_toLower, List.length_map, hlength] at hlower
      exact absurd hlower (by decide +kernel)
    · rw [hlength]
      decide

/-! ## The shorthand for the root -/

theorem parse?_slash : Regex.parse? "^/$" = some (.wordAlone ['/']) := rfl

theorem isMatch_slash (text : String) :
    (Regex.wordAlone ['/']).isMatch text.toList = (text == "/") := by
  have hascii : ∀ c ∈ ['/'], c.toNat < 128 := List.forall_mem_singleton.2 (by decide)
  rw [Bool.eq_iff_iff, Regex.isMatch_wordAlone hascii, beq_iff_eq, ← String.toList_inj]
  constructor
  · intro hfold
    obtain ⟨c, rest, htext, hc, hrest⟩ := List.map_eq_cons_iff.1 hfold
    obtain rfl := (fold_eq_fold_iff_of_not_isAlpha (by decide) (by decide) c).1 hc
    rw [htext, List.map_eq_nil_iff.1 hrest]
    rfl
  · intro h
    rw [h]
    rfl

/-- A text that begins with another character is no slash. -/
theorem beq_slash_of_head? {text : String} {c : Char} (hc : c ≠ '/')
    (h : ∀ d ∈ text.toList.head?, d = c) : (text == "/") = false := by
  rw [beq_eq_false_iff_ne]
  rintro rfl
  exact hc (h '/' rfl).symm

/-- **The pattern for the root in the texts of a file** is found in the folder only. -/
theorem any_texts_root {ctx : Context} (htime : ∀ ms, ctx.dateFormat.write? ms ≠ some "/")
    {file : FileRecord} (h : file.Built) :
    (Matcher.texts ctx file).any (· == "/") = (file.folder == "/") := by
  have hname : (file.name == "/") = false := by
    rw [beq_eq_false_iff_ne]
    intro heq
    refine FileRecord.slash_not_mem_name h ?_
    rw [heq]
    decide
  have hmodified : (modifiedText ctx file).any (· == "/") = false := by
    cases hwritten : modifiedText ctx file with
    | none => rfl
    | some text =>
      obtain ⟨ms, -, hms⟩ := Option.bind_eq_some_iff.1 hwritten
      rw [Option.any_some, beq_eq_false_iff_ne]
      rintro rfl
      exact htime ms hms
  have htags := beq_slash_of_head? (c := '#') (by decide) (FileRecord.head?_tagText h)
  have hproperties :=
    beq_slash_of_head? (c := '\x27') (by decide) (FileRecord.head?_propertiesText file)
  rw [any_texts, hname, hmodified, htags, hproperties, Bool.false_or, Bool.or_false, Bool.or_false,
    Bool.or_false]

/-- **A search for the root** leaves the files that lie at the root, and its exclusion
the others: those with no parent folder, and those with one. -/
theorem files_evaluate_root {ctx : Context} (htime : ∀ ms, ctx.dateFormat.write? ms ≠ some "/")
    {files : List FileRecord} (hbuilt : ∀ file ∈ files, file.Built) :
    (evaluate ctx (parse "/") files).files = files.filter (fun file => file.folder == "/") ∧
      (evaluate ctx (parse "!/") files).files =
        files.filter (fun file => !(file.folder == "/")) ∧
      ∀ file ∈ files, file.folder = "/" ↔ parentFolder file.path = "" := by
  have hadmits : ∀ file ∈ files, (Term.text "^/$").admits ctx file = (file.folder == "/") := by
    intro file hfile
    rw [admits_text parse?_slash, ← any_texts_root htime (hbuilt file hfile)]
    exact congrArg _ (funext isMatch_slash)
  have hread : (Term.text "^/$").Readable := readable_text_iff.2 (by rw [parse?_slash]; rfl)
  rw [parse_slash.1, parse_slash.2, files_evaluate_singleton, files_evaluate_singleton]
  refine ⟨List.filter_congr hadmits, ?_, fun file _ => folderText_eq_slash_iff file.path⟩
  exact List.filter_congr fun file hfile => by rw [admits_exclude hread, hadmits file hfile]

/-- A format that writes dashes writes no slash. -/
theorem files_evaluate_root_dashes :
    let ctx : Context := ⟨DayRange.epoch, .ofText "YYYY-MM-DD", []⟩
    let files : List FileRecord := [.ofParts "a.md" ⟨1, none, some 0⟩ none,
      .ofParts "sub/b.md" .unknown (some ⟨["/"], none⟩), .ofParts "/c.md" .unknown none]
    (∀ ms, ctx.dateFormat.write? ms ≠ some "/") ∧ (∀ file ∈ files, file.Built) ∧
      (evaluate ctx (parse "/") files).files.map (·.path) = ["a.md", "/c.md"] ∧
      (evaluate ctx (parse "!/") files).files.map (·.path) = ["sub/b.md"] := by
  intro ctx files
  have htime : ∀ ms, ctx.dateFormat.write? ms ≠ some "/" := by
    intro ms h
    have hitems : items? ctx.dateFormat.pattern.toList =
        some [.field .year, .literal '-', .field .month, .literal '-', .field .day] := by
      decide +kernel
    obtain ⟨moment, -, h⟩ := Option.bind_eq_some_iff.1 h
    rw [hitems] at h
    have hlist := congrArg String.toList (Option.some.inj h)
    rw [String.toList_ofList] at hlist
    have hdash : '-' ∈ "/".toList :=
      hlist ▸ List.mem_flatMap_of_mem (a := .literal '-') (by decide) List.mem_cons_self
    exact absurd hdash (by decide)
  have hbuilt : ∀ file ∈ files, file.Built := by
    simp only [files, List.forall_mem_cons]
    exact ⟨⟨_, _, _, rfl⟩, ⟨_, _, _, rfl⟩, ⟨_, _, _, rfl⟩, nofun⟩
  obtain ⟨hroot, hothers, -⟩ := files_evaluate_root htime hbuilt
  refine ⟨htime, hbuilt, ?_, ?_⟩
  · rw [hroot]
    decide +kernel
  · rw [hothers]
    decide +kernel

end NoteVault.Query
