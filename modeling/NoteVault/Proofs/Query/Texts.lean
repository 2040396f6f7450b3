import NoteVault.Proofs.Tag.Sidebar
import NoteVault.Proofs.Text.Cut
import NoteVault.Proofs.Text.Joined

/-!
# What stands at the ends of the texts of a file

Patterns are sought in five texts of a file.  Its name has no slash
(`slash_not_mem_name`), its folder ends in one (`getLast?_folder`), each tag begins with
a number sign (`exists_of_mem_displayTags`) and each property stands in quotes, so the
first character of the tags in one line and those at both ends of the properties are
known too.  The extension of a name is the part behind its last dot, in lower case,
unless nothing stands before that dot (`extension_cases`).
-/

namespace NoteVault

open Text Unicode

/-! ## Paths -/

theorem slash_not_mem_fileName (path : String) : '/' ∉ (fileName path).toList := by
  unfold fileName
  split
  · rename_i dir name hcut
    rw [String.toList_ofList]
    exact (cutLast_eq_some_iff.1 hcut).2
  · rename_i hcut
    exact cutLast_eq_none_iff.1 hcut

/-- A file lies at the root exactly if it has no parent folder. -/
theorem folderText_eq_slash_iff (path : String) :
    folderText path = "/" ↔ parentFolder path = "" := by
  unfold folderText parentFolder
  cases cutLast '/' path.toList with
  | none => exact ⟨fun _ => rfl, fun _ => rfl⟩
  | some cut =>
    obtain ⟨dir, name⟩ := cut
    cases dir with
    | nil => exact ⟨fun _ => rfl, fun _ => rfl⟩
    | cons c dir =>
      constructor
      · intro h
        have hlist := congrArg String.toList h
        rw [String.toList_ofList] at hlist
        cases (List.cons.inj hlist).2
      · intro h
        have hlist := congrArg String.toList h
        rw [String.toList_ofList] at hlist
        cases hlist

theorem getLast?_folderText (path : String) : (folderText path).toList.getLast? = some '/' := by
  unfold folderText
  split
  · rw [String.toList_ofList, List.cons_append, ← List.cons_append, List.getLast?_concat]
  · rfl

namespace FileRecord

/-! ## Names -/

theorem slash_not_mem_name {file : FileRecord} (h : file.Built) : '/' ∉ file.name.toList := by
  obtain ⟨path, stat, known, rfl⟩ := h
  exact slash_not_mem_fileName path

theorem extension_ofParts (path : String) (stat : FileStat) (known : Option Metadata) :
    (ofParts path stat known).extension = (splitName (fileName path)).2 := rfl

/-- **The extension of a name**: the part behind the last dot in lower case, or nothing
where no dot has anything before it. -/
theorem extension_cases {file : FileRecord} (h : file.Built) :
    (∃ c base last, cutLast '.' file.name.toList = some (c :: base, last) ∧
        file.extension.toList = lowercaseChars last) ∨
      file.extension = "" ∧
        ∀ base last, cutLast '.' file.name.toList = some (base, last) → base = [] := by
  obtain ⟨path, stat, known, rfl⟩ := h
  rw [extension_ofParts, show (ofParts path stat known).name = fileName path from rfl]
  unfold splitName
  cases hcut : cutLast '.' (fileName path).toList with
  | none => exact Or.inr ⟨rfl, nofun⟩
  | some cut =>
    obtain ⟨base, last⟩ := cut
    cases base with
    | nil =>
      refine Or.inr ⟨rfl, ?_⟩
      rintro _ _ ⟨⟩
      rfl
    | cons c base => exact Or.inl ⟨c, base, last, rfl, String.toList_ofList⟩

/-! ## Tags and properties -/

/-- **Each tag begins with a number sign.** -/
theorem exists_of_mem_displayTags {file : FileRecord} (h : file.Built) {tag : String}
    (htag : tag ∈ file.displayTags) : ∃ name, tag = String.ofList ('#' :: name) := by
  obtain ⟨path, stat, known, rfl⟩ := h
  cases known with
  | none => cases htag
  | some known =>
    obtain ⟨written, -, hread⟩ := List.mem_filterMap.1 (mem_firstOccurrences.1 htag)
    obtain ⟨name, -, rfl⟩ := displayTag?_eq_some hread
    exact ⟨name, rfl⟩

theorem head?_tagText {file : FileRecord} (h : file.Built) :
    ∀ c ∈ file.tagText.toList.head?, c = '#' := by
  refine head?_joinWith " " fun tag htag => ?_
  obtain ⟨name, rfl⟩ := exists_of_mem_displayTags h htag
  rw [String.toList_ofList]
  rfl

theorem toList_propertyText (property : String × String) :
    (propertyText property).toList =
      '\x27' :: (property.1 ++ ": " ++ property.2).toList ++ ['\x27'] := by
  simp [propertyText, String.toList_append]

theorem head?_propertiesText (file : FileRecord) :
    ∀ c ∈ file.propertiesText.toList.head?, c = '\x27' := by
  refine head?_joinWith " \n" (List.forall_mem_map.2 fun property _ => ?_)
  rw [toList_propertyText]
  rfl

theorem getLast?_propertiesText (file : FileRecord) :
    ∀ c ∈ file.propertiesText.toList.getLast?, c = '\x27' := by
  refine getLast?_joinWith " \n" (List.forall_mem_map.2 fun property _ => ?_)
  rw [toList_propertyText, List.getLast?_concat]

end FileRecord

end NoteVault
