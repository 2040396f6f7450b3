import NoteVault.Index.Classify
import NoteVault.Tag.Search

/-!
The overview of a vault: how many files there are of each kind, and the latest of them.
-/

namespace NoteVault

/-- An overview: counts with their names, and lists of files with their titles. -/
structure Dashboard where
  counts : List (String × Nat)
  sections : List (String × List FileRecord)

namespace Dashboard

/-- The title of the latest files of a category. -/
def title : FileCategory → String
  | .notes => "Recent notes"
  | .canvas => "Recent canvases"
  | .images => "Recent images"
  | .audio => "Recent audio files"
  | .video => "Recent videos"
  | .pdf => "Recent PDFs"
  | .bases => "Recent bases"
  | .other => "Recent other files"

/-- The categories in the order in which their latest files are shown. -/
def categoryOrder : List FileCategory :=
  [.notes, .canvas, .images, .audio, .video, .pdf, .bases, .other]

/-- The latest files of a list, up to a limit. -/
def mostRecent (files : List FileRecord) (limit : Nat) : List FileRecord :=
  (Tag.recentFirst files).take limit

/-- The overview of a vault. Paths of files that are missing or hidden are passed over. -/
def ofIndex (index : VaultIndex) (bookmarks lastOpened : List String) (limit : Nat) :
    Dashboard where
  counts :=
    ("files", index.filteredFiles.length) ::
      FileCategory.all.map (fun c => (c.name, (index.filesIn c).length)) ++
      [("folders", index.folders.length), ("tags", index.tagNames.length),
        ("bookmarks", (index.records bookmarks).length)]
  sections :=
    ("Recently opened", (index.records lastOpened).take limit) ::
      ("Recent files", mostRecent index.filteredFiles limit) ::
      categoryOrder.map (fun c => (title c, mostRecent (index.filesIn c) limit)) ++
      [("Bookmarks", mostRecent (index.records bookmarks) limit)]

end Dashboard

end NoteVault
