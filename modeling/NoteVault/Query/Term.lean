import NoteVault.Calendar.Window
import NoteVault.FileCategory

/-!
Terms: what a query asks for, one term for each token.
-/

namespace NoteVault.Query

open Calendar

/-- The kinds of files that a term can ask for. -/
inductive TypeFilter where
  | category (c : FileCategory)
  | bookmarks
  deriving DecidableEq, Repr

/-- A part of a query. -/
inductive Term where
  /-- Asks for nothing in particular. -/
  | all
  /-- Asks for a pattern in the text of a file. -/
  | text (pattern : String)
  /-- Asks for the opposite. -/
  | exclude (term : Term)
  /-- Asks for days, written as a range. -/
  | range (raw : String)
  /-- Asks for days, counted back from today. -/
  | window (w : Window)
  | type (filter : TypeFilter)
  /-- A word that means nothing. -/
  | unknown (keyword : String)
  deriving DecidableEq, Repr

end NoteVault.Query
