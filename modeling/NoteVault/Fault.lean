import NoteVault.Vault.Path

/-!
What can go wrong, and how it is told.
-/

namespace NoteVault

/-- Why a text cannot be read from a path. -/
inductive ReadFault where
  /-- Nothing is there. -/
  | missing
  /-- A path goes on behind a file. -/
  | notFolder
  /-- A folder is there. -/
  | isFolder
  /-- Too many links stand on the way. -/
  | linkLoop
  /-- The bytes are no text. -/
  | notText
  deriving DecidableEq, Repr

namespace ReadFault

/-- A fault in words. -/
def message : ReadFault → String
  | .missing => "No such file or directory (os error 2)"
  | .notFolder => "Not a directory (os error 20)"
  | .isFolder => "Is a directory (os error 21)"
  | .linkLoop => "Too many levels of symbolic links (os error 40)"
  | .notText => "stream did not contain valid UTF-8"

end ReadFault

/-- What can go wrong. -/
inductive Fault where
  | vaultNotFound (path : String)
  | invalidVaultPath (fault : PathFault)
  | outsideVault (path : String)
  | unreadable (path : String) (fault : ReadFault)
  /-- The text of the settings has the wrong form. -/
  | badSettings
  | invalidPageSize
  | unknownSortColumn (name : String)
  | unknownTagOrder (name : String)
  | noSavedSearch (id : String)
  | noVault
  deriving DecidableEq, Repr

end NoteVault
