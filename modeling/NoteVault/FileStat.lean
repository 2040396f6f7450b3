/-!
What the file system tells about a file.
-/

namespace NoteVault

/-- The size of a file and its times, in milliseconds since the start of 1970. -/
structure FileStat where
  size : Nat
  created : Option Int64
  modified : Option Int64
  deriving DecidableEq

namespace FileStat

/-- A file of which nothing is known. -/
def unknown : FileStat := ⟨0, none, none⟩

end FileStat

end NoteVault
