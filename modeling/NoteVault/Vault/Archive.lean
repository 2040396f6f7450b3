import NoteVault.Vault.Disk

/-!
Trees of files in tape archives: blocks of 512 bytes, a header for each file, folder or link, and
behind the header of a file its bytes. Headers of other kinds are passed over.
-/

namespace NoteVault

open Text

namespace Archive

/-- The number of bytes in a block. -/
def blockSize : Nat := 512

/-- A text that ends with its field or with a null byte. -/
def fieldText (bytes : ByteArray) (start length : Nat) : String :=
  let field := (bytes.extract start (start + length)).toList.takeWhile (· ≠ 0)
  (String.fromUTF8? ⟨field.toArray⟩).getD ""

/-- The number that octal digits write. -/
def octalValue (cs : List Char) : Nat :=
  (cs.filter Char.isDigit).foldl (fun n c => n * 8 + (c.toNat - '0'.toNat)) 0

/-- What a header tells. -/
structure Header where
  path : String
  size : Nat
  /-- The time of the last change, in seconds. -/
  modified : Nat
  kind : Char
  target : String
  deriving DecidableEq, Repr

/-- Reads the header that begins at a place; an archive ends where a block begins with a null
byte. -/
def header? (bytes : ByteArray) (start : Nat) : Option Header :=
  let name := fieldText bytes start 100
  let folder := fieldText bytes (start + 345) 155
  if name = "" then none
  else some
    { path := if folder = "" then name else folder ++ "/" ++ name
      size := octalValue (fieldText bytes (start + 124) 12).toList
      modified := octalValue (fieldText bytes (start + 136) 12).toList
      kind := ((fieldText bytes (start + 156) 1).toList.head?).getD '0'
      target := fieldText bytes (start + 157) 100 }

/-- The names of a path that lead somewhere. -/
def names (path : String) : List String :=
  (pathNames path).filter fun name => name ≠ "" ∧ name ≠ "."

/-- Adds what a header tells of, with the bytes behind it. -/
def add (header : Header) (content : ByteArray) (disk : DiskNode) : DiskNode :=
  let path := names header.path
  match header.kind with
  | '0' => DiskNode.put (.file content (Int64.ofNat (header.modified * 1000))) path disk
  | '5' => disk.makeFolder path
  | '2' => DiskNode.put (.link header.target) path disk
  | _ => disk

/-- Reads the blocks from a place on, at most `fuel` headers. -/
def readFrom (bytes : ByteArray) : Nat → Nat → DiskNode → DiskNode
  | 0, _, disk => disk
  | fuel + 1, start, disk =>
    match header? bytes start with
    | none => disk
    | some header =>
      let first := start + blockSize
      let blocks := (header.size + (blockSize - 1)) / blockSize
      readFrom bytes fuel (first + blocks * blockSize)
        (add header (bytes.extract first (first + header.size)) disk)

end Archive

/-- The tree of files in an archive. -/
def DiskNode.ofArchive (bytes : ByteArray) : DiskNode :=
  Archive.readFrom bytes (bytes.size / Archive.blockSize) 0 .emptyFolder

end NoteVault
