import NoteVault.Digest.Sha256
import NoteVault.Exclusion
import NoteVault.Json.Value
import NoteVault.Snapshot.Basic

/-!
Fingerprints: a digest of the entries of a snapshot, with the times of its files, and of the rules
that hide files. What is digested is a list of bytes in which every field of variable length comes
behind its length, so that it tells its parts apart.
-/

namespace NoteVault

open Digest

namespace Fingerprint

/-- The low eight bytes of a number, the lowest first. -/
def wordBytes (n : Nat) : List UInt8 := (List.range 8).map fun i => UInt8.ofNat (n >>> (8 * i))

/-- The bytes of a text. -/
def textBytes (text : String) : List UInt8 := text.toUTF8.data.toList

/-- Bytes behind their number. -/
def field (bytes : List UInt8) : List UInt8 := wordBytes bytes.length ++ bytes

/-- The byte of an ASCII character. -/
def mark (c : Char) : UInt8 := UInt8.ofNat c.toNat

/-- A time in eight bytes behind a mark; a missing time has a mark of its own. -/
def timeBytes : Option Int64 → List UInt8
  | some ms => mark 'M' :: wordBytes ms.toUInt64.toNat
  | none => [mark '-']

/-- The bytes of an entry; the first one tells files from folders. -/
def entryBytes : SnapshotEntry → List UInt8
  | .file path stat => mark 'F' :: field (textBytes path) ++ timeBytes stat.modified
  | .folder path => mark 'D' :: field (textBytes path)

/-- The bytes of a set of names. -/
def setBytes (names : NameSet) : List UInt8 :=
  textBytes (String.ofList (Json.stringsText names.keys))

/-- The bytes of the rules that hide files. -/
def exclusionBytes (rules : Exclusion) : List UInt8 :=
  mark 'X' :: field (setBytes rules.extensions) ++ field (setBytes rules.folders)

/-- All that is digested. -/
def bytes (snapshot : Snapshot) (rules : Exclusion) : List UInt8 :=
  snapshot.entries.flatMap entryBytes ++ exclusionBytes rules

end Fingerprint

/-- The digest of a snapshot and of the rules that hide files. -/
def fingerprint (snapshot : Snapshot) (rules : Exclusion) : List UInt8 :=
  sha256 (Fingerprint.bytes snapshot rules)

end NoteVault
