import NoteVault.Vault.Disk

/-!
Vaults on a disk: opening one, and telling the paths inside it from others.
-/

namespace NoteVault

open Text

/-- A vault that has been opened, by the names that lead to its folder without links. -/
structure Vault where
  root : List String
  deriving DecidableEq, Repr

namespace Vault

/-- The path of a vault. -/
def rootPath (vault : Vault) : String := absolutePath vault.root

/-- Opens the folder that a path leads to as a vault. -/
def openAt (disk : DiskNode) (path : String) : Except Fault Vault :=
  match disk.resolve path with
  | .error _ => .error (.vaultNotFound path)
  | .ok names =>
    if (disk.at? names).any DiskNode.isFolder then .ok ⟨names⟩ else .error (.vaultNotFound path)

/-- Drops slashes and single dots in front of the next name of a path. -/
def skipGaps : List Char → List Char
  | '/' :: cs => skipGaps cs
  | ['.'] => []
  | '.' :: '/' :: cs => skipGaps cs
  | cs => cs

/-- Drops slashes and single dots behind the last name of a path. -/
def dropEndGaps (cs : List Char) : List Char := (skipGaps cs.reverse).reverse

/-- The rest of a path behind names that it begins with. -/
def stripNames? : List String → List Char → Option (List Char)
  | [], cs => some (skipGaps cs)
  | name :: names, cs =>
    let here := skipGaps cs
    if here.takeWhile (· ≠ '/') = name.toList then
      stripNames? names (here.dropWhile (· ≠ '/'))
    else none

/-- The part of a path below the root of a vault; `none` for a path elsewhere. -/
def below? (vault : Vault) (path : String) : Option (List Char) :=
  if isAbsolute path then (stripNames? vault.root path.toList).map dropEndGaps else none

/-- The path inside a vault of a path on the disk. -/
def relative (vault : Vault) (path : String) : Except Fault String :=
  match vault.below? path with
  | none => .error (.outsideVault path)
  | some rest =>
    match vaultPath (String.ofList rest) with
    | .ok inside => .ok inside
    | .error fault => .error (.invalidVaultPath fault)

end Vault

end NoteVault
