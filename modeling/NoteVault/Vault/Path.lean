import NoteVault.Text.Cut

/-!
Paths inside a vault: names with single slashes between them. Main statement: reading a path drops
empty and single-dot segments, and refuses what leaves the vault.
-/

namespace NoteVault

open Text

/-- Why a text is no path inside a vault. -/
inductive PathFault where
  /-- A segment goes up. -/
  | escapes (text : String)
  /-- The text begins with a slash. -/
  | absolute (text : String)
  /-- No segment is left. -/
  | empty
  deriving DecidableEq, Repr

namespace PathFault

/-- A fault in words. -/
def message : PathFault → String
  | .escapes text => text ++ " escapes the vault"
  | .absolute text => text ++ " is not vault-relative"
  | .empty => "empty path"

end PathFault

/-- The segments of a path that name something: all but the empty ones and single dots. -/
def segments (path : List Char) : List (List Char) :=
  (pieces '/' path).filter fun s => !s.isEmpty && s != ['.']

/-- Segments with single slashes between them. -/
def joinSegments : List (List Char) → List Char
  | [] => []
  | [s] => s
  | s :: ss => s ++ '/' :: joinSegments ss

/-- Collects the segments of a path, up to the first one that goes up. -/
def collectSegments (text : String) : List (List Char) → Except PathFault (List (List Char))
  | [] => .ok []
  | s :: ss =>
    if s = ['.', '.'] then .error (.escapes text)
    else
      match collectSegments text ss with
      | .ok rest => .ok (s :: rest)
      | .error fault => .error fault

/-- Reads a path inside a vault and writes it in its one form. -/
def vaultPath (text : String) : Except PathFault String :=
  match text.toList with
  | '/' :: _ => .error (.absolute text)
  | cs =>
    match collectSegments text (segments cs) with
    | .error fault => .error fault
    | .ok [] => .error .empty
    | .ok ss => .ok (String.ofList (joinSegments ss))

/-- Whether a segment of a path is one of the given names. -/
def hasSegmentIn (names : List String) (path : List Char) : Bool :=
  (segments path).any fun s => s != ['.', '.'] && names.contains (String.ofList s)

/-- The part of a path before its last slash, or nothing. -/
def parentFolder (path : String) : String :=
  match cutLast '/' path.toList with
  | some (dir, _) => String.ofList dir
  | none => ""

/-- The part of a path behind its last slash. -/
def fileName (path : String) : String :=
  match cutLast '/' path.toList with
  | some (_, name) => String.ofList name
  | none => path

/-- The folder of a file between slashes; a single slash where it has none. -/
def folderText (path : String) : String :=
  match cutLast '/' path.toList with
  | some (c :: dir, _) => String.ofList ('/' :: c :: dir ++ ['/'])
  | _ => "/"

end NoteVault
