import NoteVault.NameMap
import NoteVault.Unicode.Lowercase
import NoteVault.Vault.Path

/-!
Finding the file that a link means: by its path, beside the file that holds the link first, and
else by its name alone. Case does not count.
-/

namespace NoteVault

open Text Unicode

/-- The files that links can mean, by path, by name, and by the name of a note without its
extension, all in lower case. -/
structure LinkResolver where
  byPath : NameMap String
  byName : NameMap (List String)
  byStem : NameMap (List String)

namespace LinkResolver

/-- Knows no files. -/
def empty : LinkResolver := ⟨.empty, .empty, .empty⟩

/-- Adds a path at the end of the paths with a name. -/
def append (paths : NameMap (List String)) (name path : String) : NameMap (List String) :=
  paths.alter name fun known => known.getD [] ++ [path]

/-- The name of a note without its extension. -/
def stem? (name : String) : Option String :=
  (stripSuffix? ['.', 'm', 'd'] name.toList).map String.ofList

/-- Takes in a file. Of two paths that differ in case only, the later one is found. -/
def add (r : LinkResolver) (path : String) : LinkResolver where
  byPath := r.byPath.insert (lowercase path) path
  byName := append r.byName (lowercase (fileName path)) path
  byStem :=
    match stem? (fileName path) with
    | some stem => append r.byStem (lowercase stem) path
    | none => r.byStem

/-- Knows the files of a list. -/
def ofPaths (paths : List String) : LinkResolver := paths.foldl add empty

/-- Drops a text wherever it repeats in front. -/
def dropLeading (beginning : List Char) : List Char → List Char
  | [] => []
  | c :: cs =>
    if beginning.isPrefixOf (c :: cs) then dropLeading beginning (cs.drop (beginning.length - 1))
    else c :: cs
termination_by cs => cs.length
decreasing_by simp only [List.length_drop, List.length_cons]; omega

/-- What a link says, without blanks around it and without the marks of a path in front. -/
def bareReference (reference : List Char) : List Char :=
  dropLeading ['/'] (dropLeading ['.', '/'] (trim reference))

/-- The paths that a link may write out, in the order in which they are tried. -/
def exactPaths (reference sourceFolder : String) : List String :=
  (if sourceFolder = "" then []
    else [lowercase sourceFolder ++ "/" ++ reference,
      lowercase sourceFolder ++ "/" ++ reference ++ ".md"]) ++
    [reference ++ ".md", reference]

/-- Whether a path comes before another one as the shorter of the two, or as the first in order
where both are equally long. -/
def isNearer (a b : String) : Bool :=
  a.utf8ByteSize < b.utf8ByteSize || (a.utf8ByteSize == b.utf8ByteSize && decide (a < b))

/-- The nearest path of a list. -/
def nearest? : List String → Option String
  | [] => none
  | path :: paths => some (paths.foldl (fun best p => if isNearer p best then p else best) path)

/-- Picks one of several files with the same name: the one in the folder of the source, and else
the nearest. -/
def pick? (candidates : List String) (sourceFolder : String) : Option String :=
  match candidates.find? fun path => parentFolder path == sourceFolder with
  | some path => some path
  | none => nearest? candidates

/-- The file with a name, or else the note with that name before its extension. -/
def byName? (r : LinkResolver) (name sourceFolder : String) : Option String :=
  match (r.byName.find? name).or (r.byStem.find? name) with
  | some candidates => pick? candidates sourceFolder
  | none => none

/-- The file that a link in a source means. -/
def resolve? (r : LinkResolver) (reference source : String) : Option String :=
  match bareReference reference.toList with
  | [] => none
  | cs =>
    let name := String.ofList (lowercaseChars cs)
    let sourceFolder := parentFolder source
    match (exactPaths name sourceFolder).findSome? r.byPath.find? with
    | some path => some path
    | none => if cs.contains '/' then none else r.byName? name sourceFolder

end LinkResolver

end NoteVault
