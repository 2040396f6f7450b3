import NoteVault.Fault
import NoteVault.NameMap

/-!
Trees of files: folders, files and symbolic links, with the rules by which a path leads to one of
them. A folder lists its members in the order of their names. Main statement: what a path leads to
is reached by names alone.
-/

namespace NoteVault

open Text

/-- A folder, a file or a link in a tree of files. -/
inductive DiskNode where
  /-- A file with the time of its last change. -/
  | file (bytes : ByteArray) (modified : Int64)
  | folder (members : List (String × DiskNode))
  /-- A symbolic link to another path. -/
  | link (target : String)

namespace DiskNode

/-- A folder without members. -/
def emptyFolder : DiskNode := .folder []

/-- The member of a folder with a given name. -/
def member? (node : DiskNode) (name : String) : Option DiskNode :=
  match node with
  | .folder members => members.lookup name
  | _ => none

/-- What names lead to, without following links. -/
def at? (node : DiskNode) : List String → Option DiskNode
  | [] => some node
  | name :: names =>
    match node.member? name with
    | some member => member.at? names
    | none => none

/-- Whether a node is a folder. -/
def isFolder : DiskNode → Bool
  | .folder _ => true
  | _ => false

/-- The members of a folder. -/
def members : DiskNode → List (String × DiskNode)
  | .folder members => members
  | _ => []

/-- Puts a node where names lead to. Folders on the way are made, and what stands in their place
goes. -/
def put (new : DiskNode) : List String → DiskNode → DiskNode
  | [], _ => new
  | name :: names, node =>
    .folder (NameMap.alterList name (fun old => put new names (old.getD emptyFolder)) node.members)

/-- Takes away what names lead to. -/
def remove : List String → DiskNode → DiskNode
  | [], node => node
  | [name], .folder members => .folder (members.filter fun m => m.1 ≠ name)
  | name :: names, .folder members =>
    .folder (members.map fun m => if m.1 = name then (m.1, remove names m.2) else m)
  | _, node => node

/-- Makes a folder where names lead to, unless something is there. -/
def makeFolder (names : List String) (node : DiskNode) : DiskNode :=
  if (node.at? names).isSome then node else put emptyFolder names node

/-- Moves what names lead to. -/
def move (source target : List String) (node : DiskNode) : DiskNode :=
  match node.at? source with
  | some moved => put moved target (remove source node)
  | none => node

end DiskNode

/-- The names between the slashes of a path; two slashes have an empty name between them. -/
def pathNames (path : String) : List String := (pieces '/' path.toList).map String.ofList

/-- Whether a path starts from the root of the tree. -/
def isAbsolute (path : String) : Bool := path.toList.head? == some '/'

/-- A path below a folder; an absolute path stands for itself. -/
def joinPath (folder path : String) : String :=
  if isAbsolute path ∨ folder = "" then path
  else if folder.toList.getLast? = some '/' then folder ++ path
  else folder ++ "/" ++ path

/-- The path that names lead along from the root. -/
def absolutePath (names : List String) : String := "/" ++ joinWith "/" names

namespace DiskNode

/-- The number of links that may stand on the way of a path. -/
def greatestLinks : Nat := 40

/-- Follows the names of a path from a place, and returns the place it leads to, named without
links. -/
def follow (root : DiskNode) (links : Nat) (here : List String) :
    List String → Except ReadFault (List String)
  | [] => .ok here
  | step :: steps =>
    match root.at? here with
    | some (.folder members) =>
      if step = "" ∨ step = "." then follow root links here steps
      else if step = ".." then follow root links here.dropLast steps
      else
        match members.lookup step with
        | none => .error .missing
        | some (.link target) =>
          match links with
          | 0 => .error .linkLoop
          | links + 1 =>
            follow root links (if isAbsolute target then [] else here) (pathNames target ++ steps)
        | some _ => follow root links (here ++ [step]) steps
    | some _ => .error .notFolder
    | none => .error .missing
termination_by steps => (links, steps.length)

/-- The place that a path leads to. A path that is not absolute leads nowhere. -/
def resolve (root : DiskNode) (path : String) : Except ReadFault (List String) :=
  if isAbsolute path then follow root greatestLinks [] (pathNames path) else .error .missing

/-- Reads the text of the file that a path leads to. -/
def readText (root : DiskNode) (path : String) : Except ReadFault String :=
  match root.resolve path with
  | .error fault => .error fault
  | .ok names =>
    match root.at? names with
    | some (.file bytes _) =>
      match String.fromUTF8? bytes with
      | some text => .ok text
      | none => .error .notText
    | some _ => .error .isFolder
    | none => .error .missing

end DiskNode

end NoteVault
