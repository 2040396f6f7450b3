import NoteVault.Distinct
import NoteVault.Json.Parser

/-!
The files that the host application remembers: bookmarks, which may stand in groups, and the files
that were open last. Broken text counts as empty.
-/

namespace NoteVault

open Json

/-- A bookmark, or a group of them. -/
inductive Bookmark where
  | mk (kind : String) (path : Option String) (items : List Bookmark)

namespace Bookmark

/-- The greatest depth of arrays and objects that are read. -/
def greatestDepth : Nat := 127

/-- The values of the fields of a structure. It is written as an object, in which no field may
occur twice and other members are passed over, or as an array of its fields, which may end early
but not late. -/
def fields? (names : List String) : Node → Option (List (Option Node))
  | .array items =>
    if items.length ≤ names.length then
      some (items.map some ++ List.replicate (names.length - items.length) none)
    else none
  | .object members =>
    if members.any (·.1.isNone) then none
    else
      names.mapM fun name =>
        match members.filter (·.1 == some name) with
        | [] => some none
        | [(_, v)] => some (some v)
        | _ => none
  | _ => none

/-- The text of a string. -/
def text? : Node → Option String
  | .string s => s
  | _ => none

/-- A path, which may be missing. -/
def path? : Option Node → Option (Option String)
  | none => some none
  | some .null => some none
  | some v => (text? v).map some

mutual

/-- Reads a bookmark with at most `depth` arrays and objects inside each other. -/
def ofNode? : Nat → Node → Option Bookmark
  | 0, _ => none
  | depth + 1, node =>
    match fields? ["type", "path", "items"] node with
    | some [some kind, path, items] =>
      match text? kind, path? path, itemsOf? depth items with
      | some kind, some path, some items => some (.mk kind path items)
      | _, _, _ => none
    | _ => none

/-- Reads the items of a group, which may be missing. -/
def itemsOf? : Nat → Option Node → Option (List Bookmark)
  | _, none => some []
  | 0, some _ => none
  | depth + 1, some (.array items) => items.mapM (ofNode? depth)
  | _ + 1, some _ => none

end

mutual

/-- The number of items of a bookmark, itself included. -/
def count : Bookmark → Nat
  | .mk _ _ items => countAll items + 1

/-- The number of items of several bookmarks. -/
def countAll : List Bookmark → Nat
  | [] => 0
  | b :: bs => b.count + countAll bs

end

theorem countAll_append (as bs : List Bookmark) :
    countAll (as ++ bs) = countAll as + countAll bs := by
  induction as with
  | nil => simp [countAll]
  | cons a as ih => simp [countAll, ih, Nat.add_assoc]

/-- Collects the paths of files from a stack of bookmarks, each path once. The items of a group go
on top of the stack; other bookmarks are passed over. -/
def collect (stack : List Bookmark) (found : List String) : List String :=
  match stack with
  | [] => found
  | .mk kind path items :: rest =>
    match kind, path with
    | "file", some p => collect rest (addNew found p)
    | "group", _ => collect (items ++ rest) found
    | _, _ => collect rest found
termination_by countAll stack
decreasing_by all_goals simp [countAll, countAll_append, count]; try omega

end Bookmark

/-- The bookmarks that a text holds. -/
def bookmarksOf? (text : String) : Option (List Bookmark) := do
  match ← Bookmark.fields? ["items"] (← Json.parse? text) with
  | [items] => Bookmark.itemsOf? (Bookmark.greatestDepth - 1) items
  | _ => none

/-- The bookmarked files of a text, depth first, each once. -/
def bookmarkedPaths (text : String) : List String :=
  match bookmarksOf? text with
  | some items => Bookmark.collect items []
  | none => []

/-- The texts of an array of strings, which may be missing. -/
def stringsOf? : Option Node → Option (List String)
  | none => some []
  | some (.array items) => items.mapM Bookmark.text?
  | some _ => none

/-- The files of a text that were open last, the latest first. -/
def lastOpenedPaths (text : String) : List String :=
  match Json.parse? text with
  | none => []
  | some node =>
    match Bookmark.fields? ["lastOpenFiles"] node with
    | some [files] => (stringsOf? files).getD []
    | _ => []

end NoteVault
