import NoteVault.Fault

/-!
Cutting a list into pages. Pages have numbers from one; a number beyond the pages means the nearest
page.
-/

namespace NoteVault.Query

/-- A page of a list. -/
structure Page (α : Type) where
  items : List α
  number : Nat
  totalPages : Nat
  totalItems : Nat
  deriving DecidableEq, Repr

namespace Page

/-- The number of pages of a given size that hold a number of items. -/
def count (items size : Nat) : Nat := items / size + if items % size = 0 then 0 else 1

/-- The nearest page to the one asked for; an empty list has an empty first page. -/
def nearest (pages wanted : Nat) : Nat := max 1 (min wanted (max 1 pages))

/-- The place where a page begins. -/
def start (number size : Nat) : Nat := (number - 1) * size

/-- The place where a page ends. -/
def finish (number size items : Nat) : Nat := min (start number size + size) items

/-- The items from one place up to another. -/
def slice {α : Type} (items : List α) (first last : Nat) : List α :=
  (items.drop first).take (last - first)

/-- The page of a list with a given size and number. -/
def of {α : Type} (items : List α) (size wanted : Nat) : Except Fault (Page α) :=
  if size = 0 then .error .invalidPageSize
  else
    let pages := count items.length size
    let number := nearest pages wanted
    .ok
      { items := slice items (start number size) (finish number size items.length)
        number
        totalPages := pages
        totalItems := items.length }

end Page

end NoteVault.Query
