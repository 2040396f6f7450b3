/-!
Holding back values until they have been the last for a while. Time is given in milliseconds.
-/

namespace NoteVault

/-- A value that waits, and the time at which it is due. -/
structure Pending (α : Type) where
  value : α
  due : Nat
  deriving DecidableEq, Repr

/-- Values on their way: the time, the value that waits, and whether the input has ended. -/
structure Debouncer (α : Type) where
  window : Nat
  now : Nat
  pending : Option (Pending α)
  closed : Bool
  deriving DecidableEq, Repr

namespace Debouncer

variable {α : Type}

/-- What happens to values on their way. -/
inductive Step (α : Type) where
  | send (value : α)
  /-- Time passes. -/
  | advance (ms : Nat)
  /-- The input ends. -/
  | close
  deriving DecidableEq, Repr

/-- Before the first value. -/
def start (window : Nat) : Debouncer α := ⟨window, 0, none, false⟩

/-- Delivers the value that waits, if it is due. -/
def release (d : Debouncer α) : Debouncer α × List α :=
  match d.pending with
  | some p => if p.due ≤ d.now then ({ d with pending := none }, [p.value]) else (d, [])
  | none => (d, [])

/-- Takes a step, and tells what is delivered. A new value takes the place of the one that waits;
the end of the input delivers what waits at once, and nothing comes after it. -/
def step (d : Debouncer α) (s : Step α) : Debouncer α × List α :=
  if d.closed then
    match s with
    | .advance ms => ({ d with now := d.now + ms }, [])
    | _ => (d, [])
  else
    match s with
    | .send value => release { d with pending := some ⟨value, d.now + d.window⟩ }
    | .advance ms => release { d with now := d.now + ms }
    | .close =>
      ({ d with pending := none, closed := true }, (d.pending.map Pending.value).toList)

/-- Takes several steps; what each one delivers, and whether the output has ended after it. -/
def run (d : Debouncer α) : List (Step α) → List (List α × Bool)
  | [] => []
  | s :: steps =>
    let (d, delivered) := d.step s
    (delivered, d.closed) :: run d steps

end Debouncer

end NoteVault
