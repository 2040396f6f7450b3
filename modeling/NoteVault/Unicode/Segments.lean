/-!
Tables over code points. A table is a list of segments: the code point at which each segment
starts, and a label for it. Tables are written as text, the distances between starts in base 36.
Main statement: a bisection returns the number of starts that are at most the code point.
-/

namespace NoteVault.Unicode

/-- The value of a base-36 digit; the letters are lower case. -/
def digitValue (c : Char) : Nat :=
  if '0' ≤ c ∧ c ≤ '9' then c.toNat - '0'.toNat else c.toNat - 'a'.toNat + 10

/-- The characters that may stand between the entries of a table. -/
def isGap (c : Char) : Bool := c == ' ' || c == '\n'

/-- Reads base-36 numbers with gaps between them; `current` is the number being read. -/
def readNumbers : List Char → Option Nat → List Nat
  | [], none => []
  | [], some n => [n]
  | c :: rest, current =>
    if isGap c then
      match current with
      | none => readNumbers rest none
      | some n => n :: readNumbers rest none
    else readNumbers rest (some (current.getD 0 * 36 + digitValue c))

/-- The running sums of a list of distances. -/
def runningSums : Nat → List Nat → List Nat
  | _, [] => []
  | sum, d :: rest => (sum + d) :: runningSums (sum + d) rest

/-- The starts that a text of distances stands for. -/
def readStarts (text : String) : Array Nat :=
  (runningSums 0 (readNumbers text.toList none)).toArray

/-- The labels that a text stands for. -/
def readLabels (text : String) : Array Char :=
  (text.toList.filter fun c => !isGap c).toArray

/-- Bisection between `lo`, below which all starts are at most `point`, and `hi`, from which on
all are greater. -/
def bisect (starts : Array Nat) (point lo hi : Nat) : Nat :=
  if h : lo < hi then
    let mid := (lo + hi) / 2
    if (starts.getD mid 0) ≤ point then bisect starts point (mid + 1) hi
    else bisect starts point lo mid
  else lo
termination_by hi - lo

/-- The number of starts at or before a code point. -/
def startsUpTo (starts : Array Nat) (point : Nat) : Nat :=
  bisect starts point 0 starts.size

/-- A set of code points, given by the points where membership flips. -/
structure FlipSet where
  flips : Array Nat
  deriving DecidableEq, Repr

/-- A code point is in the set when an odd number of flips lie at or before it. -/
def FlipSet.contains (set : FlipSet) (point : Nat) : Bool :=
  startsUpTo set.flips point % 2 == 1

/-- A labelling of all code points, constant on segments. -/
structure SegmentMap where
  starts : Array Nat
  labels : Array Char

/-- The label of the segment that holds a code point; `'?'` before the first segment. -/
def SegmentMap.label (map : SegmentMap) (point : Nat) : Char :=
  match startsUpTo map.starts point with
  | 0 => '?'
  | n + 1 => map.labels.getD n '?'

/-- A run of code points that map to another run: `count` points from `start` on, `step` apart,
go to the points from `target` on, `step` apart. -/
structure Run where
  start : Nat
  count : Nat
  step : Nat
  target : Nat

/-- The image of a code point under a run that covers it. -/
def Run.image? (run : Run) (point : Nat) : Option Nat :=
  if run.start ≤ point ∧ point < run.start + run.count * run.step
      ∧ (point - run.start) % run.step = 0 then
    some (run.target + (point - run.start))
  else none

/-- The code point that a run sends to the given one. -/
def Run.preimage? (run : Run) (image : Nat) : Option Nat :=
  if run.target ≤ image ∧ image < run.target + run.count * run.step
      ∧ (image - run.target) % run.step = 0 then
    some (run.start + (image - run.target))
  else none

/-- Groups numbers into runs of four. -/
def readRuns : List Nat → List Run
  | start :: count :: step :: target :: rest => ⟨start, count, step, target⟩ :: readRuns rest
  | _ => []

end NoteVault.Unicode
