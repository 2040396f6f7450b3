import NoteVault.Text.Number

/-!
The shortest decimal that reads back as a given binary fraction. A finite number is `m * 2 ^ q`;
the decimals that read back as it are those of an interval around it, and among the shortest of
these the nearest is taken.
-/

namespace NoteVault.Decimal

open Text

/-- A positive binary fraction `mantissa * 2 ^ exponent`; `narrowBelow` tells that the next
smaller number of the format is only half as far away as the next greater one. -/
structure Binary where
  mantissa : Nat
  exponent : Int
  narrowBelow : Bool

/-- A fraction of naturals. -/
structure Ratio where
  num : Nat
  den : Nat

/-- The fraction `n * base ^ e`. -/
def Ratio.scaled (n base : Nat) (e : Int) : Ratio :=
  if 0 ≤ e then ⟨n * base.pow e.toNat, 1⟩ else ⟨n, base.pow (-e).toNat⟩

/-- The order of fractions. -/
def Ratio.compare (a b : Ratio) : Ordering := Ord.compare (a.num * b.den) (b.num * a.den)

/-- The largest `k` with `10 ^ k` at most the given positive fraction. -/
def Ratio.decimalExponent (r : Ratio) : Int :=
  if r.den ≤ r.num then ((decimal (r.num / r.den)).length : Int) - 1
  else
    let width := (decimal (r.den / r.num)).length
    if r.den ≤ r.num * Nat.pow 10 (width - 1) then 1 - (width : Int) else -(width : Int)

/-- The value of a binary fraction. -/
def Binary.value (b : Binary) : Ratio := .scaled b.mantissa 2 b.exponent

/-- Whether a decimal reads back as a binary fraction. The ends of the interval belong to it when
the mantissa is even. -/
def Binary.readsBack (b : Binary) (x : Ratio) : Bool :=
  let low := if b.narrowBelow then 4 * b.mantissa - 1 else 4 * b.mantissa - 2
  let below := (Ratio.scaled low 2 (b.exponent - 2)).compare x
  let above := x.compare (.scaled (4 * b.mantissa + 2) 2 (b.exponent - 2))
  let closed := b.mantissa % 2 == 0
  (below == .lt || (closed && below == .eq)) && (above == .lt || (closed && above == .eq))

/-- A decimal `digits * 10 ^ exponent`, by its digits. -/
structure Numeral where
  digits : Nat
  exponent : Int
  deriving DecidableEq, Repr

/-- The value of a decimal. -/
def Numeral.value (d : Numeral) : Ratio := .scaled d.digits 10 d.exponent

/-- The nearer one of two neighbouring decimals; of two equally near ones, that with an even last
digit. -/
def nearer (b : Binary) (low high : Numeral) : Numeral :=
  let middle := Numeral.mk (low.digits * 10 + 5) (low.exponent - 1)
  match b.value.compare middle.value with
  | .lt => low
  | .gt => high
  | .eq => if low.digits % 2 = 0 then low else high

/-- The decimals next to a binary fraction among those whose last digit stands for
`10 ^ exponent`. -/
def neighbours (b : Binary) (exponent : Int) : Numeral × Numeral :=
  let v := b.value
  let unit := Ratio.scaled 1 10 exponent
  let digits := v.num * unit.den / (v.den * unit.num)
  (⟨digits, exponent⟩, ⟨digits + 1, exponent⟩)

/-- The nearest decimal with its last digit at a place, if it reads back. -/
def roundedAt? (b : Binary) (exponent : Int) : Option Numeral :=
  let (low, high) := neighbours b exponent
  match b.readsBack low.value, b.readsBack high.value with
  | true, true => some (nearer b low high)
  | true, false => some low
  | false, true => some high
  | false, false => none

/-- The first decimal that reads back, from the given place on and with one more place each
time. -/
def shortestFrom (b : Binary) : Nat → Int → Numeral
  | 0, exponent => (neighbours b exponent).1
  | more + 1, exponent => (roundedAt? b exponent).getD (shortestFrom b more (exponent - 1))

/-- The shortest decimal that reads back; seventeen digits are always enough. -/
def shortest (b : Binary) : Numeral := shortestFrom b 17 b.value.decimalExponent

end NoteVault.Decimal
