import ResilientCalls.Numeric.Decimal

/-!
# The fewest digits that read back

A positive finite number is written with the fewest decimal digits whose
numeral rounds to it, and of two such numerals the one nearer to it. The
search walks the grids of one, two, … seventeen digits and looks at the
two grid points around the number; if any point of a grid reads back, one
of these two does.
-/

namespace ResilientCalls

/-- Which of two equally near numerals is chosen. -/
inductive TieRule where
  /-- The one whose last digit is even. -/
  | even
  /-- The greater one. -/
  | up
deriving DecidableEq

/-- The number `digits · 10^exponent`, where `digits` does not end in a
zero unless it is zero. -/
structure ShortDecimal where
  digits : Nat
  exponent : Int
deriving DecidableEq

namespace ShortDecimal

/-- Moves zeros at the end of the digits into the exponent, at most
`fuel` of them. -/
def strip : Nat → Nat → Int → ShortDecimal
  | 0, digits, exponent => ⟨digits, exponent⟩
  | fuel + 1, digits, exponent =>
    if digits ≠ 0 ∧ digits % 10 = 0 then strip fuel (digits / 10) (exponent + 1)
    else ⟨digits, exponent⟩

/-- The power of ten of the leading digit: `digits = 1.5, 9.99, …` times
this power. -/
def leading (d : ShortDecimal) : Int := d.exponent + decimalLength d.digits - 1

end ShortDecimal

namespace Magnitude

/-- The magnitude over `10^exponent`, as an exact ratio. -/
def ratio (m : Magnitude) (exponent : Int) : Nat × Nat :=
  if 0 ≤ exponent then (m.units, unitsPerOne * pow10 exponent.toNat)
  else (m.units * pow10 (-exponent).toNat, unitsPerOne)

/-- The power of ten of the leading digit of a positive magnitude. -/
def leading (m : Magnitude) : Int :=
  let (num, den) := m.ratio (-330)
  (decimalLength (num / den) : Int) - 331

/-- A numeral reads back when rounding it gives the magnitude again. -/
def readsBack (m : Magnitude) (digits : Nat) (exponent : Int) : Bool :=
  decide (Numeral.toBinary64 ⟨false, digits, exponent⟩ = .finite false m)

/-- The numeral on the grid of `10^exponent` that reads back and is nearer
to the magnitude, if one of the two grid points around it does. -/
def onGrid? (tie : TieRule) (m : Magnitude) (exponent : Int) : Option Nat :=
  let (num, den) := m.ratio exponent
  let below := num / den
  let rest := num % den
  match m.readsBack below exponent, m.readsBack (below + 1) exponent with
  | true, true =>
    if 2 * rest < den then some below
    else if den < 2 * rest then some (below + 1)
    else match tie with
      | .even => some (if below % 2 = 0 then below else below + 1)
      | .up => some (below + 1)
  | true, false => some below
  | false, true => some (below + 1)
  | false, false => none

/-- The first grid with a numeral that reads back, tried from `count`
digits on for `fuel` grids. -/
def firstGrid (tie : TieRule) (m : Magnitude) : Nat → Nat → ShortDecimal
  | 0, count => ⟨0, m.leading - count⟩
  | fuel + 1, count =>
    let exponent := m.leading - count + 1
    ((m.onGrid? tie exponent).map (.strip 18 · exponent)).getD
      (firstGrid tie m fuel (count + 1))

/-- **The shortest decimal of a magnitude.** Seventeen digits always read
back. -/
def shortest (tie : TieRule) (m : Magnitude) : ShortDecimal :=
  if m.units = 0 then ⟨0, 0⟩ else firstGrid tie m 17 1

end Magnitude

end ResilientCalls
