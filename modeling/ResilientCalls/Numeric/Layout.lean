import ResilientCalls.Numeric.Shortest

/-!
# Writing binary64 numbers

Three layouts of the shortest decimal. The plain layout never uses an
exponent and drops the point of a whole number. The data layout always
shows that the number is not an integer: with a point, or with an exponent
once the number leaves the range from `10^-5` up to `10^16`. The log
layout does so too, with a range from `10^-4` up to `10^16` and no plus
sign before an exponent.
-/

namespace ResilientCalls

/-- `count` zeros. -/
def zeros (count : Nat) : String := String.ofList (List.replicate count '0')

namespace ShortDecimal

/-- Positional notation; `whole` is what follows the digits of a whole
number. -/
def positional (whole : String) (d : ShortDecimal) : String :=
  let text := toString d.digits
  if 0 ≤ d.exponent then text ++ zeros d.exponent.toNat ++ whole
  else
    let places := (-d.exponent).toNat
    let padded := zeros (places + 1 - text.length) ++ text
    let cut := padded.length - places
    String.ofList (padded.toList.take cut) ++ "." ++ String.ofList (padded.toList.drop cut)

/-- One digit before the point, and an exponent; `plus` is the sign of one
that is not negative. -/
def scientific (plus : String) (d : ShortDecimal) : String :=
  let digits := (toString d.digits).toList
  let fraction := digits.drop 1
  let mantissa := String.ofList (digits.take 1) ++
    (if fraction.isEmpty then "" else "." ++ String.ofList fraction)
  let power := d.leading
  mantissa ++ "e" ++ (if power < 0 then "-" else plus) ++ toString power.natAbs

end ShortDecimal

namespace Binary64

/-- The sign of a negative number. -/
def signText (negative : Bool) : String := if negative then "-" else ""

/-- **The plain layout:** `1`, `0.5`, `-0`, `NaN`, `inf`; no exponent at
any size, and of two equally near decimals the greater. -/
def plainText : Binary64 → String
  | .nan => "NaN"
  | .infinite negative => signText negative ++ "inf"
  | .finite negative m => signText negative ++ (m.shortest .up).positional ""

/-- **The data layout:** `1.0`, `0.5`, `-0.0`, `1e+16`, `1.5e-7`; of two
equally near decimals the even one. -/
def dataText : Binary64 → String
  | .nan => "nan"
  | .infinite negative => signText negative ++ "inf"
  | .finite negative m =>
    let d := m.shortest .even
    signText negative ++
      (if m.units = 0 || (decide (-5 ≤ d.leading) && decide (d.leading ≤ 15)) then
        d.positional ".0"
      else d.scientific "+")

/-- **The log layout:** `1.0`, `0.5`, `-0.0`, `1e16`, `1.5e-7`, `NaN`; of
two equally near decimals the greater. -/
def logText : Binary64 → String
  | .nan => "NaN"
  | .infinite negative => signText negative ++ "inf"
  | .finite negative m =>
    let d := m.shortest .up
    signText negative ++
      (if m.units = 0 || (decide (-4 ≤ d.leading) && decide (d.leading ≤ 15)) then
        d.positional ".0"
      else d.scientific "")

end Binary64

end ResilientCalls
