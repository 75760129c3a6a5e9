import ResilientCalls.Numeric.Binary64

/-!
# Decimal numerals

A numeral is a sign, a whole number of digits and a power of ten. It is
read from text and rounded once to binary64. The text's grammar is the
usual one: an optional sign, digits with an optional point, and an
optional exponent.
-/

namespace ResilientCalls

/-- The number `±digits · 10^exponent`. -/
structure Numeral where
  negative : Bool
  digits : Nat
  exponent : Int
deriving DecidableEq

/-- The value of a run of decimal digits. -/
def digitsValue (cs : List Char) : Nat :=
  cs.foldl (fun n c => n * 10 + (c.toNat - 48)) 0

/-- How many decimal digits a positive number has; one for zero. -/
def decimalLength (n : Nat) : Nat := (Nat.toDigits 10 n).length

namespace Numeral

/-- **One rounding from decimal to binary64.** A numeral whose leading
digit stands beyond `10^310` or below `10^-330` is out of reach of every
finite and every positive number, and is settled without computing the
power. -/
def toBinary64 (n : Numeral) : Binary64 :=
  let leading : Int := n.exponent + decimalLength n.digits
  if n.digits = 0 then .finite n.negative .zero
  else if 310 < leading then .infinite n.negative
  else if leading < -330 then .finite n.negative .zero
  else if 0 ≤ n.exponent then
    .ofUnits n.negative (n.digits * pow10 n.exponent.toNat * unitsPerOne) 1
  else .ofUnits n.negative (n.digits * unitsPerOne) (pow10 (-n.exponent).toNat)

/-- A sign, if there is one, and the rest. -/
def splitSign : List Char → Bool × List Char
  | '-' :: rest => (true, rest)
  | '+' :: rest => (false, rest)
  | rest => (false, rest)

/-- A whole number with an optional sign and at least one digit. -/
def readInt? (cs : List Char) : Option Int :=
  let (negative, digits) := splitSign cs
  if digits.isEmpty || !digits.all Char.isDigit then none
  else some (if negative then -(digitsValue digits : Int) else (digitsValue digits : Int))

/-- The exponent after a mantissa: nothing, or `e` and a whole number. -/
def readExponent? : List Char → Option Int
  | [] => some 0
  | c :: rest => if c = 'e' || c = 'E' then readInt? rest else none

/-- A numeral with at least one digit in its mantissa. -/
def read? (cs : List Char) : Option Numeral :=
  let (negative, body) := splitSign cs
  let whole := body.takeWhile Char.isDigit
  let afterWhole := body.dropWhile Char.isDigit
  let (fraction, tail) :=
    match afterWhole with
    | '.' :: rest => (rest.takeWhile Char.isDigit, rest.dropWhile Char.isDigit)
    | rest => ([], rest)
  if whole.isEmpty && fraction.isEmpty then none
  else
    (readExponent? tail).map fun e =>
      ⟨negative, digitsValue (whole ++ fraction), e - fraction.length⟩

end Numeral

namespace Binary64

/-- The number that a text names: a numeral, or the words for an infinity
and for not-a-number in any case of letters. -/
def read? (text : String) : Option Binary64 :=
  let (negative, body) := Numeral.splitSign text.toList
  let word := String.ofList (body.map Char.toLower)
  if word = "inf" || word = "infinity" then some (.infinite negative)
  else if word = "nan" then some .nan
  else (Numeral.read? text.toList).map Numeral.toBinary64

end Binary64

end ResilientCalls
