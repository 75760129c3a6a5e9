import ResilientCalls.Numeric.Decimal
import ResilientCalls.Document.Node
import ResilientCalls.Time.Duration

/-!
# Numbers in JSON

A number without a fraction and an exponent is an integer if it fits a
64-bit word, signed or unsigned; `-0` is the negative zero. Any other
number is read from the digits that fit a 64-bit word, later digits
counting only by their places: the word is rounded to binary64 and then
scaled by a power of ten, with a rounding in every step.
-/

namespace ResilientCalls

namespace Json

/-- The parts of a number's text. -/
structure NumberText where
  negative : Bool
  whole : List Char
  fraction : List Char
  /-- The exponent, if one is written. -/
  exponent : Option Int
deriving DecidableEq

namespace NumberText

/-- A whole part: one zero, or digits that do not begin with zero. -/
def wholeOk : List Char → Bool
  | [] => false
  | ['0'] => true
  | c :: rest => c != '0' && (c :: rest).all Char.isDigit

/-- What follows the digits: nothing, or an exponent with a digit. -/
def exponent? : List Char → Option (Option Int)
  | [] => some none
  | c :: rest =>
    if c = 'e' || c = 'E' then (Numeral.readInt? rest).map some else none

/-- The parts of a number, if the text is one. -/
def ofChars? (cs : List Char) : Option NumberText :=
  let (negative, body) := match cs with
    | '-' :: rest => (true, rest)
    | rest => (false, rest)
  let whole := body.takeWhile Char.isDigit
  if !wholeOk whole then none
  else match body.dropWhile Char.isDigit with
    | '.' :: rest =>
      let fraction := rest.takeWhile Char.isDigit
      if fraction.isEmpty then none
      else (exponent? (rest.dropWhile Char.isDigit)).map (⟨negative, whole, fraction, ·⟩)
    | rest => (exponent? rest).map (⟨negative, whole, [], ·⟩)

/-- The digits that fit a 64-bit word on top of `word`, and the digits
that are left. -/
def fill (word : Nat) : List Char → Nat × List Char
  | [] => (word, [])
  | c :: rest =>
    let next := word * 10 + (c.toNat - 48)
    if next ≤ maxCount64 then fill next rest else (word, c :: rest)

/-- The power of ten by which one step can scale. -/
def stepPower : Nat := 308

/-- A number scaled by a power of ten, in steps of at most `10^308` and at
most `fuel` of them; none when it leaves the range. -/
def scaleReal : Nat → Binary64 → Int → Option Binary64
  | 0, x, _ => some x
  | fuel + 1, x, exponent =>
    if exponent.natAbs ≤ stepPower then
      let power := Binary64.ofNat (pow10 exponent.natAbs)
      if 0 ≤ exponent then
        let y := x.mul power
        if y.isFinite then some y else none
      else some (x.div power)
    else if x.isZero then some x
    else if 0 ≤ exponent then none
    else scaleReal fuel (x.div (Binary64.ofNat (pow10 stepPower))) (exponent + stepPower)

/-- The real that a number's text names; none when it is out of range. -/
def toReal? (t : NumberText) : Option Binary64 :=
  let (word, skipped) := fill 0 t.whole
  let (word, unused) := fill word t.fraction
  let places : Int := skipped.length - (t.fraction.length - unused.length : Nat)
  (scaleReal 6 (.ofNat word) (places + t.exponent.getD 0)).map fun x =>
    if t.negative then x.neg else x

/-- The node of a number's text. -/
def toNode (t : NumberText) : Node :=
  let value := digitsValue t.whole
  let asReal := match t.toReal? with
    | some x => .real x
    | none => .unusable
  if t.fraction.isEmpty && t.exponent.isNone then
    if !t.negative && value ≤ maxCount64 then .integer value
    else if t.negative && value != 0 && value ≤ 9223372036854775808 then .integer (-value)
    else asReal
  else asReal

end NumberText

end Json

end ResilientCalls
