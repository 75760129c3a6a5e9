import ResilientCalls.Numeric.Rounding

/-!
# Binary64 numbers

A binary64 number is not-a-number, an infinity, or a sign with a
representable magnitude. Every operation computes the exact result and
rounds it once to the nearest representable number, ties to even, with
overflow to infinity. The magnitude counts units of `2^-1074`, so the
exact results are ratios of naturals and nothing here is approximate.
-/

namespace ResilientCalls

/-- A finite magnitude, in units of `2^-1074`. -/
structure Magnitude where
  units : Nat
  representable : Representable units
deriving DecidableEq

namespace Magnitude

/-- A whole number of units of at most 53 bits is representable. -/
theorem representable_of_lt {n : Nat} (h : n < pow2 53) : Representable n :=
  ⟨Nat.lt_trans h pow2_53_lt_unitsLimit, n, 0, h, by simp [pow2]⟩

/-- The magnitude zero. -/
def zero : Magnitude := ⟨0, representable_of_lt (Nat.pow_pos (by decide))⟩

/-- The magnitude nearest to `num / den` units, or none past the range. -/
def nearest? (num den : Nat) : Option Magnitude :=
  if h : nearestUnits num den < unitsLimit then
    some ⟨nearestUnits num den, representable_nearestUnits h⟩
  else none

/-- The exponent field and fraction of the encoding, as one number: below
`2^52` units the units themselves, above it one step of `2^52` for each
doubling of the spacing. -/
def encoding (m : Magnitude) : Nat :=
  if m.units < pow2 52 then m.units
  else
    let doublings := m.units.log2 - 52
    doublings * pow2 52 + m.units / pow2 doublings

end Magnitude

/-- A binary64 number. -/
inductive Binary64 where
  /-- Not a number. -/
  | nan
  /-- Infinity, with its sign. -/
  | infinite (negative : Bool)
  /-- A finite number; zero carries a sign too. -/
  | finite (negative : Bool) (magnitude : Magnitude)
deriving DecidableEq

namespace Binary64

/-- The number nearest to `num / den` units, with the given sign. -/
def ofUnits (negative : Bool) (num den : Nat) : Binary64 :=
  match Magnitude.nearest? num den with
  | some m => .finite negative m
  | none => .infinite negative

/-- Positive zero. -/
def zero : Binary64 := .finite false .zero

/-- The number nearest to a natural number. -/
def ofNat (n : Nat) : Binary64 := ofUnits false (n * unitsPerOne) 1

/-- The number nearest to an integer. -/
def ofInt (n : Int) : Binary64 := ofUnits (decide (n < 0)) (n.natAbs * unitsPerOne) 1

/-- The number one. -/
def one : Binary64 := ofNat 1

/-! ## Order

Every number but not-a-number has a place among the integers: its signed
count of units, with the infinities just past the range. -/

/-- The place of a number in the order; not-a-number has none. -/
def place? : Binary64 → Option Int
  | .nan => none
  | .infinite negative => some (if negative then -(unitsLimit : Int) else (unitsLimit : Int))
  | .finite negative m => some (if negative then -(m.units : Int) else (m.units : Int))

/-- Strictly below; false when either side is not a number. -/
def lt (a b : Binary64) : Bool :=
  match a.place?, b.place? with
  | some x, some y => decide (x < y)
  | _, _ => false

/-- At most; false when either side is not a number. -/
def le (a b : Binary64) : Bool :=
  match a.place?, b.place? with
  | some x, some y => decide (x ≤ y)
  | _, _ => false

/-- A number other than an infinity or not-a-number. -/
def isFinite : Binary64 → Bool
  | .finite _ _ => true
  | _ => false

/-- A zero of either sign. -/
def isZero : Binary64 → Bool
  | .finite _ m => m.units == 0
  | _ => false

/-! ## Arithmetic -/

/-- The number with the opposite sign. -/
def neg : Binary64 → Binary64
  | .nan => .nan
  | .infinite negative => .infinite (!negative)
  | .finite negative m => .finite (!negative) m

/-- The product, rounded once. -/
def mul : Binary64 → Binary64 → Binary64
  | .nan, _ => .nan
  | _, .nan => .nan
  | .infinite s, .infinite t => .infinite (s != t)
  | .infinite s, .finite t m => if m.units = 0 then .nan else .infinite (s != t)
  | .finite s m, .infinite t => if m.units = 0 then .nan else .infinite (s != t)
  | .finite s m, .finite t n => ofUnits (s != t) (m.units * n.units) unitsPerOne

/-- The quotient, rounded once. -/
def div : Binary64 → Binary64 → Binary64
  | .nan, _ => .nan
  | _, .nan => .nan
  | .infinite _, .infinite _ => .nan
  | .infinite s, .finite t _ => .infinite (s != t)
  | .finite s _, .infinite t => .finite (s != t) .zero
  | .finite s m, .finite t n =>
    if n.units = 0 then (if m.units = 0 then .nan else .infinite (s != t))
    else ofUnits (s != t) (m.units * unitsPerOne) n.units

/-- The sum, rounded once. Opposite numbers add up to positive zero. -/
def add : Binary64 → Binary64 → Binary64
  | .nan, _ => .nan
  | _, .nan => .nan
  | .infinite s, .infinite t => if s = t then .infinite s else .nan
  | .infinite s, .finite _ _ => .infinite s
  | .finite _ _, .infinite t => .infinite t
  | .finite s m, .finite t n =>
    if s = t then ofUnits s (m.units + n.units) 1
    else if n.units < m.units then ofUnits s (m.units - n.units) 1
    else if m.units < n.units then ofUnits t (n.units - m.units) 1
    else zero

/-- The difference, rounded once. -/
def sub (a b : Binary64) : Binary64 := add a b.neg

/-- Powers by repeated squaring: `squarings` further squarings of `base`
remain, and `acc` holds the product of the powers already chosen by the
bits of the exponent. -/
def powLoop : Nat → Binary64 → Binary64 → Nat → Binary64
  | 0, acc, base, exponent => if exponent % 2 = 1 then acc.mul base else acc
  | squarings + 1, acc, base, exponent =>
    powLoop squarings (if exponent % 2 = 1 then acc.mul base else acc) (base.mul base)
      (exponent / 2)

/-- `base` to the power `exponent`, with one rounding for each squaring
and each product. -/
def pow (base : Binary64) (exponent : Nat) : Binary64 :=
  powLoop exponent.log2 one base exponent

/-- The whole part, cut at zero below and at `limit` above; zero for
not-a-number. -/
def truncate (limit : Nat) : Binary64 → Nat
  | .nan => 0
  | .infinite negative => if negative then 0 else limit
  | .finite negative m => if negative then 0 else min (m.units / unitsPerOne) limit

/-! ## Encoding -/

/-- The 64-bit encoding; not-a-number has many, and none is chosen. -/
def bits? : Binary64 → Option Nat
  | .nan => none
  | .infinite negative => some ((if negative then pow2 63 else 0) + 2047 * pow2 52)
  | .finite negative m => some ((if negative then pow2 63 else 0) + m.encoding)

end Binary64

end ResilientCalls
