import ResilientCalls.Numeric.Rounding

/-!
# Request ids

A request that must not be carried out twice has an id: a random 128-bit
number in the hyphenated form, whose version digit is `4` and whose
variant digit is one of `8`, `9`, `a` and `b`. The random bits are an
argument.
-/

namespace ResilientCalls

namespace RequestId

/-- The last `count` hexadecimal digits of a number. -/
def hex : Nat → Nat → List Char
  | 0, _ => []
  | count + 1, n => hex count (n / 16) ++ [Nat.digitChar (n % 16)]

/-- The id of 122 random bits: 48, 12 and 62 of them around the version
and the variant. -/
def ofRandom (bits : Nat) : String :=
  let high := bits / pow2 74
  let middle := bits / pow2 62 % pow2 12
  let low := bits % pow2 62 + pow2 63
  String.ofList
    (hex 8 (high / pow2 16) ++ ['-'] ++ hex 4 (high % pow2 16) ++ ['-', '4'] ++ hex 3 middle ++
      ['-'] ++ hex 4 (low / pow2 48) ++ ['-'] ++ hex 12 (low % pow2 48))

/-- A lower-case hexadecimal digit. -/
def isHex (c : Char) : Bool := c.isDigit || (decide ('a' ≤ c) && decide (c ≤ 'f'))

/-- The form of an id. -/
def wellFormed (id : String) : Bool :=
  let cs := id.toList
  let places := cs.zipIdx
  cs.length == 36 &&
    places.all (fun (c, i) =>
      if i == 8 || i == 13 || i == 18 || i == 23 then c == '-'
      else if i == 14 then c == '4'
      else if i == 19 then c == '8' || c == '9' || c == 'a' || c == 'b'
      else isHex c)

end RequestId

end ResilientCalls
