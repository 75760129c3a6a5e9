import ResilientCalls.Numeric.Decimal
import ResilientCalls.Document.Node

/-!
# Numbers, dates and times in TOML

A number, a date or a time is a run of characters that is taken as a
whole. Digits may be separated by single underscores. Integers are signed
64-bit numbers, also in the bases two, eight and sixteen. A date or a time
is only checked; it stands as a mapping of one entry, since nothing here
computes with it.
-/

namespace ResilientCalls

namespace Toml

/-- Digits of a kind, single underscores between them; the digits are
given without the underscores. -/
def digits? (isDigit : Char → Bool) : List Char → Option (List Char)
  | [] => none
  | [c] => if isDigit c then some [c] else none
  | c :: '_' :: rest => if isDigit c then (digits? isDigit rest).map (c :: ·) else none
  | c :: rest => if isDigit c then (digits? isDigit rest).map (c :: ·) else none

/-- A sign, if there is one, and the rest. -/
def splitSign (cs : List Char) : List Char × List Char :=
  match cs with
  | '-' :: rest => (['-'], rest)
  | '+' :: rest => ([], rest)
  | rest => ([], rest)

/-- Decimal digits of which the first is not a zero before others. -/
def wholeDigits? (cs : List Char) : Option (List Char) :=
  match digits? Char.isDigit cs with
  | some ('0' :: _ :: _) => none
  | ds => ds

/-! ## Integers -/

/-- An octal digit. -/
def isOctal (c : Char) : Bool := decide ('0' ≤ c) && decide (c ≤ '7')

/-- A binary digit. -/
def isBinary (c : Char) : Bool := c = '0' || c = '1'

/-- A hexadecimal digit. -/
def isHex (c : Char) : Bool :=
  c.isDigit || (decide ('a' ≤ c) && decide (c ≤ 'f')) || (decide ('A' ≤ c) && decide (c ≤ 'F'))

/-- The value of a digit of any base up to sixteen. -/
def digitValue (c : Char) : Nat :=
  if c.isDigit then c.toNat - 48 else if 'a' ≤ c then c.toNat - 87 else c.toNat - 55

/-- The value of digits in a base. -/
def valueIn (base : Nat) (cs : List Char) : Int :=
  ((cs.foldl (fun n c => n * base + digitValue c) 0 : Nat) : Int)

/-- An integer within the signed 64-bit range. -/
def inRange? (n : Int) : Option Int :=
  if -9223372036854775808 ≤ n ∧ n ≤ 9223372036854775807 then some n else none

/-- The integer of a text. -/
def integer? (cs : List Char) : Option Int :=
  match cs with
  | '0' :: 'x' :: rest => ((digits? isHex rest).map (valueIn 16)).bind inRange?
  | '0' :: 'o' :: rest => ((digits? isOctal rest).map (valueIn 8)).bind inRange?
  | '0' :: 'b' :: rest => ((digits? isBinary rest).map (valueIn 2)).bind inRange?
  | cs =>
    let (sign, body) := splitSign cs
    ((wholeDigits? body).map fun ds =>
      if sign.isEmpty then valueIn 10 ds else -valueIn 10 ds).bind inRange?

/-! ## Reals -/

/-- The exponent after the digits of a real. -/
def exponent? (cs : List Char) : Option (List Char) :=
  match cs with
  | c :: rest =>
    if c = 'e' || c = 'E' then
      let (sign, body) := splitSign rest
      (digits? Char.isDigit body).map fun ds => 'e' :: sign ++ ds
    else none
  | [] => none

/-- The real of a text, which has a point or an exponent. A number too
large is an error, one too far below zero is the negative infinity. -/
def decimalReal? (cs : List Char) : Option Binary64 := do
  let (sign, body) := splitSign cs
  let isMantissa (c : Char) : Bool := c.isDigit || c = '_'
  let whole ← wholeDigits? (body.takeWhile isMantissa)
  let tail ← match body.dropWhile isMantissa with
    | '.' :: rest => do
      let fraction ← digits? Char.isDigit (rest.takeWhile isMantissa)
      match rest.dropWhile isMantissa with
      | [] => some ('.' :: fraction)
      | rest => (exponent? rest).map fun e => '.' :: fraction ++ e
    | rest => exponent? rest
  let n ← Numeral.read? (sign ++ whole ++ tail)
  let x := n.toBinary64
  if x = .infinite false then none else some x

/-- An infinity or not-a-number. -/
def specialReal? (cs : List Char) : Option Binary64 :=
  let (sign, body) := splitSign cs
  if body = ['i', 'n', 'f'] then some (.infinite (!sign.isEmpty))
  else if body = ['n', 'a', 'n'] then some .nan
  else none

/-! ## Dates and times -/

/-- The number that exactly `count` digits form, and the rest. -/
def fixedDigits? (count : Nat) (cs : List Char) : Option (Nat × List Char) :=
  let ds := cs.take count
  if ds.length = count && ds.all Char.isDigit then some (digitsValue ds, cs.drop count) else none

/-- The rest after an expected character. -/
def after? (c : Char) : List Char → Option (List Char)
  | d :: rest => if d = c then some rest else none
  | [] => none

/-- The number of days of a month. -/
def daysOf (year month : Nat) : Nat :=
  if month = 2 then
    if year % 4 = 0 && (year % 100 != 0 || year % 400 = 0) then 29 else 28
  else if month = 4 || month = 6 || month = 9 || month = 11 then 30
  else 31

/-- The rest after a date. -/
def dropDate? (cs : List Char) : Option (List Char) := do
  let (year, cs) ← fixedDigits? 4 cs
  let cs ← after? '-' cs
  let (month, cs) ← fixedDigits? 2 cs
  let cs ← after? '-' cs
  let (day, cs) ← fixedDigits? 2 cs
  if 1 ≤ month && month ≤ 12 && 1 ≤ day && day ≤ daysOf year month then some cs else none

/-- The rest after a time of day. -/
def dropTime? (cs : List Char) : Option (List Char) := do
  let (hour, cs) ← fixedDigits? 2 cs
  let cs ← after? ':' cs
  let (minute, cs) ← fixedDigits? 2 cs
  let cs ← after? ':' cs
  let (second, cs) ← fixedDigits? 2 cs
  if !(hour ≤ 23 && minute ≤ 59 && second ≤ 60) then none
  else match cs with
    | '.' :: rest =>
      if (rest.takeWhile Char.isDigit).isEmpty then none else some (rest.dropWhile Char.isDigit)
    | cs => some cs

/-- The rest after an offset from universal time, if there is one. -/
def dropOffset? (cs : List Char) : Option (List Char) :=
  match cs with
  | [] => some []
  | c :: rest =>
    if c = 'Z' || c = 'z' then some rest
    else if c = '+' || c = '-' then do
      let (hour, rest) ← fixedDigits? 2 rest
      let rest ← after? ':' rest
      let (minute, rest) ← fixedDigits? 2 rest
      if hour ≤ 23 && minute ≤ 59 then some rest else none
    else none

/-- A date, a time, or both, with an offset at most after both. -/
def isMoment (cs : List Char) : Bool :=
  match dropDate? cs with
  | some [] => true
  | some (c :: rest) =>
    if c = 'T' || c = 't' || c = ' ' then
      match (dropTime? rest).bind dropOffset? with
      | some [] => true
      | _ => false
    else false
  | none => dropTime? cs == some []

/-- The node of a number, a date or a time. -/
def scalar? (cs : List Char) : Option Node :=
  if isMoment cs then some (.mapping [("moment", .text (String.ofList cs))])
  else match specialReal? cs, decimalReal? cs, integer? cs with
    | some x, _, _ => some (.real x)
    | _, some x, _ => some (.real x)
    | _, _, some n => some (.integer n)
    | none, none, none => none

end Toml

end ResilientCalls
