import ResilientCalls.Document.Node
import ResilientCalls.Numeric.Layout

/-!
# Writing JSON

The compact form: no white space, entries in their order, control
characters, quotes and backslashes escaped and nothing else.
-/

namespace ResilientCalls

namespace Json

/-- A hexadecimal digit below sixteen. -/
def hexChar (n : Nat) : Char := if n < 10 then Char.ofNat (48 + n) else Char.ofNat (87 + n)

/-- A character as it stands in a string. -/
def escape (c : Char) : List Char :=
  if c = '"' then ['\\', '"']
  else if c = '\\' then ['\\', '\\']
  else if c.toNat = 8 then ['\\', 'b']
  else if c.toNat = 9 then ['\\', 't']
  else if c.toNat = 10 then ['\\', 'n']
  else if c.toNat = 12 then ['\\', 'f']
  else if c.toNat = 13 then ['\\', 'r']
  else if c.toNat < 32 then
    ['\\', 'u', '0', '0', hexChar (c.toNat / 16), hexChar (c.toNat % 16)]
  else [c]

/-- A string with its quotes. -/
def writeText (s : String) : List Char := '"' :: s.toList.flatMap escape ++ ['"']

mutual

/-- The characters of a node. -/
def write : Node → List Char
  | .null => "null".toList
  | .boolean b => (if b then "true" else "false").toList
  | .integer n => (toString n).toList
  | .real x => (if x.isFinite then x.dataText else "null").toList
  | .text s => writeText s
  | .sequence items => '[' :: writeItems items ++ [']']
  | .mapping entries => '\x7b' :: writeEntries entries ++ ['\x7d']
  | .unusable => "null".toList

/-- The items of a sequence, separated by commas. -/
def writeItems : List Node → List Char
  | [] => []
  | [n] => write n
  | n :: m :: rest => write n ++ ',' :: writeItems (m :: rest)

/-- The entries of a mapping, separated by commas. -/
def writeEntries : List (String × Node) → List Char
  | [] => []
  | [(key, n)] => writeText key ++ ':' :: write n
  | (key, n) :: e :: rest => writeText key ++ ':' :: write n ++ ',' :: writeEntries (e :: rest)

end

/-- The text of a node. -/
def print (n : Node) : String := String.ofList (write n)

end Json

end ResilientCalls
