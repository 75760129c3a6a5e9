import ResilientCalls.Document.Node
import ResilientCalls.Json.Printer

/-!
# Writing TOML

A mapping is written as a document of one line for each entry, with every
key and every text between quotes and every nested mapping inline. TOML
has no null and no integers beyond 64 signed bits; what holds one of them
has no text.
-/

namespace ResilientCalls

namespace Toml

/-- A character as it stands in a basic string. -/
def escape (c : Char) : List Char :=
  if c.toNat = 127 then ['\\', 'u', '0', '0', '7', 'f'] else Json.escape c

/-- A string with its quotes. -/
def writeText (s : String) : List Char := '"' :: s.toList.flatMap escape ++ ['"']

/-- An integer that TOML can hold. -/
def holdsInteger (n : Int) : Bool :=
  decide (-9223372036854775808 ≤ n) && decide (n ≤ 9223372036854775807)

mutual

/-- The characters of a value. -/
def write? : Node → Option (List Char)
  | .boolean b => some (if b then ['t', 'r', 'u', 'e'] else ['f', 'a', 'l', 's', 'e'])
  | .integer n => if holdsInteger n then some (toString n).toList else none
  | .real x => some x.dataText.toList
  | .text s => some (writeText s)
  | .sequence items => (writeItems? items).map fun cs => '[' :: cs ++ [']']
  | .mapping entries => (writeEntries? entries).map fun cs => '\x7b' :: cs ++ ['\x7d']
  | .null | .unusable => none

/-- The items of an array, separated by commas. -/
def writeItems? : List Node → Option (List Char)
  | [] => some []
  | [n] => write? n
  | n :: m :: rest => do
    let first ← write? n
    return first ++ ',' :: (← writeItems? (m :: rest))

/-- The entries of an inline table, separated by commas. -/
def writeEntries? : List (String × Node) → Option (List Char)
  | [] => some []
  | [(key, n)] => do return writeText key ++ '=' :: (← write? n)
  | (key, n) :: e :: rest => do
    let first ← write? n
    return writeText key ++ '=' :: first ++ ',' :: (← writeEntries? (e :: rest))

end

/-- The lines of a document's entries. -/
def writeLines? : List (String × Node) → Option (List Char)
  | [] => some []
  | (key, n) :: rest => do
    let value ← write? n
    return writeText key ++ '=' :: value ++ '\n' :: (← writeLines? rest)

/-- The document of a mapping, if it has one. -/
def print? : Node → Option String
  | .mapping entries => (writeLines? entries).map String.ofList
  | _ => none

end Toml

end ResilientCalls
