import ResilientCalls.Json.Number

/-!
# Reading JSON

A reader over the characters of a text that gives a node and the rest of
the text. Raw control characters are refused in strings, and half a
surrogate pair makes the string unusable without making the text wrong.
Nesting is not limited here; readers of records limit it where it counts.
-/

namespace ResilientCalls

namespace Json

/-- White space between tokens. -/
def isBlank (c : Char) : Bool := c = ' ' || c = '\t' || c = '\n' || c = '\r'

/-- The text without white space in front. -/
def skipBlanks (cs : List Char) : List Char := cs.dropWhile isBlank

/-! ## Strings -/

/-- The value of a hexadecimal digit. -/
def hexDigit? (c : Char) : Option Nat :=
  if '0' ≤ c ∧ c ≤ '9' then some (c.toNat - 48)
  else if 'a' ≤ c ∧ c ≤ 'f' then some (c.toNat - 87)
  else if 'A' ≤ c ∧ c ≤ 'F' then some (c.toNat - 55)
  else none

/-- The value of hexadecimal digits. -/
def hexValue? (cs : List Char) : Option Nat :=
  cs.foldlM (fun n c => (hexDigit? c).map (n * 16 + ·)) 0

/-- The character that an escape letter stands for. -/
def escaped? : Char → Option Char
  | '"' => some '"'
  | '\\' => some '\\'
  | '/' => some '/'
  | 'b' => some (Char.ofNat 8)
  | 'f' => some (Char.ofNat 12)
  | 'n' => some '\n'
  | 'r' => some '\r'
  | 't' => some '\t'
  | _ => none

/-- A part of a string: a character, or a 16-bit unit given by number. -/
inductive StringPart where
  | char (c : Char)
  | unit (value : Nat)
deriving DecidableEq

/-- The parts of a string whose opening quote has been read, and the text
after its closing quote. -/
def readParts? : List Char → Option (List StringPart × List Char)
  | [] => none
  | '"' :: rest => some ([], rest)
  | '\\' :: 'u' :: a :: b :: c :: d :: rest =>
    match hexValue? [a, b, c, d], readParts? rest with
    | some value, some (parts, rest) => some (.unit value :: parts, rest)
    | _, _ => none
  | '\\' :: c :: rest =>
    match escaped? c, readParts? rest with
    | some c, some (parts, rest) => some (.char c :: parts, rest)
    | _, _ => none
  | c :: rest =>
    if c.toNat < 32 || c = '\\' then none
    else (readParts? rest).map fun (parts, rest) => (.char c :: parts, rest)

/-- A unit that begins a surrogate pair. -/
def isHigh (u : Nat) : Bool := decide (0xD800 ≤ u) && decide (u < 0xDC00)

/-- A unit that ends a surrogate pair. -/
def isLow (u : Nat) : Bool := decide (0xDC00 ≤ u) && decide (u < 0xE000)

/-- The characters of a string's parts; none when a surrogate is not
paired. -/
def joinParts? : List StringPart → Option (List Char)
  | [] => some []
  | .char c :: rest => (joinParts? rest).map (c :: ·)
  | .unit u :: .unit v :: rest =>
    if isHigh u then
      if isLow v then
        (joinParts? rest).map
          (Char.ofNat (0x10000 + (u - 0xD800) * 0x400 + (v - 0xDC00)) :: ·)
      else none
    else if isLow u then none
    else (joinParts? (.unit v :: rest)).map (Char.ofNat u :: ·)
  | .unit u :: rest =>
    if isHigh u || isLow u then none else (joinParts? rest).map (Char.ofNat u :: ·)

/-- The string after an opening quote, none inside if it is unusable, and
the rest of the text. -/
def readString? (cs : List Char) : Option (Option String × List Char) :=
  (readParts? cs).map fun (parts, rest) => ((joinParts? parts).map String.ofList, rest)

/-! ## Values -/

/-- A character that a number can hold. -/
def isNumberChar (c : Char) : Bool :=
  c.isDigit || c = '-' || c = '+' || c = '.' || c = 'e' || c = 'E'

/-- The number at the front of a text. -/
def readNumber? (cs : List Char) : Option (Node × List Char) :=
  (NumberText.ofChars? (cs.takeWhile isNumberChar)).map fun t =>
    (t.toNode, cs.dropWhile isNumberChar)

/-- The text after a word at its front. -/
def dropWord? : List Char → List Char → Option (List Char)
  | [], cs => some cs
  | w :: word, c :: cs => if w = c then dropWord? word cs else none
  | _ :: _, [] => none

/-- The mapping of some entries; unusable when one of the keys is. -/
def mappingOf (entries : List (Option String × Node)) : Node :=
  match entries.mapM (fun (key, value) => key.map (·, value)) with
  | some entries => .mapping entries
  | none => .unusable

mutual

/-- The value at the front of a text without white space in front. -/
def readValue? : Nat → List Char → Option (Node × List Char)
  | 0, _ => none
  | fuel + 1, cs =>
    match cs with
    | [] => none
    | '"' :: rest =>
      (readString? rest).map fun (s, rest) =>
        (match s with
          | some s => .text s
          | none => .unusable, rest)
    | '[' :: rest =>
      match skipBlanks rest with
      | ']' :: rest => some (.sequence [], rest)
      | rest => (readItems? fuel rest).map fun (items, rest) => (.sequence items, rest)
    | '\x7b' :: rest =>
      match skipBlanks rest with
      | '\x7d' :: rest => some (.mapping [], rest)
      | rest => (readEntries? fuel rest).map fun (entries, rest) => (mappingOf entries, rest)
    | 't' :: rest => (dropWord? ['r', 'u', 'e'] rest).map fun rest => (.boolean true, rest)
    | 'f' :: rest => (dropWord? ['a', 'l', 's', 'e'] rest).map fun rest => (.boolean false, rest)
    | 'n' :: rest => (dropWord? ['u', 'l', 'l'] rest).map fun rest => (.null, rest)
    | cs => readNumber? cs

/-- The items of a sequence from the first one on, with the closing
bracket. -/
def readItems? : Nat → List Char → Option (List Node × List Char)
  | 0, _ => none
  | fuel + 1, cs =>
    match readValue? fuel cs with
    | none => none
    | some (item, rest) =>
      match skipBlanks rest with
      | ']' :: rest => some ([item], rest)
      | ',' :: rest =>
        (readItems? fuel (skipBlanks rest)).map fun (items, rest) => (item :: items, rest)
      | _ => none

/-- The entries of a mapping from the first one on, with the closing
brace. A key is missing where its string is unusable. -/
def readEntries? : Nat → List Char → Option (List (Option String × Node) × List Char)
  | 0, _ => none
  | fuel + 1, cs =>
    match cs with
    | '"' :: rest =>
      match readString? rest with
      | some (key, rest) =>
        match skipBlanks rest with
        | ':' :: rest =>
          match readValue? fuel (skipBlanks rest) with
          | none => none
          | some (value, rest) =>
            match skipBlanks rest with
            | '\x7d' :: rest => some ([(key, value)], rest)
            | ',' :: rest =>
              (readEntries? fuel (skipBlanks rest)).map fun (entries, rest) =>
                ((key, value) :: entries, rest)
            | _ => none
        | _ => none
      | _ => none
    | _ => none

end

/-- **The node of a JSON text,** if the whole text is one value. Each
character of the text opens at most one value and one list of values, so
the fuel never runs out. -/
def read? (text : String) : Option Node :=
  let cs := text.toList
  match readValue? (2 * cs.length + 2) (skipBlanks cs) with
  | some (node, rest) => if (skipBlanks rest).isEmpty then some node else none
  | none => none

end Json

end ResilientCalls
