import ResilientCalls.Toml.Quoted
import ResilientCalls.Toml.Scalar
import ResilientCalls.Toml.Table

/-!
# Reading TOML

A document is read line by line: a line opens a table, gives a value to a
key, or says nothing. Arrays may go over several lines, inline tables may
not. Values may be nested in at most 79 containers and keys may have at
most 79 parts.
-/

namespace ResilientCalls

namespace Toml

/-- How many containers may enclose a value, and how many parts a dotted
key may have. -/
def nestingLimit : Nat := 79

/-- A text in which every line break is one character. -/
def singleBreaks : List Char → List Char
  | '\r' :: '\n' :: rest => '\n' :: singleBreaks rest
  | c :: rest => c :: singleBreaks rest
  | [] => []

/-- The text after the white space, the comment and the line break that
end a line. -/
def lineEnd? (cs : List Char) : Option (List Char) :=
  let rest := match skipBlanks cs with
    | '#' :: rest => rest.dropWhile isPlain
    | rest => rest
  match rest with
  | [] => some []
  | '\n' :: rest => some rest
  | _ => none

/-- The text after white space, line breaks and comments; `comment` tells
whether it begins within one. -/
def skipFiller : Bool → List Char → List Char
  | _, [] => []
  | comment, c :: rest =>
    if comment && isPlain c then skipFiller true rest
    else if isBlank c || c = '\n' then skipFiller false rest
    else if c = '#' then skipFiller true rest
    else c :: rest

/-! ## Values -/

/-- A character of a number, a date, a time or a word. -/
def isScalarChar (c : Char) : Bool :=
  c.isAlphanum || c = '+' || c = '-' || c = '.' || c = ':' || c = '_'

/-- The run of characters of a scalar, and the rest. A blank between a
date and a digit belongs to the run. -/
def splitScalar (cs : List Char) : List Char × List Char :=
  let run := cs.takeWhile isScalarChar
  match cs.dropWhile isScalarChar with
  | ' ' :: d :: rest =>
    if dropDate? run = some [] && d.isDigit then
      (run ++ ' ' :: (d :: rest).takeWhile isScalarChar, (d :: rest).dropWhile isScalarChar)
    else (run, ' ' :: d :: rest)
  | rest => (run, rest)

/-- The value of a run of characters. -/
def wordOrScalar? (run : List Char) : Option Node :=
  if run = ['t', 'r', 'u', 'e'] then some (.boolean true)
  else if run = ['f', 'a', 'l', 's', 'e'] then some (.boolean false)
  else scalar? run

/-- Puts a value under a dotted key of a table. -/
def insertPath? (path : List String) (value : Node) (t : Table) : Option Table :=
  t.insert path.dropLast (path.getLast?.getD "") value

mutual

/-- The value at the front of a text, enclosed in `depth` containers. -/
def readValue? : Nat → Nat → List Char → Option (Node × List Char)
  | 0, _, _ => none
  | fuel + 1, depth, cs =>
    match cs with
    | '[' :: rest =>
      if nestingLimit ≤ depth then none
      else match skipFiller false rest with
        | ']' :: rest => some (.sequence [], rest)
        | rest =>
          (readItems? fuel (depth + 1) rest).map fun (items, rest) => (.sequence items, rest)
    | '\x7b' :: rest =>
      if nestingLimit ≤ depth then none
      else match skipBlanks rest with
        | '\x7d' :: rest => some (.mapping [], rest)
        | rest =>
          (readPairs? fuel (depth + 1) .opened rest).map fun (t, rest) => (t.node, rest)
    | c :: rest =>
      if c = '"' || c = '\'' then
        (readString? (c :: rest)).map fun (s, rest) => (.text (String.ofList s), rest)
      else
        let (run, rest) := splitScalar (c :: rest)
        (wordOrScalar? run).map (·, rest)
    | [] => none

/-- The items of an array from the first one on, with the closing
bracket. -/
def readItems? : Nat → Nat → List Char → Option (List Node × List Char)
  | 0, _, _ => none
  | fuel + 1, depth, cs =>
    match readValue? fuel depth cs with
    | none => none
    | some (item, rest) =>
      match skipFiller false rest with
      | ']' :: rest => some ([item], rest)
      | ',' :: rest =>
        match skipFiller false rest with
        | ']' :: rest => some ([item], rest)
        | rest => (readItems? fuel depth rest).map fun (items, rest) => (item :: items, rest)
      | _ => none

/-- The pairs of an inline table from the first one on, with the closing
brace, put into a table. -/
def readPairs? : Nat → Nat → Table → List Char → Option (Table × List Char)
  | 0, _, _, _ => none
  | fuel + 1, depth, t, cs =>
    match readPath? nestingLimit cs with
    | some (path, '=' :: rest) =>
      match readValue? fuel depth (skipBlanks rest) with
      | none => none
      | some (value, rest) =>
        match insertPath? path value t with
        | none => none
        | some t =>
          match skipBlanks rest with
          | '\x7d' :: rest => some (t, rest)
          | ',' :: rest => readPairs? fuel depth t rest
          | _ => none
    | _ => none

end

/-! ## Documents -/

/-- The document after the line at the front of a text, which is not
empty, and the rest of the text. -/
def readLine? (d : Draft) (cs : List Char) : Option (Draft × List Char) :=
  match lineEnd? cs with
  | some rest => some (d, rest)
  | none =>
    match skipBlanks cs with
    | '[' :: '[' :: rest => do
      let (path, rest) ← readPath? nestingLimit rest
      match rest with
      | ']' :: ']' :: rest => return (← d.openArrayTable path, ← lineEnd? rest)
      | _ => none
    | '[' :: rest => do
      let (path, rest) ← readPath? nestingLimit rest
      match rest with
      | ']' :: rest => return (← d.openTable path, ← lineEnd? rest)
      | _ => none
    | cs => do
      let (path, rest) ← readPath? nestingLimit cs
      match rest with
      | '=' :: rest =>
        let rest := skipBlanks rest
        let (value, rest) ← readValue? (2 * rest.length + 2) 0 rest
        return (← d.insert path.dropLast (path.getLast?.getD "") value, ← lineEnd? rest)
      | _ => none

/-- The document after all lines of a text, at most `fuel` of them. -/
def readLines? : Nat → Draft → List Char → Option Draft
  | _, d, [] => some d
  | 0, _, _ :: _ => none
  | fuel + 1, d, c :: cs => (readLine? d (c :: cs)).bind fun (d, rest) => readLines? fuel d rest

/-- A text without a byte order mark in front. -/
def skipMark : List Char → List Char
  | c :: rest => if c.toNat = 0xFEFF then rest else c :: rest
  | [] => []

/-- **The node of a TOML document,** a mapping. A line has at least one
character, so the length of the text bounds their number. -/
def read? (text : String) : Option Node :=
  let cs := singleBreaks (skipMark text.toList)
  (readLines? cs.length .empty cs).bind Draft.finish

end Toml

end ResilientCalls
