import ResilientCalls.Json.Reader

/-!
# Strings and keys in TOML

A string is basic, with escapes, or literal, without them. Each kind may
go over several lines between three quotes; then a line break right after
the opening quotes does not count, and a backslash at the end of a line
joins the lines. The readers here start after the opening quotes and give
the characters and the text after the closing quotes. Line breaks have
been made one character before.
-/

namespace ResilientCalls

namespace Toml

/-- White space within a line. -/
def isBlank (c : Char) : Bool := c = ' ' || c = '\t'

/-- The text without white space in front. -/
def skipBlanks (cs : List Char) : List Char := cs.dropWhile isBlank

/-- A character that stands for itself: a tab, or one that is not a
control character. -/
def isPlain (c : Char) : Bool := c = '\t' || (decide (32 ≤ c.toNat) && c.toNat != 127)

/-- The character of a number, which is not half of a surrogate pair. -/
def charOf? (n : Nat) : Option Char :=
  if n < 0xD800 || (decide (0xE000 ≤ n) && decide (n < 0x110000)) then some (Char.ofNat n)
  else none

/-- The character that an escape letter stands for. -/
def escaped? : Char → Option Char
  | '"' => some '"'
  | '\\' => some '\\'
  | 'b' => some (Char.ofNat 8)
  | 'f' => some (Char.ofNat 12)
  | 'n' => some '\n'
  | 'r' => some '\r'
  | 't' => some '\t'
  | _ => none

/-- The digits of an escape by number, from its letter. -/
def escapeDigits? : Char → Option Nat
  | 'u' => some 4
  | 'U' => some 8
  | _ => none

/-! ## On one line -/

/-- Where the reading of a string stands. -/
inductive QuotedState where
  | text
  /-- After a backslash. -/
  | escape
  /-- In an escape by number: the digits still to come, and the number so
  far. -/
  | digits (left value : Nat)
deriving DecidableEq

/-- The rest of a basic string. -/
def readBasic? : QuotedState → List Char → Option (List Char × List Char)
  | _, [] => none
  | .text, c :: rest =>
    if c = '"' then some ([], rest)
    else if c = '\\' then readBasic? .escape rest
    else if isPlain c then (readBasic? .text rest).map fun (s, rest) => (c :: s, rest)
    else none
  | .escape, c :: rest =>
    match escapeDigits? c, escaped? c with
    | some n, _ => readBasic? (.digits n 0) rest
    | none, some c => (readBasic? .text rest).map fun (s, rest) => (c :: s, rest)
    | none, none => none
  | .digits left value, c :: rest =>
    match Json.hexDigit? c with
    | none => none
    | some d =>
      if left = 1 then
        match charOf? (value * 16 + d) with
        | none => none
        | some c => (readBasic? .text rest).map fun (s, rest) => (c :: s, rest)
      else readBasic? (.digits (left - 1) (value * 16 + d)) rest

/-- The rest of a literal string. -/
def readLiteral? : List Char → Option (List Char × List Char)
  | [] => none
  | c :: rest =>
    if c = '\'' then some ([], rest)
    else if isPlain c then (readLiteral? rest).map fun (s, rest) => (c :: s, rest)
    else none

/-! ## On several lines -/

/-- Where the reading of a string of several lines stands. -/
inductive BlockState where
  | text
  /-- After a backslash. -/
  | escape
  /-- In an escape by number, as above. -/
  | digits (left value : Nat)
  /-- After a backslash and white space, which end a line. -/
  | lineEnd
  /-- After a backslash and a line break. -/
  | joining
  /-- After some quotes in a row. -/
  | quotes (count : Nat)
deriving DecidableEq

/-- The state after a character of a block that is no quote, no escape and
not white space of joined lines, and the character itself. -/
def blockText? (quote : Char) (escapes : Bool) (c : Char) : Option (BlockState × List Char) :=
  if c = quote then some (.quotes 1, [])
  else if escapes && c = '\\' then some (.escape, [])
  else if c = '\n' || isPlain c then some (.text, [c])
  else none

/-- The state after a character of a block, and the characters that are
settled by it. -/
def blockStep? (quote : Char) (escapes : Bool) (c : Char) :
    BlockState → Option (BlockState × List Char)
  | .text => blockText? quote escapes c
  | .escape =>
    match escapeDigits? c, escaped? c with
    | some n, _ => some (.digits n 0, [])
    | none, some c => some (.text, [c])
    | none, none =>
      if isBlank c then some (.lineEnd, []) else if c = '\n' then some (.joining, []) else none
  | .digits left value =>
    match Json.hexDigit? c with
    | none => none
    | some d =>
      if left = 1 then (charOf? (value * 16 + d)).map fun c => (.text, [c])
      else some (.digits (left - 1) (value * 16 + d), [])
  | .lineEnd =>
    if isBlank c then some (.lineEnd, []) else if c = '\n' then some (.joining, []) else none
  | .joining =>
    if isBlank c || c = '\n' then some (.joining, []) else blockText? quote escapes c
  | .quotes count =>
    if c = quote then some (.quotes (count + 1), [])
    else (blockText? quote escapes c).map fun (state, s) => (state, List.replicate count quote ++ s)

/-- The rest of a block. Three quotes close it; up to two more in front of
them belong to the text. -/
def readBlock? (quote : Char) (escapes : Bool) :
    BlockState → List Char → Option (List Char × List Char)
  | .quotes 5, rest => some ([quote, quote], rest)
  | .quotes count, [] => if 3 ≤ count then some (List.replicate (count - 3) quote, []) else none
  | _, [] => none
  | state, c :: rest =>
    if state = .quotes 3 && c != quote then some ([], c :: rest)
    else if state = .quotes 4 && c != quote then some ([quote], c :: rest)
    else
      match blockStep? quote escapes c state with
      | none => none
      | some (state, settled) =>
        (readBlock? quote escapes state rest).map fun (s, rest) => (settled ++ s, rest)

/-- The text after a line break right after opening quotes. -/
def skipFirstBreak : List Char → List Char
  | '\n' :: rest => rest
  | rest => rest

/-- The string at the front of a text, if there is one. -/
def readString? : List Char → Option (List Char × List Char)
  | '"' :: '"' :: '"' :: rest => readBlock? '"' true .text (skipFirstBreak rest)
  | '\'' :: '\'' :: '\'' :: rest => readBlock? '\'' false .text (skipFirstBreak rest)
  | '"' :: rest => readBasic? .text rest
  | '\'' :: rest => readLiteral? rest
  | _ => none

/-! ## Keys -/

/-- A character of a bare key. -/
def isBare (c : Char) : Bool := c.isAlphanum || c = '-' || c = '_'

/-- The key at the front of a text: bare, or a string on one line. -/
def readKey? : List Char → Option (List Char × List Char)
  | '"' :: rest => readBasic? .text rest
  | '\'' :: rest => readLiteral? rest
  | cs =>
    if (cs.takeWhile isBare).isEmpty then none
    else some (cs.takeWhile isBare, cs.dropWhile isBare)

/-- The dotted key at the front of a text, at most `fuel` parts of it, with
the white space around it. -/
def readPath? : Nat → List Char → Option (List String × List Char)
  | 0, _ => none
  | fuel + 1, cs =>
    match readKey? (skipBlanks cs) with
    | none => none
    | some (key, rest) =>
      match skipBlanks rest with
      | '.' :: rest =>
        (readPath? fuel rest).map fun (path, rest) => (String.ofList key :: path, rest)
      | rest => some ([String.ofList key], rest)

end Toml

end ResilientCalls
