import ResilientCalls.Numeric.Binary64

/-!
# Documents

What a data text says, apart from how it is written: a tree of nodes. A
mapping keeps its entries in the order of the text, repeated keys
included, since readers of records refuse a repeated key. The free form of
a node is the one that is passed on without being understood: keys in
order, and of a repeated key the last value.
-/

namespace ResilientCalls

/-- A node of a document. -/
inductive Node where
  | null
  | boolean (value : Bool)
  | integer (value : Int)
  | real (value : Binary64)
  | text (value : String)
  | sequence (items : List Node)
  | mapping (entries : List (String × Node))
  /-- Written correctly, but no value: a number out of range, a text with
  half a character. It can be skipped and not read. -/
  | unusable
deriving Inhabited

/-- A text comes before another in the order of its characters' code
points. -/
def textBefore : List Char → List Char → Bool
  | _, [] => false
  | [], _ :: _ => true
  | c :: cs, d :: ds =>
    if c.toNat < d.toNat then true
    else if d.toNat < c.toNat then false
    else textBefore cs ds

/-- Puts an entry into entries sorted by key, replacing an entry of the
same key. -/
def insertEntry {α : Type} (key : String) (value : α) : List (String × α) → List (String × α)
  | [] => [(key, value)]
  | (k, v) :: rest =>
    if k = key then (key, value) :: rest
    else if textBefore key.toList k.toList then (key, value) :: (k, v) :: rest
    else (k, v) :: insertEntry key value rest

namespace Node

mutual

/-- How many containers are nested in a node. -/
def depth : Node → Nat
  | .sequence items => itemsDepth items + 1
  | .mapping entries => entriesDepth entries + 1
  | _ => 0

/-- The greatest depth of some nodes. -/
def itemsDepth : List Node → Nat
  | [] => 0
  | n :: rest => max n.depth (itemsDepth rest)

/-- The greatest depth of the values of some entries. -/
def entriesDepth : List (String × Node) → Nat
  | [] => 0
  | (_, n) :: rest => max n.depth (entriesDepth rest)

end

mutual

/-- The free form of a node; a node with an unusable part has none. -/
def freeForm? : Node → Option Node
  | .null => some .null
  | .boolean b => some (.boolean b)
  | .integer n => some (.integer n)
  | .real x => some (.real x)
  | .text s => some (.text s)
  | .sequence items => (freeItems? items).map .sequence
  | .mapping entries => (freeEntries? entries []).map .mapping
  | .unusable => none

/-- The free forms of some nodes. -/
def freeItems? : List Node → Option (List Node)
  | [] => some []
  | n :: rest =>
    match n.freeForm?, freeItems? rest with
    | some n, some rest => some (n :: rest)
    | _, _ => none

/-- The free forms of some entries, put in order on top of earlier ones. -/
def freeEntries? : List (String × Node) → List (String × Node) → Option (List (String × Node))
  | [], sorted => some sorted
  | (key, n) :: rest, sorted =>
    match n.freeForm? with
    | some n => freeEntries? rest (insertEntry key n sorted)
    | none => none

end

end Node

end ResilientCalls
