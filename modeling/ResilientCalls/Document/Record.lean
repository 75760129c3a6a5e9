import ResilientCalls.Document.Node
import ResilientCalls.Time.Duration

/-!
# Reading records from documents

A record is given as a mapping from the names of its fields, or as a
sequence of its fields in their declared order. Unknown names are skipped
and a repeated name is refused. A field may be left out if it has a
default; in a sequence only the last ones can be.

Free-form values may be nested to a limited depth, counted from the root
of the document, so a reader is told how many containers enclose what it
reads. It is also told whether a sequence may go on after the fields of a
record, which depends on the format of the document.
-/

namespace ResilientCalls

/-- Where a value stands, and how strictly it is read. -/
structure Reading where
  /-- How many containers enclose the value. -/
  depth : Nat
  /-- The sequence of a record may have more items than the record has
  fields; they are skipped. -/
  skipsRest : Bool
deriving DecidableEq

namespace Reading

/-- The root of a document whose sequences are read to their ends. -/
def whole : Reading := ⟨0, false⟩

/-- The root of a document whose sequences may have more items than are
read. -/
def partly : Reading := ⟨0, true⟩

/-- A container further inside. -/
def inside (r : Reading) : Reading := { r with depth := r.depth + 1 }

end Reading

/-- Reads a value. -/
abbrev Reader (α : Type) := Reading → Node → Option α

namespace Reader

/-- The most containers that may enclose a value. -/
def depthLimit : Nat := 127

/-- A text. -/
def text : Reader String
  | _, .text s => some s
  | _, _ => none

/-- A truth value. -/
def boolean : Reader Bool
  | _, .boolean b => some b
  | _, _ => none

/-- A whole number from zero to `limit`. -/
def count (limit : Nat) : Reader Nat
  | _, .integer n => if 0 ≤ n ∧ n ≤ limit then some n.toNat else none
  | _, _ => none

/-- A 64-bit signed whole number. -/
def int64 : Reader Int
  | _, .integer n =>
    if -9223372036854775808 ≤ n ∧ n ≤ 9223372036854775807 then some n else none
  | _, _ => none

/-- A number; a whole number is rounded. -/
def real : Reader Binary64
  | _, .real x => some x
  | _, .integer n => some (.ofInt n)
  | _, _ => none

/-- A value, or null for none. -/
def optional {α : Type} (r : Reader α) : Reader (Option α)
  | _, .null => some none
  | reading, n => (r reading n).map some

/-- A sequence of values. -/
def list {α : Type} (r : Reader α) : Reader (List α)
  | reading, .sequence items => items.mapM (r reading.inside)
  | _, _ => none

/-- A value in its free form, not nested too deeply. -/
def freeForm : Reader Node
  | reading, n => if reading.depth + n.depth ≤ depthLimit then n.freeForm? else none

end Reader

/-- The fields that are given of a record, and how their values are
read. -/
structure Record where
  fields : List (String × Node)
  reading : Reading

namespace Record

/-- The known fields among the entries of a mapping; none when one is
repeated. -/
def collect (names : List String) : List (String × Node) → Option (List (String × Node))
  | [] => some []
  | (key, value) :: rest =>
    match collect names rest with
    | none => none
    | some fields =>
      if names.contains key then
        if fields.any (·.1 == key) then none else some ((key, value) :: fields)
      else some fields

/-- The fields that a node gives of a record with the declared names. -/
def ofNode? (names : List String) (reading : Reading) : Node → Option Record
  | .mapping entries => (collect names entries).map (⟨·, reading.inside⟩)
  | .sequence items =>
    if reading.skipsRest || items.length ≤ names.length then
      some ⟨names.zip items, reading.inside⟩
    else none
  | _ => none

/-- The value of a field that must be given. -/
def need {α : Type} (r : Record) (name : String) (reader : Reader α) : Option α :=
  (r.fields.lookup name).bind (reader r.reading)

/-- The value of a field that has a default. -/
def get {α : Type} (r : Record) (name : String) (default : α) (reader : Reader α) : Option α :=
  match r.fields.lookup name with
  | none => some default
  | some n => reader r.reading n

end Record

/-- The entry of a field that is written only when it has a value. -/
def entryIfSome (name : String) (value : Option Node) : List (String × Node) :=
  match value with
  | none => []
  | some n => [(name, n)]

end ResilientCalls
