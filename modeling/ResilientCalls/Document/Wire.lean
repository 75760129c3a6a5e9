import ResilientCalls.Document.Record
import ResilientCalls.Json.Reader
import ResilientCalls.Json.Printer

/-!
# Types with a written form

A type with a written form is read from a node and written as one, and so
has a JSON text.
-/

namespace ResilientCalls

/-- A type with a written form. -/
class Wire (α : Type) where
  /-- Reads a value from a node. -/
  read : Reader α
  /-- The node of a value. -/
  write : α → Node

namespace Wire

/-- The value of a JSON text. -/
def ofJson? {α : Type} [Wire α] (text : String) : Option α := (Json.read? text).bind (read .whole)

/-- The JSON text of a value. -/
def toJson {α : Type} [Wire α] (a : α) : String := Json.print (write a)

end Wire

end ResilientCalls
