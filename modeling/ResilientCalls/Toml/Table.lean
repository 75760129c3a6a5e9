import ResilientCalls.Document.Node

/-!
# Tables under construction

A TOML document builds its tables piece by piece: headers open tables,
dotted keys make tables on the way, and an array of tables grows at its
end. A table may be defined once. So a table remembers whether it was only
implied by a longer path, and whether dotted keys made it; values, inline
tables among them, are closed.
-/

namespace ResilientCalls

namespace Toml

mutual

/-- What stands under a key. -/
inductive Item where
  /-- A finished value. -/
  | value (n : Node)
  | table (t : Table)
  /-- An array of tables, the open one last. -/
  | tables (ts : List Table)

/-- A table: whether it was only implied so far, whether dotted keys made
it, and its entries. -/
inductive Table where
  | mk (implied dotted : Bool) (entries : List (String × Item))

end

namespace Table

/-- The table was only implied by a longer path. -/
def implied : Table → Bool
  | mk implied _ _ => implied

/-- Dotted keys made the table. -/
def dotted : Table → Bool
  | mk _ dotted _ => dotted

/-- The entries of a table. -/
def entries : Table → List (String × Item)
  | mk _ _ entries => entries

/-- A table that a header or a pair of braces opens. -/
def opened : Table := mk false false []

/-- The table with an item under a key, in place of an earlier one. -/
def set (t : Table) (key : String) (item : Item) : Table :=
  mk t.implied t.dotted (t.entries.filter (fun e => e.1 != key) ++ [(key, item)])

/-- The table without a key. -/
def remove (t : Table) (key : String) : Table :=
  mk t.implied t.dotted (t.entries.filter (fun e => e.1 != key))

/-- The item under a key. -/
def item? (t : Table) (key : String) : Option Item := t.entries.lookup key

/-- Changes the table at the end of a path. Missing tables are made on the
way; a value on the way, or for dotted keys a table that was defined
before, is an error. -/
def changeAt (byDots : Bool) (f : Table → Option Table) : List String → Table → Option Table
  | [], t => f t
  | key :: path, t =>
    match t.item? key with
    | none => (changeAt byDots f path (mk true byDots [])).map fun c => t.set key (.table c)
    | some (.value _) => none
    | some (.table c) =>
      if byDots && !c.implied then none
      else (changeAt byDots f path c).map fun c => t.set key (.table c)
    | some (.tables ts) =>
      match ts.getLast? with
      | none => none
      | some last =>
        (changeAt byDots f path last).map fun c => t.set key (.tables (ts.dropLast ++ [c]))

/-- Puts a value under a dotted key. A key is used once, and a path of
dotted keys leads only through tables that dotted keys made. -/
def insert (path : List String) (key : String) (value : Node) (t : Table) : Option Table :=
  changeAt true
    (fun c =>
      if c.dotted == path.isEmpty then none
      else if (c.item? key).isSome then none
      else some (c.set key (.value value)))
    path t

end Table

mutual

/-- The node of an item. -/
def Item.node : Item → Node
  | .value n => n
  | .table t => t.node
  | .tables ts => .sequence (tableNodes ts)

/-- The node of a table. -/
def Table.node : Table → Node
  | .mk _ _ entries => .mapping (entryNodes entries)

/-- The nodes of some tables. -/
def tableNodes : List Table → List Node
  | [] => []
  | t :: rest => t.node :: tableNodes rest

/-- The nodes of some entries. -/
def entryNodes : List (String × Item) → List (String × Node)
  | [] => []
  | (key, item) :: rest => (key, item.node) :: entryNodes rest

end

/-! ## Documents -/

/-- A document under construction: the finished part, the open table, and
where the open table belongs. -/
structure Draft where
  root : Table
  current : Table
  path : List String
  /-- The open table is an element of an array of tables. -/
  inArray : Bool

namespace Draft

/-- An empty document, whose open table is the root. -/
def empty : Draft := ⟨.opened, .opened, [], false⟩

/-- The parent and the key of a path that is not empty. -/
def splitPath (path : List String) : List String × String :=
  (path.dropLast, path.getLast?.getD "")

/-- Puts the open table where it belongs. -/
def close (d : Draft) : Option Table :=
  if d.path.isEmpty then some d.current
  else
    let (parent, key) := splitPath d.path
    Table.changeAt false
      (fun p =>
        match d.inArray, p.item? key with
        | true, none => some (p.set key (.tables [d.current]))
        | true, some (.tables ts) => some (p.set key (.tables (ts ++ [d.current])))
        | true, some _ => none
        | false, none => some (p.set key (.table d.current))
        | false, some (.table t) => if t.implied then some (p.set key (.table d.current)) else none
        | false, some _ => none)
      parent d.root

/-- The item at the end of a path through tables, if there is one. -/
def itemAt? : List String → Table → Option Item
  | [], _ => none
  | [key], t => t.item? key
  | key :: path, t =>
    match t.item? key with
    | some (.table c) => itemAt? path c
    | some (.tables ts) => ts.getLast?.bind (itemAt? path)
    | _ => none

/-- Opens the table of a header. The table is new, or was only implied. -/
def openTable (path : List String) (d : Draft) : Option Draft := do
  let root ← d.close
  let (parent, key) := splitPath path
  let current ← match itemAt? path root with
    | none => some .opened
    | some (.table t) => if t.implied && !t.dotted then some (.mk false false t.entries) else none
    | some _ => none
  let root ← Table.changeAt false (fun p => some (p.remove key)) parent root
  return ⟨root, current, path, false⟩

/-- Opens the next table of an array of tables. -/
def openArrayTable (path : List String) (d : Draft) : Option Draft := do
  let root ← d.close
  let (parent, key) := splitPath path
  let root ← Table.changeAt false
    (fun p => match p.item? key with
      | none => some (p.set key (.tables []))
      | some (.tables _) => some p
      | some _ => none)
    parent root
  return ⟨root, .opened, path, true⟩

/-- Puts a value under a dotted key of the open table. -/
def insert (path : List String) (key : String) (value : Node) (d : Draft) : Option Draft :=
  (d.current.insert path key value).map fun t => { d with current := t }

/-- The node of the finished document. -/
def finish (d : Draft) : Option Node := d.close.map Table.node

end Draft

end Toml

end ResilientCalls
