import LuaGlue.Toml.Value

/-!
How the lines of a TOML document make up one table.

A line gives a value to a dotted key, a header opens a table, and a header in double brackets opens one
more table of an array. Tables on the way to a key are made as they are needed, and `Origin` remembers
how a table came to be, because that decides who may add to it:

    [a.b]        b stands behind a header, a is implied       a later [a] may still open a
    a.b = 1      a stands in a dotted key                     a later [a] may not, a.c = 2 may
    a = {...}    an inline table is a value                   nothing may add to it

An implied table that a dotted key leads through counts from then on as one of a dotted key.
-/

namespace LuaGlue.Toml

/-- How a table came to be. -/
inductive Origin where
  /-- A header opened it, or it is the table of the whole document. -/
  | header
  /-- It stands on the way to a table behind a header. -/
  | implied
  /-- It stands on the way to the last name of a dotted key. -/
  | dotted
  deriving DecidableEq, Repr

/-- What a table becomes when a path leads through it, whose missing tables are made with the origin
`made`. A dotted key does not lead through a table that a header has opened. -/
def Origin.through (made there : Origin) : Option Origin :=
  match made, there with
  | .dotted, .header => none
  | .dotted, _ => some .dotted
  | _, there => some there

/-- What a name of a table under construction stands for. -/
inductive Node where
  | value (v : Value)
  | table (origin : Origin) (entries : List (String × Node))
  /-- Tables behind headers in double brackets; the last one is open. -/
  | tables (earlier : List (List (String × Node))) (last : List (String × Node))

/-- A table under construction. -/
abbrev Nodes := List (String × Node)

mutual

/-- The value of a node. -/
def Node.finish : Node → Value
  | .value v => v
  | .table _ entries => .table (Nodes.finish entries)
  | .tables earlier last => .array (finishAll earlier ++ [.table (Nodes.finish last)])

/-- The entries of a table. -/
def Nodes.finish : List (String × Node) → List (String × Value)
  | [] => []
  | (name, node) :: rest => (name, node.finish) :: Nodes.finish rest

/-- The tables of an array. -/
def finishAll : List (List (String × Node)) → List Value
  | [] => []
  | entries :: rest => .table (Nodes.finish entries) :: finishAll rest

end

namespace Nodes

/-- The table with this node at a name, in place of the one that is there. -/
def set (name : String) (node : Node) : Nodes → Nodes
  | [] => [(name, node)]
  | (other, old) :: rest =>
    if other = name then (name, node) :: rest else (other, old) :: set name node rest

/-- Changes the table at the end of a path. Tables that are missing are made, with the given origin. -/
def change (origin : Origin) (f : Origin → Nodes → Option Nodes) :
    List String → Origin → Nodes → Option Nodes
  | [], reached, entries => f reached entries
  | name :: path, _, entries =>
    match entries.lookup name with
    | none => do return set name (.table origin (← change origin f path origin [])) entries
    | some (.value _) => none
    | some (.tables earlier last) => do
      return set name (.tables earlier (← change origin f path .header last)) entries
    | some (.table there inner) => do
      let there ← origin.through there
      return set name (.table there (← change origin f path there inner)) entries

end Nodes

/-- A dotted key: the names on the way, and the last one. -/
structure Key where
  way : List String
  name : String
  deriving DecidableEq, Repr

/-- A value given to a key. -/
structure Assignment where
  key : Key
  value : Value
  deriving Repr

/-- The table with a value at a new key. The way consists of tables of dotted keys alone. -/
def Nodes.assign (entries : Nodes) (a : Assignment) : Option Nodes :=
  let place (reached : Origin) (inner : Nodes) : Option Nodes :=
    if decide (reached = .dotted) = a.key.way.isEmpty then none
    else if (inner.lookup a.key.name).isSome then none
    else some (inner ++ [(a.key.name, .value a.value)])
  entries.change .dotted place a.key.way .header

/-- The table with all these values. -/
def Nodes.assignAll (entries : Nodes) (as : List Assignment) : Option Nodes :=
  as.foldlM Nodes.assign entries

/-- The entries that an inline table holds. -/
def inlineEntries (as : List Assignment) : Option Entries :=
  (Nodes.assignAll [] as).map Nodes.finish

/-- The header of a section. -/
structure Header where
  key : Key
  /-- Does it open one more table of an array? -/
  many : Bool
  deriving DecidableEq, Repr

/-- A header with the values that follow it. -/
structure Section where
  header : Header
  body : List Assignment
  deriving Repr

/-- The table with what a section adds to it. -/
def Nodes.addSection (entries : Nodes) (s : Section) : Option Nodes :=
  let name := s.header.key.name
  let place (_ : Origin) (inner : Nodes) : Option Nodes :=
    match inner.lookup name, s.header.many with
    | none, true => do return inner.set name (.tables [] (← Nodes.assignAll [] s.body))
    | none, false => do return inner.set name (.table .header (← Nodes.assignAll [] s.body))
    | some (.tables earlier last), true => do
      return inner.set name (.tables (earlier ++ [last]) (← Nodes.assignAll [] s.body))
    | some (.table .implied there), false => do
      return inner.set name (.table .header (← Nodes.assignAll there s.body))
    | _, _ => none
  entries.change .implied place s.header.key.way .header

/-- A line of a document. -/
inductive Statement where
  | opening (header : Header)
  | assigning (assignment : Assignment)
  deriving Repr

/-- The values before the first header, and the sections. -/
def sections : List Statement → List Assignment × List Section
  | [] => ([], [])
  | .assigning a :: rest =>
    let (body, others) := sections rest
    (a :: body, others)
  | .opening header :: rest =>
    let (body, others) := sections rest
    ([], ⟨header, body⟩ :: others)

/-- The entries that the lines of a document make up, unless two of them contradict. -/
def documentEntries (statements : List Statement) : Option Entries := do
  let (body, others) := sections statements
  let root ← Nodes.assignAll [] body
  return Nodes.finish (← others.foldlM Nodes.addSection root)

end LuaGlue.Toml
