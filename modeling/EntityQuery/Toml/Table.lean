import EntityQuery.Toml.Value

/-!
# Tables under construction

While a document is read, its tables grow by headers and by keys with values. `Node` is a table, a list of
tables or a finished value; a table remembers how it came to be, which decides what may still be added to it:

* a table that a header names, or that an element of a list of tables is, is `declared`, and no header may
  name it again;
* a table that only the longer name of a header implies is `implied`, and one header may name it later;
* a table that a dotted key implies is `dotted`; only dotted keys add to it, next to each other.
-/

namespace EntityQuery.Toml

/-- How a table came to be. -/
inductive Origin where
  | declared
  | implied
  | dotted
deriving DecidableEq

/-- A part of a document under construction. -/
inductive Node where
  | leaf (v : Value)
  | table (origin : Origin) (entries : List (String × Node))
  /-- A list of tables, the last first. -/
  | tables (last : List (String × Node)) (before : List (List (String × Node)))

/-- The entries of a table under construction. -/
abbrev Entries := List (String × Node)

namespace Entries

/-- Puts a node in the place of the one under its name, or at the end. -/
def put (name : String) (n : Node) : Entries → Entries
  | [] => [(name, n)]
  | e :: rest => if e.1 == name then (name, n) :: rest else e :: put name n rest

/-! ## Headers -/

/-- Goes down the names of a path to the table that they lead to and changes its entries. Tables on the way
that are not there are implied; of a list of tables the last one is meant. -/
def descend (change : Entries → Option Entries) : List String → Entries → Option Entries
  | [], entries => change entries
  | name :: path, entries =>
    match entries.lookup name with
    | none => do
      let inner ← descend change path []
      return put name (.table .implied inner) entries
    | some (.table origin inner) => do
      let inner ← descend change path inner
      return put name (.table origin inner) entries
    | some (.tables last before) => do
      let last ← descend change path last
      return put name (.tables last before) entries
    | some (.leaf _) => none

/-- Declares a table and fills it. It must be new or implied. -/
def declare (fill : Entries → Option Entries) (name : String) (entries : Entries) : Option Entries :=
  match entries.lookup name with
  | none => do
    let inner ← fill []
    return put name (.table .declared inner) entries
  | some (.table .implied inner) => do
    let inner ← fill inner
    return put name (.table .declared inner) entries
  | _ => none

/-- Appends a table to a list of tables and fills it. The list must be new or already one. -/
def append (fill : Entries → Option Entries) (name : String) (entries : Entries) : Option Entries :=
  match entries.lookup name with
  | none => do
    let inner ← fill []
    return put name (.tables inner []) entries
  | some (.tables last before) => do
    let inner ← fill []
    return put name (.tables inner (last :: before)) entries
  | _ => none

/-! ## Keys -/

/-- Adds a value under a name that must be new. -/
def addValue (name : String) (v : Value) (entries : Entries) : Option Entries :=
  match entries.lookup name with
  | none => some (put name (.leaf v) entries)
  | some _ => none

/-- Adds a value by a dotted key. Tables on the way that are there must not be declared, and the table that
takes the value must have come to be by a dotted key. -/
def addDotted (v : Value) (name : String) : List String → Entries → Option Entries
  | [], entries => addValue name v entries
  | part :: path, entries =>
    match entries.lookup part with
    | none => do
      let inner ← addDotted v name path []
      return put part (.table .dotted inner) entries
    | some (.table origin inner) =>
      if origin = .declared ∨ (path.isEmpty ∧ origin ≠ .dotted) then none
      else do
        let inner ← addDotted v name path inner
        return put part (.table origin inner) entries
    | some (.tables last before) =>
      if path.isEmpty then none
      else do
        let last ← addDotted v name path last
        return put part (.tables last before) entries
    | some (.leaf _) => none

/-- Adds the values of a list by their keys; a key is its parts before the last and the last. -/
def addAll : List ((List String × String) × Value) → Entries → Option Entries
  | [], entries => some entries
  | ((path, name), v) :: rest, entries => (addDotted v name path entries).bind (addAll rest)

end Entries

/-! ## Finished values -/

mutual

/-- The value of a node. -/
def Node.value : Node → Value
  | .leaf v => v
  | .table _ entries => .table (Node.values entries)
  | .tables last before => .array ((Node.elements before).reverse ++ [.table (Node.values last)])

/-- The values of the entries of a table. -/
def Node.values : List (String × Node) → List (String × Value)
  | [] => []
  | (name, n) :: rest => (name, Node.value n) :: Node.values rest

/-- The values of the tables of a list. -/
def Node.elements : List (List (String × Node)) → List Value
  | [] => []
  | entries :: rest => .table (Node.values entries) :: Node.elements rest

end

end EntityQuery.Toml
