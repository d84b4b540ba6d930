import EntityQuery.Toml.Scalar
import EntityQuery.Toml.Strings
import EntityQuery.Toml.Table

/-!
# Reading TOML documents

`Toml.parse?` takes a text to the entries of its root table. Inline tables and arrays may run over lines, hold
comments and end with a comma; a key stands on one line. Arrays and inline tables nest to a depth of eighty, and
a key has at most eighty parts.

Every level of nesting and every item takes at least one character, so twice the length of the text bounds the
recursion of the readers.
-/

namespace EntityQuery.Toml

namespace Parser

open Strings

/-- The depth to which values may nest, and the greatest number of parts of a key. -/
def nestingLimit : Nat := 80

/-! ## Blanks, line breaks and comments -/

/-- The text after its leading blanks. -/
def skipBlanks (cs : List Char) : List Char := cs.dropWhile isBlank

/-- The text after its leading blanks, line breaks and comments. -/
def layout? (inComment : Bool) : List Char → Option (List Char)
  | [] => some []
  | c :: rest =>
    if newlineLength (c :: rest) ≠ 0 then layout? false rest
    else if inComment then (if isPlain c then layout? true rest else none)
    else if isBlank c then layout? false rest
    else if c = '#' then layout? true rest
    else some (c :: rest)

/-- The text from the end of a comment on. -/
def comment? : List Char → Option (List Char)
  | [] => some []
  | c :: rest =>
    if newlineLength (c :: rest) ≠ 0 then some (c :: rest)
    else if isPlain c then comment? rest
    else none

/-- The text after the end of a line, which may hold blanks and a comment. -/
def lineEnd? (cs : List Char) : Option (List Char) := do
  let rest ← match skipBlanks cs with
    | '#' :: rest => comment? rest
    | rest => some rest
  if rest.isEmpty then some []
  else if newlineLength rest = 0 then none
  else some (rest.drop (newlineLength rest))

/-! ## Keys -/

/-- Whether a character may stand in a key without quotation marks. -/
def isBare (c : Char) : Bool := c.isAlphanum || c = '_' || c = '-'

/-- Reads one part of a key. -/
def keyPart? (cs : List Char) : Option (String × List Char) :=
  match cs with
  | [] => none
  | c :: _ =>
    if c = '"' ∨ c = '\'' then line? cs
    else
      let bare := cs.takeWhile isBare
      if bare.isEmpty then none else some (String.ofList bare, cs.dropWhile isBare)

/-- Reads a key: its parts before the last, and the last. -/
def key? : Nat → List Char → Option ((List String × String) × List Char)
  | 0, _ => none
  | fuel + 1, cs => do
    let (part, rest) ← keyPart? cs
    match skipBlanks rest with
    | '.' :: rest =>
      let ((path, name), rest) ← key? fuel (skipBlanks rest)
      return ((part :: path, name), rest)
    | _ => return (([], part), rest)

/-- The text after blanks, an equals sign and blanks. -/
def equals? (cs : List Char) : Option (List Char) :=
  match skipBlanks cs with
  | '=' :: rest => some (skipBlanks rest)
  | _ => none

/-- The text after an equals sign, which line breaks and comments may surround as well. -/
def looseEquals? (cs : List Char) : Option (List Char) := do
  match ← layout? false cs with
  | '=' :: rest => layout? false rest
  | _ => none

/-! ## Values -/

mutual

/-- Reads a value that may nest to a depth. -/
def value? : Nat → Nat → List Char → Option (Value × List Char)
  | 0, _, _ => none
  | fuel + 1, depth, cs =>
    match cs with
    | '[' :: rest =>
      if depth = 0 then none else (items? fuel (depth - 1) rest).map fun r => (.array r.1, r.2)
    | '\x7b' :: rest =>
      if depth = 0 then none
      else do
        let (pairs, rest) ← pairs? fuel (depth - 1) rest
        let entries ← Entries.addAll pairs []
        return (.table (Node.values entries), rest)
    | c :: rest =>
      if c = '"' ∨ c = '\'' then (string? (c :: rest)).map fun r => (.string r.1, r.2)
      else
        let (word, rest) := Scalar.word (c :: rest)
        (Scalar.value? word).map fun v => (v, rest)
    | [] => none

/-- Reads the items of an array and its end. -/
def items? : Nat → Nat → List Char → Option (List Value × List Char)
  | 0, _, _ => none
  | fuel + 1, depth, cs => do
    match ← layout? false cs with
    | ']' :: rest => return ([], rest)
    | cs =>
      let (v, rest) ← value? fuel depth cs
      match ← layout? false rest with
      | ',' :: rest =>
        let (vs, rest) ← items? fuel depth rest
        return (v :: vs, rest)
      | ']' :: rest => return ([v], rest)
      | _ => none

/-- Reads the keys and values of an inline table and its end. -/
def pairs? : Nat → Nat → List Char → Option (List ((List String × String) × Value) × List Char)
  | 0, _, _ => none
  | fuel + 1, depth, cs => do
    match ← layout? false cs with
    | '\x7d' :: rest => return ([], rest)
    | cs =>
      let (key, rest) ← key? nestingLimit cs
      let (v, rest) ← value? fuel depth (← looseEquals? rest)
      match ← layout? false rest with
      | ',' :: rest =>
        let (ps, rest) ← pairs? fuel depth rest
        return ((key, v) :: ps, rest)
      | '\x7d' :: rest => return ([(key, v)], rest)
      | _ => none

end

/-! ## Documents -/

/-- A header: whether it appends to a list of tables, and the name of the table. -/
structure Header where
  appends : Bool
  path : List String
  name : String

/-- A line of a document, blank lines apart. -/
inductive Line where
  | header (h : Header)
  | pair (key : List String × String) (v : Value)

/-- Reads the rest of a header after its opening brackets. -/
def header? (appends : Bool) (cs : List Char) : Option (Header × List Char) := do
  let ((path, name), rest) ← key? nestingLimit (skipBlanks cs)
  let close := if appends then [']', ']'] else [']']
  let rest := skipBlanks rest
  if rest.take close.length = close then some ({ appends, path, name }, rest.drop close.length) else none

/-- Reads a line without its end. -/
def line? (fuel : Nat) (cs : List Char) : Option (Line × List Char) :=
  match cs with
  | '[' :: '[' :: rest => (header? true rest).map fun r => (.header r.1, r.2)
  | '[' :: rest => (header? false rest).map fun r => (.header r.1, r.2)
  | cs => do
    let (key, rest) ← key? nestingLimit cs
    let (v, rest) ← value? fuel nestingLimit (← equals? rest)
    return (.pair key v, rest)

/-- Reads the lines of a document. -/
def lines? : Nat → List Char → Option (List Line)
  | 0, _ => none
  | fuel + 1, cs => do
    match ← layout? false cs with
    | [] => return []
    | cs =>
      let (line, rest) ← line? (2 * cs.length + 2) cs
      let lines ← lines? fuel (← lineEnd? rest)
      return line :: lines

/-- The keys and values before the first header, and each header with the keys and values after it. -/
def sections : List Line → List ((List String × String) × Value) ×
    List (Header × List ((List String × String) × Value))
  | [] => ([], [])
  | .pair key v :: rest => ((key, v) :: (sections rest).1, (sections rest).2)
  | .header h :: rest => ([], (h, (sections rest).1) :: (sections rest).2)

/-- Adds the table of a header to a document. -/
def addSection (entries : Entries) (s : Header × List ((List String × String) × Value)) : Option Entries :=
  let fill := Entries.addAll s.2
  let change := if s.1.appends then Entries.append fill s.1.name else Entries.declare fill s.1.name
  Entries.descend change s.1.path entries

end Parser

/-- The entries of the root table of a document. -/
def parse? (text : String) : Option (List (String × Value)) := do
  let cs := match text.toList with
    | '\uFEFF' :: rest => rest
    | cs => cs
  let lines ← Parser.lines? (cs.length + 1) cs
  let (pairs, sections) := Parser.sections lines
  let entries ← Entries.addAll pairs []
  let entries ← sections.foldlM Parser.addSection entries
  return Node.values entries

end EntityQuery.Toml
