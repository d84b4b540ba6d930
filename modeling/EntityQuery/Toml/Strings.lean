import EntityQuery.Text.Hex

/-!
# Strings of a TOML document

Between single quotation marks text stands as it is, between double ones it may hold escapes. Between three
marks of a kind it may run over lines: a line break right after the opening marks does not count, and in the
escaping kind a backslash at the end of a line joins it with the next text. One or two marks may stand before
the closing three.

The readers start after the opening marks and give the text with what follows the closing marks.
-/

namespace EntityQuery.Toml.Strings

/-- Whether a character may stand in strings and comments: tab is the only control character that may. -/
def isPlain (c : Char) : Bool := c = '\t' || (0x20 ≤ c.toNat && c.toNat != 0x7F)

/-- Whether a character is a blank within a line. -/
def isBlank (c : Char) : Bool := c = ' ' || c = '\t'

/-- The number of characters of the line break that a text starts with, zero if it starts with none. -/
def newlineLength : List Char → Nat
  | '\n' :: _ => 1
  | '\r' :: '\n' :: _ => 2
  | _ => 0

/-- The number of blanks and line breaks, in characters, that a text starts with. -/
def layoutLength : List Char → Nat
  | ' ' :: rest => layoutLength rest + 1
  | '\t' :: rest => layoutLength rest + 1
  | '\n' :: rest => layoutLength rest + 1
  | '\r' :: '\n' :: rest => layoutLength rest + 2
  | _ => 0

/-! ## Escapes -/

/-- The number written by a list of hexadecimal digits. -/
def hexNumber? (digits : List Char) : Option Nat :=
  digits.foldlM (fun n c => (Text.hexValue? c).map fun d => 16 * n + d) 0

/-- The character whose number is given by the `count` hexadecimal digits at the start of a text. -/
def numbered? (count : Nat) (cs : List Char) : Option Char := do
  let digits := cs.take count
  let n ← if digits.length = count then hexNumber? digits else none
  if n.isValidChar then some (Char.ofNat n) else none

/-- The character of an escape after its backslash, and how many characters the escape takes. -/
def escape? : List Char → Option (Char × Nat)
  | [] => none
  | e :: rest =>
    match e with
    | 'b' => some ('\x08', 1)
    | 't' => some ('\t', 1)
    | 'n' => some ('\n', 1)
    | 'f' => some ('\x0c', 1)
    | 'r' => some ('\r', 1)
    | 'e' => some ('\x1b', 1)
    | '"' => some ('"', 1)
    | '\\' => some ('\\', 1)
    | 'x' => (numbered? 2 rest).map fun c => (c, 3)
    | 'u' => (numbered? 4 rest).map fun c => (c, 5)
    | 'U' => (numbered? 8 rest).map fun c => (c, 9)
    | _ => none

/-- How many characters after a backslash at the end of a line do not count, `none` when the backslash is not
at the end of its line. -/
def continuation? (cs : List Char) : Option Nat :=
  if newlineLength (cs.dropWhile isBlank) = 0 then none else some (layoutLength cs)

/-! ## Bodies -/

/-- Reads a string of one line with escapes. -/
def basic? (cs : List Char) : Option (List Char × List Char) :=
  match cs with
  | [] => none
  | '"' :: rest => some ([], rest)
  | '\\' :: rest =>
    match escape? rest with
    | none => none
    | some (c, count) => (basic? (rest.drop count)).map fun r => (c :: r.1, r.2)
  | c :: rest => if isPlain c then (basic? rest).map fun r => (c :: r.1, r.2) else none
termination_by cs.length
decreasing_by all_goals simp; try omega

/-- Reads a string of one line without escapes. -/
def literal? : List Char → Option (List Char × List Char)
  | [] => none
  | c :: rest =>
    if c = '\'' then some ([], rest)
    else if isPlain c then (literal? rest).map fun r => (c :: r.1, r.2)
    else none

/-- The marks that still belong to a string after three of them, at most two, and the rest. -/
def closing (mark : Char) : List Char → List Char × List Char
  | [] => ([], [])
  | [a] => if a = mark then ([mark], []) else ([], [a])
  | a :: b :: rest =>
    if a = mark then (if b = mark then ([mark, mark], rest) else ([mark], b :: rest)) else ([], a :: b :: rest)

/-- Whether a text starts with three marks. -/
def isClosed (mark : Char) : List Char → Bool
  | a :: b :: c :: _ => a = mark && b = mark && c = mark
  | _ => false

/-- Reads a string of many lines with escapes. -/
def basicLines? (cs : List Char) : Option (List Char × List Char) :=
  match cs with
  | [] => none
  | c :: rest =>
    if isClosed '"' (c :: rest) then some (closing '"' (rest.drop 2))
    else if c = '\\' then
      match continuation? rest with
      | some count => basicLines? (rest.drop count)
      | none =>
        match escape? rest with
        | none => none
        | some (e, count) => (basicLines? (rest.drop count)).map fun r => (e :: r.1, r.2)
    else if newlineLength (c :: rest) ≠ 0 then
      (basicLines? (rest.drop (newlineLength (c :: rest) - 1))).map fun r => ('\n' :: r.1, r.2)
    else if isPlain c then (basicLines? rest).map fun r => (c :: r.1, r.2)
    else none
termination_by cs.length
decreasing_by all_goals simp; try omega

/-- Reads a string of many lines without escapes. -/
def literalLines? (cs : List Char) : Option (List Char × List Char) :=
  match cs with
  | [] => none
  | c :: rest =>
    if isClosed '\'' (c :: rest) then some (closing '\'' (rest.drop 2))
    else if newlineLength (c :: rest) ≠ 0 then
      (literalLines? (rest.drop (newlineLength (c :: rest) - 1))).map fun r => ('\n' :: r.1, r.2)
    else if isPlain c then (literalLines? rest).map fun r => (c :: r.1, r.2)
    else none
termination_by cs.length
decreasing_by all_goals simp; try omega

/-! ## Strings -/

/-- Reads a string of one line with its marks. -/
def line? : List Char → Option (String × List Char)
  | '"' :: rest => (basic? rest).map fun r => (String.ofList r.1, r.2)
  | '\'' :: rest => (literal? rest).map fun r => (String.ofList r.1, r.2)
  | _ => none

/-- Reads a string of any kind with its marks. -/
def string? (cs : List Char) : Option (String × List Char) :=
  let body := (cs.drop 3).drop (newlineLength (cs.drop 3))
  if isClosed '"' cs then (basicLines? body).map fun r => (String.ofList r.1, r.2)
  else if isClosed '\'' cs then (literalLines? body).map fun r => (String.ofList r.1, r.2)
  else line? cs

end EntityQuery.Toml.Strings
