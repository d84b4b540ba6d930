import EntityQuery.Json.Basic
import EntityQuery.Numeric.Decimal
import EntityQuery.SortedMap
import EntityQuery.Text.Hex

/-!
# Reading JSON

`Json.parse?` reads one value with blanks around it. A literal without point and exponent that fits 64
bits, signed or unsigned, is an integer, `-0` apart; every other literal is the nearest double and has
to be finite. Members of an object come out sorted by name, and of a repeated name the last one stays.

The readers take the text that is left and give the text after what they read. Every level of nesting and
every item takes at least one character, so twice the length of the text bounds the recursion.
-/

namespace EntityQuery.Json.Parser

/-- The text after its leading blanks. -/
def skipBlank (cs : List Char) : List Char :=
  cs.dropWhile fun c => c = ' ' || c = '\t' || c = '\n' || c = '\r'

/-- The text after a given beginning. -/
def expect? : List Char → List Char → Option (List Char)
  | [], cs => some cs
  | _ :: _, [] => none
  | w :: ws, c :: cs => if w = c then expect? ws cs else none

/-! ## Numbers -/

/-- The exponent of a literal, zero when it has none; also whether it has one. -/
def exponent? (cs : List Char) : Option (Bool × Int × List Char) :=
  match cs with
  | e :: rest =>
    if e = 'e' ∨ e = 'E' then
      let signed : Bool × List Char := match rest with
        | '-' :: r => (true, r)
        | '+' :: r => (false, r)
        | r => (false, r)
      let digits := signed.2.takeWhile Decimal.isDigit
      if digits.isEmpty then none
      else
        let n : Int := Decimal.natOfDigits digits
        some (true, if signed.1 then -n else n, signed.2.dropWhile Decimal.isDigit)
    else some (false, 0, cs)
  | [] => some (false, 0, [])

/-- The fraction digits of a literal, none when it has no point; also whether it has one. -/
def fraction? (cs : List Char) : Option (Bool × List Char × List Char) :=
  match cs with
  | '.' :: rest =>
    let digits := rest.takeWhile Decimal.isDigit
    if digits.isEmpty then none else some (true, digits, rest.dropWhile Decimal.isDigit)
  | _ => some (false, [], cs)

/-- The number that a literal denotes. -/
def numberOfLiteral? (negative : Bool) (whole fraction : List Char) (exponent : Int) (plain : Bool) :
    Option Number :=
  let n : Int := Decimal.natOfDigits whole
  let integer? := if plain ∧ ¬ (negative ∧ n = 0) then Number.ofInt? (if negative then -n else n) else none
  match integer? with
  | some i => some i
  | none => (Decimal.ofLiteral whole fraction exponent).toBinary64? negative |>.map .float

/-- Reads a number. -/
def number? (cs : List Char) : Option (Json × List Char) := do
  let (negative, cs) := match cs with
    | '-' :: rest => (true, rest)
    | cs => (false, cs)
  let whole := cs.takeWhile Decimal.isDigit
  if whole.isEmpty ∨ (whole.head? = some '0' ∧ 1 < whole.length) then none
  else
    let (pointed, fraction, rest) ← fraction? (cs.dropWhile Decimal.isDigit)
    let (raised, exponent, rest) ← exponent? rest
    let n ← numberOfLiteral? negative whole fraction exponent (!pointed && !raised)
    return (.number n, rest)

/-! ## Strings -/

/-- The character of a one-letter escape. -/
def simpleEscape? (c : Char) : Option Char :=
  match c with
  | '"' => some '"'
  | '\\' => some '\\'
  | '/' => some '/'
  | 'b' => some '\x08'
  | 'f' => some '\x0c'
  | 'n' => some '\n'
  | 'r' => some '\r'
  | 't' => some '\t'
  | _ => none

/-- The UTF-16 unit written by four hexadecimal digits. -/
def unit? (a b c d : Char) : Option Nat := do
  let a ← Text.hexValue? a
  let b ← Text.hexValue? b
  let c ← Text.hexValue? c
  let d ← Text.hexValue? d
  return 4096 * a + 256 * b + 16 * c + d

/-- Reads the rest of a string after its opening mark. A high surrogate that still waits for its low
surrogate is in `pending`. -/
def stringBody? (pending : Option Nat) : List Char → Option (List Char × List Char)
  | '\\' :: 'u' :: a :: b :: c :: d :: rest => do
    let u ← unit? a b c d
    match pending with
    | some high =>
      if 0xDC00 ≤ u ∧ u < 0xE000 then
        let (body, rest) ← stringBody? none rest
        return (Char.ofNat (0x10000 + 0x400 * (high - 0xD800) + (u - 0xDC00)) :: body, rest)
      else none
    | none =>
      if 0xD800 ≤ u ∧ u < 0xDC00 then stringBody? (some u) rest
      else if 0xDC00 ≤ u ∧ u < 0xE000 then none
      else
        let (body, rest) ← stringBody? none rest
        return (Char.ofNat u :: body, rest)
  | c :: rest =>
    if pending.isSome then none
    else if c = '"' then some ([], rest)
    else if c = '\\' then
      match rest with
      | e :: rest => do
        let c ← simpleEscape? e
        let (body, rest) ← stringBody? none rest
        return (c :: body, rest)
      | [] => none
    else if c.toNat < 0x20 then none
    else do
      let (body, rest) ← stringBody? none rest
      return (c :: body, rest)
  | [] => none

/-- Reads a string. -/
def string? : List Char → Option (String × List Char)
  | '"' :: rest => do
    let (body, rest) ← stringBody? none rest
    return (String.ofList body, rest)
  | _ => none

/-! ## Values -/

mutual

/-- Reads a value after blanks. -/
def value? : Nat → List Char → Option (Json × List Char)
  | 0, _ => none
  | fuel + 1, cs =>
    match skipBlank cs with
    | '[' :: rest =>
      match skipBlank rest with
      | ']' :: rest => some (.array [], rest)
      | rest => (items? fuel rest).map fun r => (.array r.1, r.2)
    | '\x7b' :: rest =>
      match skipBlank rest with
      | '\x7d' :: rest => some (.object [], rest)
      | rest => (members? fuel rest).map fun r => (.object (SortedMap.ofList r.1).entries, r.2)
    | '"' :: rest => (string? ('"' :: rest)).map fun r => (.string r.1, r.2)
    | 'n' :: rest => (expect? ['u', 'l', 'l'] rest).map fun r => (.null, r)
    | 't' :: rest => (expect? ['r', 'u', 'e'] rest).map fun r => (.bool true, r)
    | 'f' :: rest => (expect? ['a', 'l', 's', 'e'] rest).map fun r => (.bool false, r)
    | cs => number? cs

/-- Reads the items of an array, one at least, and its end. -/
def items? : Nat → List Char → Option (List Json × List Char)
  | 0, _ => none
  | fuel + 1, cs => do
    let (x, rest) ← value? fuel cs
    match skipBlank rest with
    | ']' :: rest => return ([x], rest)
    | ',' :: rest =>
      let (xs, rest) ← items? fuel rest
      return (x :: xs, rest)
    | _ => none

/-- Reads the members of an object, one at least, and its end. -/
def members? : Nat → List Char → Option (List (String × Json) × List Char)
  | 0, _ => none
  | fuel + 1, cs => do
    let (name, rest) ← string? (skipBlank cs)
    let rest ← expect? [':'] (skipBlank rest)
    let (x, rest) ← value? fuel rest
    match skipBlank rest with
    | '\x7d' :: rest => return ([(name, x)], rest)
    | ',' :: rest =>
      let (xs, rest) ← members? fuel rest
      return ((name, x) :: xs, rest)
    | _ => none

end

end Parser

/-- The value that a text denotes. -/
def parse? (text : String) : Option Json := do
  let cs := text.toList
  let (v, rest) ← Parser.value? (2 * cs.length + 2) cs
  if (Parser.skipBlank rest).isEmpty then some v else none

end EntityQuery.Json
