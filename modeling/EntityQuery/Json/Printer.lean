import EntityQuery.Json.Basic
import EntityQuery.Numeric.Shortest
import EntityQuery.Text.Hex

/-!
# Writing JSON

`Json.text` is the compact text of a value: no blanks, members in their order, and only the quotation
mark, the backslash and the control characters escaped. A double is written with the fewest digits that
read back and always with a point or an exponent, so that it stays apart from an integer.
-/

namespace EntityQuery.Json

/-! ## Numbers -/

/-- Where doubles are written without an exponent: the decimal exponents of the leading digit. -/
structure FloatLayout where
  leastPlain : Int
  greatestPlain : Int

/-- From `0.00001` to below `1e+16` a double is written without an exponent. -/
def floatLayout : FloatLayout := { leastPlain := -5, greatestPlain := 15 }

/-- A list of digits without the zeros at its end. -/
def significantDigits (digits : List Char) : List Char :=
  (digits.reverse.dropWhile (· = '0')).reverse

/-- Digits with the point after the leading digit of exponent `top`, zeros filled in. -/
def plainDigits (digits : List Char) (top : Int) : List Char :=
  if top < 0 then '0' :: '.' :: List.replicate (-top - 1).toNat '0' ++ digits
  else
    let whole := top.toNat + 1
    if digits.length ≤ whole then digits ++ List.replicate (whole - digits.length) '0' ++ ['.', '0']
    else digits.take whole ++ '.' :: digits.drop whole

/-- Digits with the point after the first one and an exponent with its sign. -/
def scientificDigits (digits : List Char) (top : Int) : List Char :=
  let mantissa := match digits with
    | [] => []
    | [d] => [d]
    | d :: rest => d :: '.' :: rest
  mantissa ++ 'e' :: (if top < 0 then '-' else '+') :: Decimal.digitsOfNat top.natAbs

/-- A positive decimal in a layout. -/
def decimalText (layout : FloatLayout) (d : Decimal) : List Char :=
  let written := Decimal.digitsOfNat d.coefficient
  let top := d.exponent + written.length - 1
  let digits := significantDigits written
  if layout.leastPlain ≤ top ∧ top ≤ layout.greatestPlain then plainDigits digits top
  else scientificDigits digits top

/-- The text of a double. -/
def floatText (x : Binary64) : List Char :=
  let digits := if x.magnitude = 0 then ['0', '.', '0'] else decimalText floatLayout x.shortest
  if x.negative then '-' :: digits else digits

/-- The text of an integer. -/
def intText (n : Int) : List Char :=
  if n < 0 then '-' :: Decimal.digitsOfNat n.natAbs else Decimal.digitsOfNat n.natAbs

/-- The text of a number. -/
def numberText : Number → List Char
  | .int n _ => intText n
  | .float x => floatText x

/-! ## Strings -/

/-- How a character is written inside a string. -/
def escapedChar (c : Char) : List Char :=
  match c with
  | '"' => ['\\', '"']
  | '\\' => ['\\', '\\']
  | '\x08' => ['\\', 'b']
  | '\x09' => ['\\', 't']
  | '\x0a' => ['\\', 'n']
  | '\x0c' => ['\\', 'f']
  | '\x0d' => ['\\', 'r']
  | c => if c.toNat < 0x20 then ['\\', 'u', '0', '0'] ++ Text.hexOfByte c.toNat.toUInt8 else [c]

/-- The text of a string. -/
def stringText (s : String) : List Char := '"' :: s.toList.flatMap escapedChar ++ ['"']

/-! ## Values -/

mutual

/-- The text of a value. -/
def render : Json → List Char
  | .null => ['n', 'u', 'l', 'l']
  | .bool true => ['t', 'r', 'u', 'e']
  | .bool false => ['f', 'a', 'l', 's', 'e']
  | .number n => numberText n
  | .string s => stringText s
  | .array [] => ['[', ']']
  | .array (x :: xs) => '[' :: render x ++ renderItems xs
  | .object [] => ['\x7b', '\x7d']
  | .object ((name, x) :: xs) => '\x7b' :: stringText name ++ ':' :: render x ++ renderMembers xs

/-- The text of the items after the first, up to the end of the array. -/
def renderItems : List Json → List Char
  | [] => [']']
  | x :: xs => ',' :: render x ++ renderItems xs

/-- The text of the members after the first, up to the end of the object. -/
def renderMembers : List (String × Json) → List Char
  | [] => ['\x7d']
  | (name, x) :: xs => ',' :: stringText name ++ ':' :: render x ++ renderMembers xs

end

/-- The text of a value. -/
def text (v : Json) : String := String.ofList (render v)

end EntityQuery.Json
