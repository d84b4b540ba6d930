import EntityQuery.Toml.Strings
import EntityQuery.Toml.Value

/-!
# Words of a TOML document

The values that are written as one word without quotation marks: truth values, integers, reals, dates and
times. `Scalar.value?` takes a whole word to its value.

A word runs to the next mark, comment or line break, over blanks between its parts: a date and a time are one
word. Digits of numbers may be set apart by underscores. A word that is laid out as an integer is taken even
if it has no digits after the mark of its base, or others than digits after its first underscore; it is no
number then.
-/

namespace EntityQuery.Toml.Scalar

/-- The sign of a word, if it has one, and the word without it. -/
def unsign : List Char → Option Char × List Char
  | '-' :: rest => (some '-', rest)
  | '+' :: rest => (some '+', rest)
  | word => (none, word)

/-- An integer with a sign. -/
def signed (sign : Option Char) (n : Nat) : Int := if sign = some '-' then -n else n

/-! ## Underscores -/

/-- Whether every underscore of the rest of a word has a digit before it and after it; `afterDigit` tells
whether the character before the rest is a digit. -/
def isSpacedFrom (isDigit : Char → Bool) (afterDigit : Bool) : List Char → Bool
  | [] => true
  | c :: rest =>
    if c = '_' then afterDigit && rest.head?.any isDigit && isSpacedFrom isDigit false rest
    else isSpacedFrom isDigit (isDigit c) rest

/-- Whether every underscore of a word has a digit before it and after it. -/
def isSpaced (isDigit : Char → Bool) (word : List Char) : Bool := isSpacedFrom isDigit false word

/-- The digits of a word that holds nothing else but underscores, and one digit at least. -/
def digits? (word : List Char) : Option (List Char) :=
  let digits := word.filter (· != '_')
  if digits.isEmpty ∨ !digits.all Decimal.isDigit then none else some digits

/-! ## Integers -/

/-- Whether a character is a digit in a base up to sixteen. -/
def isDigitOf (base : Nat) (c : Char) : Bool := (Text.hexValue? c).any fun d => d < base

/-- The natural number of digits in a base, `none` if there are no digits or others. -/
def natOfDigits? (base : Nat) (digits : List Char) : Option Nat :=
  if digits.isEmpty ∨ !digits.all (isDigitOf base) then none
  else some (digits.foldl (fun n c => base * n + (Text.hexValue? c).getD 0) 0)

/-- The value of a word that is laid out as an integer in a base, given without sign and mark. -/
def integer (base : Nat) (sign : Option Char) (word : List Char) : Value :=
  match natOfDigits? base (word.filter (· != '_')) with
  | some n => .integer (signed sign n)
  | none => .illegible (String.ofList word)

/-- The value of an integer in a base, given without the mark of the base. It has no sign. -/
def based? (base : Nat) (word : List Char) : Option Value :=
  if word.all (fun c => c = '_' || isDigitOf base c) && isSpaced (isDigitOf 16) word then
    some (integer base none word)
  else none

/-- The value of a decimal integer, given without its sign. It starts with a digit, has no leading zero and
holds no space; all else that follows its first underscore is taken as it is. -/
def whole? (sign : Option Char) (word : List Char) : Option Value :=
  if word.isEmpty ∨ (word.head? = some '0' ∧ 1 < word.length) ∨ word.contains ' ' then none
  else if (word.dropWhile Decimal.isDigit).head?.all (· = '_') && isSpaced (isDigitOf 16) word then
    some (integer 10 sign word)
  else none

/-! ## Reals -/

/-- A word cut at the first character that passes a test, which is dropped; `none` if there is no such. -/
def cut? (stop : Char → Bool) (word : List Char) : Option (List Char × List Char) :=
  match word.dropWhile fun c => !stop c with
  | [] => none
  | _ :: rest => some (word.takeWhile fun c => !stop c, rest)

/-- The digits before the point of a real, which have no leading zero. -/
def mantissa? (word : List Char) : Option (List Char) := do
  let digits ← digits? word
  if word.head? = some '0' ∧ 1 < digits.length then none else some digits

/-- The exponent of a real. -/
def exponent? (word : List Char) : Option Int := do
  let (sign, rest) := unsign word
  let digits ← digits? rest
  return signed sign (Decimal.natOfDigits digits)

/-- The real of a word without its sign: it has a fraction, an exponent or both. -/
def decimal? (word : List Char) : Option Decimal := do
  let (plain, exponent) ← match cut? (fun c => c = 'e' || c = 'E') word with
    | none => some (word, none)
    | some (plain, rest) => (exponent? rest).map fun e => (plain, some e)
  match cut? (· = '.') plain with
  | none =>
    let whole ← mantissa? plain
    let exponent ← exponent
    return Decimal.ofLiteral whole [] exponent
  | some (whole, fraction) =>
    let whole ← mantissa? whole
    let fraction ← digits? fraction
    return Decimal.ofLiteral whole fraction (exponent.getD 0)

/-- The real of a word, given without its sign. -/
def real? (sign : Option Char) (word : List Char) : Option Real :=
  let negative := sign = some '-'
  if word = "inf".toList then some (.infinity negative)
  else if word = "nan".toList then some .nan
  else if isSpaced Decimal.isDigit word then (decimal? word).map (.decimal negative)
  else none

/-! ## Numbers -/

/-- The value of a number. A point or an exponent makes it a real, and so the letter `e` anywhere. -/
def number? (word : List Char) : Option Value :=
  match word with
  | '0' :: 'x' :: rest => based? 16 rest
  | '0' :: 'o' :: rest => based? 8 rest
  | '0' :: 'b' :: rest => based? 2 rest
  | _ =>
    let (sign, rest) := unsign word
    match real? sign rest with
    | some x => some (.real x)
    | none => if rest.any fun c => c = '.' || c = 'e' || c = 'E' then none else whole? sign rest

/-! ## Dates and times -/

/-- Reads a number of exactly `count` digits at the start of a word. -/
def fixed? (count : Nat) (word : List Char) : Option (Nat × List Char) :=
  let digits := word.take count
  if digits.length = count ∧ digits.all Decimal.isDigit then
    some (Decimal.natOfDigits digits, word.drop count)
  else none

/-- The rest of a word after a character. -/
def after? (c : Char) : List Char → Option (List Char)
  | d :: rest => if d = c then some rest else none
  | [] => none

/-- Whether a year has a twenty-ninth of February. -/
def isLeapYear (year : Nat) : Bool := year % 4 == 0 && (year % 100 != 0 || year % 400 == 0)

/-- The number of days of a month. -/
def daysOfMonth (year month : Nat) : Nat :=
  if month = 2 then (if isLeapYear year then 29 else 28)
  else if [4, 6, 9, 11].contains month then 30
  else 31

/-- The rest of a word after a date of the calendar. -/
def date? (word : List Char) : Option (List Char) := do
  let (year, rest) ← fixed? 4 word
  let (month, rest) ← fixed? 2 (← after? '-' rest)
  let (day, rest) ← fixed? 2 (← after? '-' rest)
  if 1 ≤ month ∧ month ≤ 12 ∧ 1 ≤ day ∧ day ≤ daysOfMonth year month then some rest else none

/-- The rest of a word after the seconds of a time, with or without a fraction. -/
def seconds? (word : List Char) : Option (List Char) := do
  let (second, rest) ← fixed? 2 word
  if 60 < second then none
  else match rest with
    | '.' :: rest =>
      if (rest.takeWhile Decimal.isDigit).isEmpty then none else some (rest.dropWhile Decimal.isDigit)
    | rest => some rest

/-- The rest of a word after a time of day; seconds may be left out. -/
def time? (word : List Char) : Option (List Char) := do
  let (hour, rest) ← fixed? 2 word
  let (minute, rest) ← fixed? 2 (← after? ':' rest)
  if 23 < hour ∨ 59 < minute then none
  else match rest with
    | ':' :: rest => seconds? rest
    | rest => some rest

/-- The rest of a word after an offset from UTC, which may be absent. -/
def offset? (word : List Char) : Option (List Char) :=
  match word with
  | [] => some []
  | c :: rest =>
    if c = 'Z' ∨ c = 'z' then some rest
    else if c = '+' ∨ c = '-' then do
      let (hour, rest) ← fixed? 2 rest
      let (minute, rest) ← fixed? 2 (← after? ':' rest)
      if 23 < hour ∨ 59 < minute then none else some rest
    else none

/-- Whether a word is a date, a time of day, or a date and a time with or without an offset. -/
def isMoment (word : List Char) : Bool :=
  match date? word with
  | some [] => true
  | some (c :: rest) =>
    (c = 'T' || c = 't' || c = ' ') && ((time? rest).bind offset?).any List.isEmpty
  | none => (time? word).any List.isEmpty

/-! ## Words -/

/-- The value of a word. -/
def value? (word : List Char) : Option Value :=
  if word = "true".toList then some (.boolean true)
  else if word = "false".toList then some (.boolean false)
  else if isMoment word then some (.moment (String.ofList word))
  else number? word

/-- Whether a character ends a word wherever it stands. -/
def endsWord (c : Char) : Bool :=
  ['=', ',', '[', ']', '\x7b', '\x7d', '#', '\r', '\n'].contains c

/-- Whether a text starts with a quotation mark. -/
def isQuoted (cs : List Char) : Bool := cs.head?.any fun c => c = '"' || c = '\''

/-- Takes a word from the start of a text. Blanks belong to it when more of the word follows, which does not
start with a quotation mark. -/
def word : List Char → List Char × List Char
  | [] => ([], [])
  | c :: rest =>
    if endsWord c || (Strings.isBlank c && isQuoted rest) then ([], c :: rest)
    else
      let (more, after) := word rest
      if Strings.isBlank c && more.isEmpty then ([], c :: rest) else (c :: more, after)

end EntityQuery.Toml.Scalar
