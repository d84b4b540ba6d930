import EntityQuery.Text.Hex
import EntityQuery.Text.Hidden

/-!
# Quoted text

`Text.quoted` writes a text between quotation marks so that it can be read without doubt: a
backslash stands before a quotation mark and a backslash, the usual letters stand for tab, line feed,
carriage return and NUL, and every other hidden character is written as its code point.
-/

namespace EntityQuery.Text

/-- How a character is written inside a quoted text. -/
def quotedChar (c : Char) : List Char :=
  match c with
  | '"' => ['\\', '"']
  | '\\' => ['\\', '\\']
  | '\t' => ['\\', 't']
  | '\n' => ['\\', 'n']
  | '\r' => ['\\', 'r']
  | '\x00' => ['\\', '0']
  | c => if isHidden c then ['\\', 'u', '\x7b'] ++ hexOfNat c.toNat ++ ['\x7d'] else [c]

/-- A text between quotation marks. -/
def quoted (text : String) : String :=
  String.ofList ('"' :: text.toList.flatMap quotedChar ++ ['"'])

end EntityQuery.Text
