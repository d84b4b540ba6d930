import EntityQuery.Json.Parser
import EntityQuery.Json.Printer
import Mathlib.Tactic.IntervalCases

/-!
# Reading a written string

* `Json.Parser.string?_stringText`: the reader gives back a written string and leaves what follows it;
* `Json.stringText_append_inj`: so the text of a string determines it, and where it ends.
-/

namespace EntityQuery

namespace Text

theorem hexValue?_hexDigit {n : Nat} (h : n < 16) : hexValue? (hexDigit n) = some n := by
  interval_cases n <;> rfl

end Text

namespace Json

namespace Parser

/-- The four digits of a control character read back. -/
theorem unit?_hexOfByte {n : Nat} (h : n < 0x20) :
    unit? '0' '0' (Text.hexDigit (n.toUInt8.toNat / 16)) (Text.hexDigit (n.toUInt8.toNat % 16)) = some n := by
  have hbyte : n.toUInt8.toNat = n := UInt8.toNat_ofNat_of_lt' (h.trans (by decide))
  have hzero : Text.hexValue? '0' = some 0 := by decide
  rw [hbyte, unit?, hzero, Text.hexValue?_hexDigit (by omega), Text.hexValue?_hexDigit (by omega)]
  simp only [Option.bind_eq_bind, Option.bind_some, Option.pure_def, Option.some.injEq]
  omega

@[simp] theorem stringBody?_quote (rest : List Char) : stringBody? none ('"' :: rest) = some ([], rest) := by
  rw [stringBody?.eq_def]
  simp

/-- A character that needs no escape stands for itself. -/
theorem stringBody?_plain {c : Char} (hquote : c ≠ '"') (hslash : c ≠ '\\') (hcontrol : ¬ c.toNat < 0x20)
    (rest : List Char) :
    stringBody? none (c :: rest) = (stringBody? none rest).map fun r => (c :: r.1, r.2) := by
  rw [stringBody?.eq_def]
  split
  · simp_all
  · rename_i heq
    obtain ⟨rfl, rfl⟩ := List.cons_eq_cons.mp heq
    simp [hquote, hslash, hcontrol, Option.map_eq_bind]
  · simp_all

/-- An escaped character is read as one character. -/
theorem stringBody?_escapedChar (c : Char) (rest : List Char) :
    stringBody? none (escapedChar c ++ rest) = (stringBody? none rest).map fun r => (c :: r.1, r.2) := by
  have hmap (d : Char) : ((stringBody? none rest).bind fun r => some (d :: r.1, r.2)) =
      (stringBody? none rest).map fun r => (d :: r.1, r.2) := Option.map_eq_bind.symm
  unfold escapedChar
  split
  · simpa [stringBody?, simpleEscape?] using hmap '"'
  · simpa [stringBody?, simpleEscape?] using hmap '\\'
  · simpa [stringBody?, simpleEscape?] using hmap '\x08'
  · simpa [stringBody?, simpleEscape?] using hmap '\x09'
  · simpa [stringBody?, simpleEscape?] using hmap '\x0a'
  · simpa [stringBody?, simpleEscape?] using hmap '\x0c'
  · simpa [stringBody?, simpleEscape?] using hmap '\x0d'
  · rename_i hquote hslash _ _ _ _ _
    split_ifs with hcontrol
    · have hunit := unit?_hexOfByte hcontrol
      have hchar : Char.ofNat c.toNat = c := Char.ofNat_toNat c
      have hsurrogate : ¬ 0xD800 ≤ c.toNat := by omega
      have hsurrogate' : ¬ 0xDC00 ≤ c.toNat := by omega
      simp only [Text.hexOfByte, List.cons_append, List.nil_append, stringBody?, hunit]
      simpa [hsurrogate, hsurrogate', hchar] using hmap c
    · exact stringBody?_plain hquote hslash hcontrol rest

theorem stringBody?_escaped (cs rest : List Char) :
    stringBody? none (cs.flatMap escapedChar ++ '"' :: rest) = some (cs, rest) := by
  induction cs with
  | nil => simp
  | cons c cs ih =>
    rw [List.flatMap_cons, List.append_assoc, stringBody?_escapedChar, ih]
    rfl

/-- The reader gives back a written string and leaves what follows it. -/
theorem string?_stringText (s : String) (rest : List Char) : string? (stringText s ++ rest) = some (s, rest) := by
  have htext : stringText s ++ rest = '"' :: (s.toList.flatMap escapedChar ++ '"' :: rest) := by
    simp [stringText]
  rw [htext, string?, stringBody?_escaped]
  simp

end Parser

/-- The text of a string determines it, and where it ends. -/
theorem stringText_append_inj {s t : String} {rest rest' : List Char}
    (h : stringText s ++ rest = stringText t ++ rest') : s = t ∧ rest = rest' := by
  have hread := Parser.string?_stringText s rest
  rw [h, Parser.string?_stringText] at hread
  simpa [eq_comm] using hread

end Json

end EntityQuery
