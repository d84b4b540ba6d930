import EntityQuery.Proofs.Json.Spellings
import EntityQuery.Proofs.Query.CacheKey
import EntityQuery.Query.Decoding

/-!
# Spellings of identifiers

An identifier is spelled by its thirty-two hexadecimal digits in either case: without hyphens, in five groups, in groups
within braces, or in groups after `urn:uuid:`. It is written in one of them, with lowercase digits in groups.

* `Text.bytesOfHex?_iff`: digits of either case denote the bytes whose lowercase digits they are;
* `Identifier.parse?_iff`, `Identifier.decode?_iff`: an identifier is read from its spellings;
* `Identifier.decode?_encode`: the written form is one of them.
-/

namespace EntityQuery

/-! ## Digits -/

namespace Text

theorem hexValue?_toLower (c : Char) : hexValue? c.toLower = hexValue? c := by
  by_cases h : 65 ≤ c.toNat ∧ c.toNat ≤ 90
  · obtain ⟨hlow, hhigh⟩ := h
    rw [← Char.ofNat_toNat c]
    interval_cases c.toNat <;> rfl
  · have hsame : c.toLower = c := dif_neg h
    rw [hsame]

theorem hexValue?_eq_some_iff {c : Char} {n : Nat} : hexValue? c = some n ↔ n < 16 ∧ c.toLower = hexDigit n := by
  constructor
  · intro h
    unfold hexValue? at h
    split_ifs at h with hdigit hlower hupper
    · have hlow : 48 ≤ c.toNat := hdigit.1
      have hhigh : c.toNat ≤ 57 := hdigit.2
      rw [← Option.some.inj h, ← Char.ofNat_toNat c]
      interval_cases c.toNat <;> decide
    · have hlow : 97 ≤ c.toNat := hlower.1
      have hhigh : c.toNat ≤ 102 := hlower.2
      rw [← Option.some.inj h, ← Char.ofNat_toNat c]
      interval_cases c.toNat <;> decide
    · have hlow : 65 ≤ c.toNat := hupper.1
      have hhigh : c.toNat ≤ 70 := hupper.2
      rw [← Option.some.inj h, ← Char.ofNat_toNat c]
      interval_cases c.toNat <;> decide
  · rintro ⟨hn, hc⟩
    rw [← hexValue?_toLower, hc, hexValue?_hexDigit hn]

theorem hexOfBytes_cons (b : UInt8) (bytes : List UInt8) :
    hexOfBytes (b :: bytes) = hexDigit (b.toNat / 16) :: hexDigit (b.toNat % 16) :: hexOfBytes bytes := rfl

/-- Digits of either case denote the bytes whose lowercase digits they are. -/
theorem bytesOfHex?_iff : ∀ {digits : List Char} {bytes : List UInt8},
    bytesOfHex? digits = some bytes ↔ digits.map Char.toLower = hexOfBytes bytes
  | [], bytes => by
    cases bytes with
    | nil => simp [bytesOfHex?, hexOfBytes]
    | cons b rest => simp [bytesOfHex?, hexOfBytes_cons]
  | [_], bytes => by
    cases bytes with
    | nil => simp [bytesOfHex?, hexOfBytes]
    | cons b rest => simp [bytesOfHex?, hexOfBytes_cons]
  | high :: low :: rest, bytes => by
    simp only [bytesOfHex?, Option.bind_eq_bind, Option.bind_eq_some_iff, hexValue?_eq_some_iff, Option.pure_def,
      Option.some.injEq, List.map_cons]
    constructor
    · rintro ⟨h, ⟨hh, hhigh⟩, l, ⟨hl, hlow⟩, tail, htail, rfl⟩
      have hsmall : 16 * h + l < 2 ^ 8 := by omega
      have hbyte : (UInt8.ofNat (16 * h + l)).toNat = 16 * h + l := UInt8.toNat_ofNat_of_lt' hsmall
      have hquot : (16 * h + l) / 16 = h := by omega
      have hrem : (16 * h + l) % 16 = l := by omega
      rw [hexOfBytes_cons, hbyte, hquot, hrem, hhigh, hlow, bytesOfHex?_iff.mp htail]
    · intro heq
      cases bytes with
      | nil => simp [hexOfBytes] at heq
      | cons b tail =>
        have hb := b.toNat_lt
        have hbyte : 16 * (b.toNat / 16) + b.toNat % 16 = b.toNat := Nat.div_add_mod _ _
        rw [hexOfBytes_cons] at heq
        injection heq with hhigh heq
        injection heq with hlow htail
        refine ⟨b.toNat / 16, ⟨by omega, hhigh⟩, b.toNat % 16, ⟨by omega, hlow⟩, tail, bytesOfHex?_iff.mpr htail, ?_⟩
        rw [hbyte, UInt8.ofNat_toNat]

end Text

namespace Identifier

/-- These are the digits of the identifier, in either case. -/
def Digits (i : Identifier) (cs : List Char) : Prop := cs.map Char.toLower = Text.hexOfBytes i.bytes

/-- These are the digits of the identifier in five groups with hyphens between them. -/
def Grouped (i : Identifier) (cs : List Char) : Prop :=
  ∃ a b c d e, a.length = 8 ∧ b.length = 4 ∧ c.length = 4 ∧ d.length = 4 ∧
    cs = a ++ '-' :: b ++ '-' :: c ++ '-' :: d ++ '-' :: e ∧ i.Digits (a ++ b ++ c ++ d ++ e)

/-- The spellings of an identifier. -/
inductive Spells (i : Identifier) : List Char → Prop where
  | plain {cs : List Char} (h : i.Digits cs) : Spells i cs
  | grouped {cs : List Char} (h : i.Grouped cs) : Spells i cs
  | braced {cs : List Char} (h : i.Grouped cs) : Spells i ('\x7b' :: (cs ++ ['\x7d']))
  | urn {start cs : List Char} (hstart : start.map Char.toLower = "urn:uuid:".toList) (h : i.Grouped cs) :
    Spells i (start ++ cs)

theorem Digits.length_eq {i : Identifier} {cs : List Char} (h : i.Digits cs) : cs.length = 32 := by
  have hlength := congrArg List.length h
  rwa [List.length_map, Text.length_hexOfBytes, i.length_bytes] at hlength

theorem Grouped.length_eq {i : Identifier} {cs : List Char} (h : i.Grouped cs) : cs.length = 36 := by
  obtain ⟨a, b, c, d, e, ha, hb, hc, hd, rfl, hdigits⟩ := h
  have hlength := hdigits.length_eq
  simp only [List.length_append, List.length_cons] at hlength ⊢
  omega

theorem eq_take_cons_drop {cs : List Char} {n : Nat} {c : Char} (h : cs[n]? = some c) :
    cs = cs.take n ++ c :: cs.drop (n + 1) := by
  obtain ⟨hn, rfl⟩ := List.getElem?_eq_some_iff.mp h
  rw [← List.drop_eq_getElem_cons hn, List.take_append_drop]

/-- The five groups are found at their places, and nowhere else. -/
theorem ungroup?_iff {cs digits : List Char} : ungroup? cs = some digits ↔
    ∃ a b c d e, a.length = 8 ∧ b.length = 4 ∧ c.length = 4 ∧ d.length = 4 ∧ e.length = 12 ∧
      cs = a ++ '-' :: b ++ '-' :: c ++ '-' :: d ++ '-' :: e ∧ digits = a ++ b ++ c ++ d ++ e := by
  unfold ungroup?
  dsimp only
  constructor
  · intro h
    split_ifs at h with hplaces
    obtain ⟨hlength, h8, h13, h18, h23⟩ := hplaces
    obtain rfl := Option.some.inj h
    have h13' : (cs.drop 9)[4]? = some '-' := by rw [List.getElem?_drop, h13]
    have h18' : (cs.drop 14)[4]? = some '-' := by rw [List.getElem?_drop, h18]
    have h23' : (cs.drop 19)[4]? = some '-' := by rw [List.getElem?_drop, h23]
    refine ⟨_, _, _, _, _, by simp [hlength], by simp [hlength], by simp [hlength], by simp [hlength],
      by simp [hlength], ?_, rfl⟩
    have hlast := eq_take_cons_drop h23'
    have hfourth := eq_take_cons_drop h18'
    have hthird := eq_take_cons_drop h13'
    rw [List.drop_drop] at hlast hfourth hthird
    simp only [List.append_assoc, List.cons_append]
    rw [← hlast, ← hfourth, ← hthird]
    exact eq_take_cons_drop h8
  · rintro ⟨a, b, c, d, e, ha, hb, hc, hd, he, rfl, rfl⟩
    simp (disch := omega) [List.getElem?_append, List.drop_append, List.drop_of_length_le, ha, hb, hc, hd, he,
      List.getElem?_cons_zero]

theorem Grouped.ungroup {i : Identifier} {cs : List Char} (h : i.Grouped cs) :
    ∃ digits, ungroup? cs = some digits ∧ i.Digits digits := by
  obtain ⟨a, b, c, d, e, ha, hb, hc, hd, hcs, hdigits⟩ := h
  have hlength := hdigits.length_eq
  simp only [List.length_append] at hlength
  have he : e.length = 12 := by omega
  exact ⟨_, ungroup?_iff.mpr ⟨a, b, c, d, e, ha, hb, hc, hd, he, hcs, rfl⟩, hdigits⟩

theorem grouped_of_ungroup? {i : Identifier} {cs digits : List Char} (h : ungroup? cs = some digits)
    (hdigits : i.Digits digits) : i.Grouped cs := by
  obtain ⟨a, b, c, d, e, ha, hb, hc, hd, -, hcs, rfl⟩ := ungroup?_iff.mp h
  exact ⟨a, b, c, d, e, ha, hb, hc, hd, hcs, hdigits⟩

theorem ofBytes?_eq_some_iff {bytes : List UInt8} {i : Identifier} : ofBytes? bytes = some i ↔ bytes = i.bytes := by
  unfold ofBytes?
  constructor
  · intro h
    split_ifs at h with hlength
    rw [← Option.some.inj h]
  · rintro rfl
    rw [dif_pos i.length_bytes]

/-- The digits that a text has for the form of its length are those of an identifier when the text spells it. -/
theorem digits?_iff {i : Identifier} {cs : List Char} :
    (∃ digits, digits? cs = some digits ∧ i.Digits digits) ↔ i.Spells cs := by
  constructor
  · rintro ⟨digits, hdigits, hi⟩
    unfold digits? at hdigits
    split at hdigits
    · obtain rfl := Option.some.inj hdigits
      exact .plain hi
    · exact .grouped (grouped_of_ungroup? hdigits hi)
    · rename_i hlength
      split_ifs at hdigits with hbraces
      obtain ⟨tail, rfl⟩ := List.head?_eq_some_iff.mp hbraces.1
      obtain ⟨cs, hcs⟩ := List.getLast?_eq_some_iff.mp hbraces.2
      cases cs with
      | nil => simp [hcs] at hlength
      | cons first cs =>
        injection hcs with hfirst htail
        have hinner : ('\x7b' :: tail).drop 1 = cs ++ ['\x7d'] := htail
        rw [hinner, List.dropLast_concat] at hdigits
        rw [htail]
        exact .braced (grouped_of_ungroup? hdigits hi)
    · split_ifs at hdigits with hstart
      rw [← List.take_append_drop 9 cs]
      exact .urn hstart (grouped_of_ungroup? hdigits hi)
    · cases hdigits
  · rintro (h | h | h | ⟨hstart, h⟩)
    · refine ⟨cs, ?_, h⟩
      simp [digits?, h.length_eq]
    · obtain ⟨digits, hdigits, hi⟩ := h.ungroup
      refine ⟨digits, ?_, hi⟩
      simp [digits?, h.length_eq, hdigits]
    · rename_i cs
      obtain ⟨digits, hdigits, hi⟩ := h.ungroup
      have hlast : ('\x7b' :: (cs ++ ['\x7d'])).getLast? = some '\x7d' := by
        rw [← List.cons_append, List.getLast?_concat]
      refine ⟨digits, ?_, hi⟩
      simp [digits?, h.length_eq, hdigits, hlast]
    · rename_i start cs
      obtain ⟨digits, hdigits, hi⟩ := h.ungroup
      have hlength : start.length = 9 := by simpa using congrArg List.length hstart
      refine ⟨digits, ?_, hi⟩
      simp [digits?, h.length_eq, hlength, hdigits, hstart]

/-- An identifier is read from its spellings. -/
theorem parse?_iff {i : Identifier} {text : String} : parse? text = some i ↔ i.Spells text.toList := by
  rw [← digits?_iff]
  simp only [parse?, Option.bind_eq_bind, Option.bind_eq_some_iff, ofBytes?_eq_some_iff, exists_eq_right,
    Text.bytesOfHex?_iff]
  rfl

theorem decode?_iff (i : Identifier) (v : Json) :
    decode? v = some i ↔ ∃ text, v = .string text ∧ i.Spells text.toList := by
  unfold decode?
  simp only [Option.bind_eq_some_iff, Json.asString?_iff, Json.SpellsAs, parse?_iff]

/-- The written form has lowercase digits in five groups. -/
theorem spells_text (i : Identifier) : i.Spells i.text.toList := by
  have hlower : ∀ bytes, (Text.hexOfBytes bytes).map Char.toLower = Text.hexOfBytes bytes :=
    fun bytes => Text.bytesOfHex?_iff.mp (Text.bytesOfHex?_hexOfBytes bytes)
  have hgroups : Text.hexOfBytes ((i.bytes.drop 0).take 4) ++ Text.hexOfBytes ((i.bytes.drop 4).take 2) ++
      Text.hexOfBytes ((i.bytes.drop 6).take 2) ++ Text.hexOfBytes ((i.bytes.drop 8).take 2) ++
      Text.hexOfBytes ((i.bytes.drop 10).take 6) = Text.hexOfBytes i.bytes := by
    unfold Text.hexOfBytes
    rw [← List.flatMap_append, ← List.flatMap_append, ← List.flatMap_append, ← List.flatMap_append, List.drop_zero,
      ← List.take_add, ← List.take_add, ← List.take_add, ← List.take_add, List.take_of_length_le i.length_bytes.le]
  unfold text
  rw [String.toList_ofList]
  refine .grouped ⟨_, _, _, _, _, ?_, ?_, ?_, ?_, rfl, ?_⟩
  · simp [Text.length_hexOfBytes, i.length_bytes]
  · simp [Text.length_hexOfBytes, i.length_bytes]
  · simp [Text.length_hexOfBytes, i.length_bytes]
  · simp [Text.length_hexOfBytes, i.length_bytes]
  · show List.map _ _ = _
    rw [hgroups, hlower]

theorem decode?_encode (i : Identifier) : decode? i.encode = some i :=
  (decode?_iff i _).mpr ⟨_, rfl, i.spells_text⟩

end Identifier

end EntityQuery
