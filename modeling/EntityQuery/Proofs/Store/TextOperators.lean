import EntityQuery.Proofs.Store.PresentValues
import EntityQuery.Proofs.Store.WellSized
import EntityQuery.Proofs.Text.Wildcard
import Mathlib.Data.String.Basic

/-!
# Operators on texts and patterns

A part of a pattern without wildcards matches itself alone. So a pattern that ends with a `%` after such a part matches
the texts that begin with it, one that starts with a `%` those that end with it, and between two of them it can stand
anywhere. The operators on texts are patterns of these forms.

* `Wildcard.matches_append_iff`: a part of a pattern without wildcards;
* `Wildcard.matches_begin_iff`, `Wildcard.matches_end_iff`, `Wildcard.matches_anywhere_iff`: where it has to stand;
* `Condition.holds_onText`: a condition on a text, and a lemma for each operator;
* `text_operators_are_patterns`: the operators and their patterns accept the same texts.
-/

namespace EntityQuery

/-! ## Parts without wildcards -/

namespace Wildcard

variable {part pattern text : List Char}

/-- A part of a pattern without wildcards. -/
def Plain (part : List Char) : Prop := ∀ c ∈ part, c ≠ '%' ∧ c ≠ '_'

instance (part : List Char) : Decidable (Plain part) := List.decidableBAll _ part

/-- **A part without wildcards matches itself alone**, and what follows it matches the rest of the text. -/
theorem matches_append_iff (h : Plain part) :
    Matches (part ++ pattern) text ↔ ∃ rest, text = part ++ rest ∧ Matches pattern rest := by
  induction part generalizing text with
  | nil => simp
  | cons p part ih =>
    obtain ⟨⟨hrun, hone⟩, hpart⟩ := List.forall_mem_cons.mp h
    rw [List.cons_append, matches_cons_iff hrun]
    constructor
    · rintro ⟨c, later, rfl, hfits, hmatches⟩
      obtain rfl : p = c := hfits.resolve_left hone
      obtain ⟨rest, rfl, hrest⟩ := (ih hpart).mp hmatches
      exact ⟨rest, rfl, hrest⟩
    · rintro ⟨rest, rfl, hrest⟩
      exact ⟨p, part ++ rest, rfl, .inr rfl, (ih hpart).mpr ⟨rest, rfl, hrest⟩⟩

theorem matches_plain_iff (h : Plain part) : Matches part text ↔ text = part := by
  have happend : Matches (part ++ []) text ↔ _ := matches_append_iff h
  rw [List.append_nil] at happend
  rw [happend]
  constructor
  · rintro ⟨rest, rfl, hrest⟩
    rw [matches_nil_iff.mp hrest, List.append_nil]
  · rintro rfl
    exact ⟨[], (List.append_nil text).symm, .nil⟩

/-- A lone `%` matches every text. -/
theorem matches_star (text : List Char) : Matches ['%'] text := by
  have hmatches := Matches.run text .nil
  rwa [List.append_nil] at hmatches

theorem matches_begin_iff (h : Plain part) : Matches (part ++ ['%']) text ↔ part <+: text := by
  rw [matches_append_iff h]
  constructor
  · rintro ⟨rest, rfl, -⟩
    exact List.prefix_append part rest
  · rintro ⟨rest, rfl⟩
    exact ⟨rest, rfl, matches_star rest⟩

theorem matches_end_iff (h : Plain part) : Matches ('%' :: part) text ↔ part <:+ text := by
  rw [matches_run_iff]
  constructor
  · rintro ⟨rest, hrest, hmatches⟩
    rwa [(matches_plain_iff h).mp hmatches] at hrest
  · exact fun hsuffix => ⟨part, hsuffix, (matches_plain_iff h).mpr rfl⟩

theorem matches_anywhere_iff (h : Plain part) : Matches ('%' :: (part ++ ['%'])) text ↔ part <:+: text := by
  rw [matches_run_iff, List.infix_iff_prefix_suffix]
  constructor
  · rintro ⟨rest, hrest, hmatches⟩
    exact ⟨rest, (matches_begin_iff h).mp hmatches, hrest⟩
  · rintro ⟨rest, hprefix, hrest⟩
    exact ⟨rest, hrest, (matches_begin_iff h).mpr hprefix⟩

end Wildcard

/-! ## Conditions on texts -/

/-- The condition that compares an attribute with one text. -/
def Condition.onText (own : Option String) (name : String) (op : Operator) (given : String) : Condition :=
  { scope := own, attributeName := name, operator := op, values := [.string given] }

namespace Condition

variable {own : Option String} {row : Row} {scope name s given : String}

/-- An operator that takes one value has an outcome with every text. -/
theorem exists_holds_onText {op : Operator} (harity : op.arity = some 1) (name given : String) (row : Row)
    (scope : String) : ∃ accepted, (onText own name op given).holds row scope = .ok accepted := by
  refine WellSized.holds_ok (fun n hn => ?_) row scope
  exact Option.some.inj (harity.symm.trans hn)

/-- A condition on a text makes the test of its operator. -/
theorem holds_onText {op : Operator} {test : Json → Bool} (hvalue : row.value (own.getD scope) name = .string s)
    (htest : op.test? [.string given] = some test) :
    (onText own name op given).holds row scope = .ok (test (.string s)) := by
  have hhas : row.Has (own.getD scope) name := by
    rw [Row.has_iff, hvalue]
    rfl
  rw [← hvalue]
  exact holds_of_has htest hhas

theorem holds_like_iff (hvalue : row.value (own.getD scope) name = .string s) :
    (onText own name .like given).holds row scope = .ok true ↔ Wildcard.Matches given.toList s.toList := by
  rw [holds_onText hvalue rfl, ← Wildcard.accepts_iff, Except.ok.injEq]
  rfl

theorem holds_beginsWith_iff (hvalue : row.value (own.getD scope) name = .string s) :
    (onText own name .beginsWith given).holds row scope = .ok true ↔ given.toList <+: s.toList := by
  rw [holds_onText hvalue rfl, ← List.isPrefixOf_iff_prefix, Except.ok.injEq]
  rfl

theorem holds_endsWith_iff (hvalue : row.value (own.getD scope) name = .string s) :
    (onText own name .endsWith given).holds row scope = .ok true ↔ given.toList <:+ s.toList := by
  rw [holds_onText hvalue rfl, ← List.isSuffixOf_iff_suffix, Except.ok.injEq]
  rfl

theorem holds_equal_iff (hvalue : row.value (own.getD scope) name = .string s) :
    (onText own name .equal given).holds row scope = .ok true ↔ s = given := by
  rw [holds_onText hvalue rfl, Except.ok.injEq, Json.equivalent, Json.compare?, beq_iff_eq, compare_eq_iff_eq]

end Condition

/-- Outcomes that are both there and accept alike are the same. -/
theorem eq_of_accepts_iff {o o' : Except QueryError Bool} (h : ∃ b, o = .ok b) (h' : ∃ b, o' = .ok b)
    (hiff : o = .ok true ↔ o' = .ok true) : o = o' := by
  obtain ⟨b, rfl⟩ := h
  obtain ⟨b', rfl⟩ := h'
  rw [Except.ok.injEq, Except.ok.injEq] at hiff
  rw [Bool.eq_iff_iff.mpr hiff]

namespace Wildcard

/-! ### Parts of texts -/

variable {part s : String}

theorem toList_surjective : Function.Surjective String.toList := fun l => ⟨String.ofList l, String.toList_ofList⟩

theorem toList_prefix_iff : part.toList <+: s.toList ↔ ∃ rest, s = part ++ rest := by
  unfold List.IsPrefix
  rw [toList_surjective.exists]
  simp only [← String.toList_append, String.toList_inj, eq_comm]

theorem toList_suffix_iff : part.toList <:+ s.toList ↔ ∃ start, s = start ++ part := by
  unfold List.IsSuffix
  rw [toList_surjective.exists]
  simp only [← String.toList_append, String.toList_inj, eq_comm]

theorem toList_infix_iff : part.toList <:+: s.toList ↔ ∃ start rest, s = start ++ part ++ rest := by
  unfold List.IsInfix
  rw [toList_surjective.exists₂]
  simp only [← String.toList_append, String.toList_inj, eq_comm]

end Wildcard

/-- **The operators on texts are patterns.** On a text, and with a text that has no wildcards, an operator has the
outcome of its pattern: `%` after the text for what begins with it, `%` before it for what ends with it, the text itself
for what equals it. The text between two `%` is accepted just where it is a part. -/
theorem text_operators_are_patterns {row : Row} {own : Option String} {scope name s e : String}
    (hvalue : row.value (own.getD scope) name = .string s) (hplain : Wildcard.Plain e.toList) :
    let outcome (op : Operator) (given : String) := (Condition.onText own name op given).holds row scope
    (∀ op : Operator, op.arity = some 1 → ∀ given, ∃ accepted, outcome op given = .ok accepted) ∧
    outcome .beginsWith e = outcome .like (e ++ "%") ∧
    (outcome .beginsWith e = .ok true ↔ ∃ rest, s = e ++ rest) ∧
    outcome .endsWith e = outcome .like ("%" ++ e) ∧
    (outcome .endsWith e = .ok true ↔ ∃ start, s = start ++ e) ∧
    outcome .equal e = outcome .like e ∧
    (outcome .equal e = .ok true ↔ s = e) ∧
    (outcome .like ("%" ++ e ++ "%") = .ok true ↔ ∃ start rest, s = start ++ e ++ rest) := by
  intro outcome
  have htotal (op : Operator) (harity : op.arity = some 1) (given : String) :
      ∃ accepted, outcome op given = .ok accepted := Condition.exists_holds_onText harity name given row scope
  have hlike (given : String) : outcome .like given = .ok true ↔ Wildcard.Matches given.toList s.toList :=
    Condition.holds_like_iff hvalue
  have hbegins : outcome .beginsWith e = .ok true ↔ e.toList <+: s.toList := Condition.holds_beginsWith_iff hvalue
  have hends : outcome .endsWith e = .ok true ↔ e.toList <:+ s.toList := Condition.holds_endsWith_iff hvalue
  have hequal : outcome .equal e = .ok true ↔ s = e := Condition.holds_equal_iff hvalue
  have hsame {op : Operator} {pattern : String} (harity : op.arity = some 1)
      (hiff : outcome op e = .ok true ↔ Wildcard.Matches pattern.toList s.toList) :
      outcome op e = outcome .like pattern :=
    eq_of_accepts_iff (htotal op harity e) (htotal .like rfl pattern) (hiff.trans (hlike pattern).symm)
  refine ⟨htotal, hsame rfl ?_, hbegins.trans Wildcard.toList_prefix_iff, hsame rfl ?_,
    hends.trans Wildcard.toList_suffix_iff, hsame rfl ?_, hequal, ?_⟩
  · rw [hbegins, String.toList_append]
    exact (Wildcard.matches_begin_iff hplain).symm
  · rw [hends, String.toList_append]
    exact (Wildcard.matches_end_iff hplain).symm
  · rw [hequal, Wildcard.matches_plain_iff hplain, String.toList_inj]
  · rw [hlike, String.toList_append, String.toList_append]
    exact (Wildcard.matches_anywhere_iff hplain).trans Wildcard.toList_infix_iff

/-- A part that almost stands earlier: the pattern for the end of `Banana` is tried at its first `ana` too. -/
theorem text_operators_are_patterns_banana :
    let fruit : Record := { logicalName := "fruit", attributes := .ofList [("name", .string "Banana")] }
    let outcome (op : Operator) (given : String) :=
      (Condition.onText none "name" op given).holds (Row.single "fruit" fruit) "fruit"
    Wildcard.Plain "ana".toList ∧ outcome .beginsWith "ana" = outcome .like ("ana" ++ "%") ∧
      outcome .endsWith "ana" = outcome .like ("%" ++ "ana") ∧ outcome .equal "ana" = outcome .like "ana" ∧
      outcome .beginsWith "ana" ≠ .ok true ∧ outcome .endsWith "ana" = .ok true ∧ outcome .equal "ana" ≠ .ok true ∧
      outcome .like ("%" ++ "ana" ++ "%") = .ok true := by
  intro fruit outcome
  have hvalue : (Row.single "fruit" fruit).value ((none : Option String).getD "fruit") "name" = .string "Banana" := rfl
  have hplain : Wildcard.Plain "ana".toList := by decide
  obtain ⟨-, hbegin, hbegins, hend, hends, hequal, hequals, hanywhere⟩ := text_operators_are_patterns hvalue hplain
  refine ⟨hplain, hbegin, hend, hequal, ?_, hends.mpr ⟨"Ban", rfl⟩, ?_, hanywhere.mpr ⟨"B", "na", rfl⟩⟩
  · intro hyes
    obtain ⟨rest, hrest⟩ := hbegins.mp hyes
    have hchars := congrArg String.toList hrest
    rw [String.toList_append] at hchars
    cases hchars
  · rw [ne_eq, hequals]
    decide

end EntityQuery
