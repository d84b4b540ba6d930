import EntityQuery.Proofs.Text.Wildcard

/-!
# Patterns by positions

`Cursor` holds what is left of a pattern and of a text, so it cannot read beside them. A loop over two positions can.
Here are reads that report a breach when they are out of bounds, and the search for a pattern as a loop that makes such
reads.

* `Breach`, `itemAt`, `slice`, `difference`: reads and differences that are checked;
* `Position.InBounds`: what every turn of the loop keeps, the place to go back to included;
* `Position.turn_ok`: a turn within bounds makes no breach, and is that of the cursor that looks at the same places;
* `checkedAccepts_eq`: the loop from the start is without a breach and gives what `accepts` gives.
-/

namespace EntityQuery

/-! ## Checked reads -/

/-- What must not come up in an evaluation. -/
inductive Breach where
  /-- A position at which a list has no item. -/
  | index
  /-- A part of a list that stops before its start or beyond the list. -/
  | slice
  /-- A difference below zero. -/
  | underflow
  /-- A row without the root record. -/
  | unboundRoot
  /-- A loop that goes on after its last turn. -/
  | endless
deriving DecidableEq

section Reads

variable {α : Type} {xs : List α} {start stop m n i : Nat}

/-- The item at a position. -/
def itemAt (xs : List α) (i : Nat) : Except Breach α :=
  match xs[i]? with
  | some x => .ok x
  | none => .error .index

/-- The items from a position up to another. -/
def slice (xs : List α) (start stop : Nat) : Except Breach (List α) :=
  if start ≤ stop ∧ stop ≤ xs.length then .ok ((xs.take stop).drop start) else .error .slice

/-- The difference of two numbers, which are not negative. -/
def difference (m n : Nat) : Except Breach Nat := if n ≤ m then .ok (m - n) else .error .underflow

theorem itemAt_of_lt (h : i < xs.length) : itemAt xs i = .ok xs[i] := by
  rw [itemAt, List.getElem?_eq_getElem h]

theorem slice_of_le (hstart : start ≤ stop) (hstop : stop ≤ xs.length) :
    slice xs start stop = .ok ((xs.take stop).drop start) :=
  if_pos ⟨hstart, hstop⟩

theorem difference_of_le (h : n ≤ m) : difference m n = .ok (m - n) := if_pos h

end Reads

/-! ## The loop over two positions -/

namespace Wildcard

/-- How far a search has come. -/
structure Position where
  text : Nat
  pattern : Nat
  /-- The position after the last `%`, and that of the text from which the rest is being tried. -/
  tried : Option (Nat × Nat)

namespace Position

/-- Tries the pattern after the last `%` one character later. -/
def goBack (c : Position) : Position ⊕ Bool :=
  match c.tried with
  | none => .inr false
  | some (after, start) => .inl { text := start + 1, pattern := after, tried := some (after, start + 1) }

/-- One turn of the loop. The pattern may be at its end; the text and what is left of the pattern are read unasked. -/
def turn (pattern text : List Char) (c : Position) : Except Breach (Position ⊕ Bool) :=
  if c.text < text.length then
    match pattern[c.pattern]? with
    | none => .ok c.goBack
    | some p =>
      if p = '%' then .ok (.inl { c with pattern := c.pattern + 1, tried := some (c.pattern + 1, c.text) })
      else if p = '_' then .ok (.inl { c with text := c.text + 1, pattern := c.pattern + 1 })
      else do
        let d ← itemAt text c.text
        return if p = d then .inl { c with text := c.text + 1, pattern := c.pattern + 1 } else c.goBack
  else do
    let rest ← slice pattern c.pattern pattern.length
    return .inr (rest.all (· == '%'))

/-- The answer of the loop when it may take a number of turns. -/
def answerWithin (pattern text : List Char) : Nat → Position → Except Breach Bool
  | 0, _ => .error .endless
  | turns + 1, c => do
    match ← c.turn pattern text with
    | .inl next => answerWithin pattern text turns next
    | .inr answer => return answer

/-- What is left of the pattern and of the text. -/
def cursor (pattern text : List Char) (c : Position) : Cursor :=
  { pattern := pattern.drop c.pattern
    text := text.drop c.text
    tried := c.tried.map fun t => (pattern.drop t.1, text.drop t.2) }

/-- The positions lie in the pattern and in the text, and the text is not read before the place that is being tried. -/
structure InBounds (pattern text : List Char) (c : Position) : Prop where
  text_le : c.text ≤ text.length
  pattern_le : c.pattern ≤ pattern.length
  after_le : ∀ after start, c.tried = some (after, start) → after ≤ pattern.length
  start_le : ∀ after start, c.tried = some (after, start) → start ≤ c.text

section Turn

variable {pattern text : List Char} {c : Position}

/-- What a turn may come to: positions within bounds, or an answer, as the cursor has it. -/
structure Agrees (pattern text : List Char) (out : Position ⊕ Bool) (expected : Cursor ⊕ Bool) : Prop where
  same : out.map (cursor pattern text) id = expected
  inBounds : ∀ next, out = .inl next → next.InBounds pattern text

theorem agrees_goBack (h : c.InBounds pattern text) (hlt : c.text < text.length) :
    Agrees pattern text c.goBack (c.cursor pattern text).goBack := by
  unfold goBack Cursor.goBack cursor
  cases htried : c.tried with
  | none => exact ⟨rfl, nofun⟩
  | some last =>
    have hafter := h.after_le last.1 last.2 htried
    have hstart := h.start_le last.1 last.2 htried
    refine ⟨?_, ?_⟩
    · simp [cursor]
    · rintro _ ⟨⟩
      exact ⟨by dsimp only; omega, hafter, by rintro _ _ ⟨⟩; exact hafter, by rintro _ _ ⟨⟩; exact le_rfl⟩

/-- Both positions move on. -/
theorem InBounds.advance (h : c.InBounds pattern text) (ht : c.text < text.length) (hp : c.pattern < pattern.length) :
    InBounds pattern text { c with text := c.text + 1, pattern := c.pattern + 1 } :=
  ⟨ht, hp, h.after_le, fun after start htried => Nat.le_succ_of_le (h.start_le after start htried)⟩

/-- **A turn within bounds makes no breach and stays within bounds.** -/
theorem turn_ok (h : c.InBounds pattern text) : ∃ out, c.turn pattern text = .ok out ∧
    Agrees pattern text out (c.cursor pattern text).turn := by
  unfold turn Cursor.turn
  by_cases ht : c.text < text.length
  · rw [if_pos ht]
    have htext : (c.cursor pattern text).text = text[c.text] :: text.drop (c.text + 1) := List.drop_eq_getElem_cons ht
    have hback := agrees_goBack h ht
    by_cases hp : c.pattern < pattern.length
    · have hpattern : (c.cursor pattern text).pattern = pattern[c.pattern] :: pattern.drop (c.pattern + 1) :=
        List.drop_eq_getElem_cons hp
      rw [List.getElem?_eq_getElem hp, htext, hpattern, itemAt_of_lt ht]
      dsimp only
      by_cases hstar : pattern[c.pattern] = '%'
      · rw [if_pos hstar, if_pos hstar]
        refine ⟨_, rfl, ?_, ?_⟩
        · simp [cursor, ← List.drop_eq_getElem_cons ht]
        · rintro _ ⟨⟩
          exact ⟨h.text_le, hp, by rintro _ _ ⟨⟩; exact hp, by rintro _ _ ⟨⟩; exact le_rfl⟩
      · rw [if_neg hstar, if_neg hstar]
        by_cases hone : pattern[c.pattern] = '_'
        · rw [if_pos hone, if_pos (.inl hone)]
          exact ⟨_, rfl, rfl, by rintro _ ⟨⟩; exact h.advance ht hp⟩
        · rw [if_neg hone]
          refine ⟨_, rfl, ?_⟩
          by_cases hsame : pattern[c.pattern] = text[c.text]
          · rw [if_pos hsame, if_pos (.inr hsame)]
            exact ⟨rfl, by rintro _ ⟨⟩; exact h.advance ht hp⟩
          · rw [if_neg hsame, if_neg (not_or.mpr ⟨hone, hsame⟩)]
            exact hback
    · have hpattern : (c.cursor pattern text).pattern = [] := List.drop_eq_nil_of_le (by omega)
      rw [List.getElem?_eq_none (by omega), htext, hpattern]
      exact ⟨_, rfl, hback⟩
  · have hend : (c.cursor pattern text).text = [] := List.drop_eq_nil_of_le (by omega)
    rw [if_neg ht, hend, slice_of_le h.pattern_le le_rfl, List.take_length]
    exact ⟨_, rfl, rfl, nofun⟩

/-- The loop gives the answer of the cursor, in as many turns. -/
theorem answerWithin_ok {turns : Nat} {answer : Bool} (h : c.InBounds pattern text)
    (hcursor : (c.cursor pattern text).answerWithin turns = some answer) :
    c.answerWithin pattern text turns = .ok answer := by
  induction turns generalizing c with
  | zero => cases hcursor
  | succ turns ih =>
    obtain ⟨out, hturn, hagrees⟩ := turn_ok h
    rw [Cursor.answerWithin, ← hagrees.same] at hcursor
    rw [answerWithin, hturn]
    cases out with
    | inl next => exact ih (hagrees.inBounds next rfl) hcursor
    | inr answer' =>
      obtain rfl : answer' = answer := Option.some.inj hcursor
      rfl

end Turn

/-- The start of a search. -/
def start : Position := { text := 0, pattern := 0, tried := none }

theorem inBounds_start (pattern text : List Char) : InBounds pattern text start :=
  ⟨Nat.zero_le _, Nat.zero_le _, nofun, nofun⟩

end Position

/-- The search of a text for a pattern by positions, with as many turns as there are pairs of places. -/
def checkedAccepts (pattern text : List Char) : Except Breach Bool :=
  Position.start.answerWithin pattern text ((text.length + 1) * (pattern.length + 1))

/-- **The search is without a breach**, for all patterns and texts, and comes to what the pattern accepts. -/
theorem checkedAccepts_eq (pattern text : List Char) : checkedAccepts pattern text = .ok (accepts pattern text) :=
  Position.answerWithin_ok (Position.inBounds_start pattern text) (Cursor.answerWithin_start pattern text)

end Wildcard

end EntityQuery
