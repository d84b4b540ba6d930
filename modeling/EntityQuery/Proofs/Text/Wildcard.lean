import EntityQuery.Text.Wildcard
import Mathlib.Data.List.Basic
import Mathlib.Tactic.Ring
import Mathlib.Tactic.SplitIfs

/-!
# What patterns with wildcards match

`Matches` says which texts a pattern matches, without an order in which its parts are tried. `Wildcard.accepts` settles
the part before a `%` at the first place where it fits. No match is lost by that: wherever else the part fits, what
follows it is an end of what follows the first place.

`Cursor` is the same search as one loop over two positions, which knows of no place to go back to but the one after the
last `%`.

* `accepts_iff`: a pattern is accepted for the texts that it matches;
* `Cursor.measure_lt_of_turn`: every turn of the loop brings the end nearer, also one that goes back;
* `Cursor.verdict_of_turn`: no turn changes what the rest of the search comes to;
* `cursor_decides_match`: the loop ends, and it says whether the pattern matches.
-/

namespace EntityQuery.Wildcard

/-! ## Matching -/

/-- A pattern matches a whole text: `%` any run of characters, `_` any one, and every other character itself. -/
inductive Matches : List Char → List Char → Prop where
  | nil : Matches [] []
  | run {pattern text : List Char} (skipped : List Char) (h : Matches pattern text) :
    Matches ('%' :: pattern) (skipped ++ text)
  | one {pattern text : List Char} (c : Char) (h : Matches pattern text) : Matches ('_' :: pattern) (c :: text)
  | same {pattern text : List Char} {c : Char} (hrun : c ≠ '%') (hone : c ≠ '_') (h : Matches pattern text) :
    Matches (c :: pattern) (c :: text)

/-- A pattern matches some end of a text. -/
def MatchesEnd (pattern text : List Char) : Prop := ∃ rest, rest <:+ text ∧ Matches pattern rest

section Matching

variable {p c : Char} {pattern text rest : List Char}

theorem matches_nil_iff : Matches [] text ↔ text = [] := by
  constructor
  · rintro ⟨⟩
    rfl
  · rintro rfl
    exact .nil

theorem matches_run_iff : Matches ('%' :: pattern) text ↔ MatchesEnd pattern text := by
  constructor
  · rintro (- | ⟨skipped, h⟩ | - | ⟨hrun, -, -⟩)
    · exact ⟨_, List.suffix_append _ _, h⟩
    · exact absurd rfl hrun
  · rintro ⟨rest, ⟨skipped, rfl⟩, h⟩
    exact .run skipped h

theorem matches_cons_iff (hp : p ≠ '%') :
    Matches (p :: pattern) text ↔ ∃ c rest, text = c :: rest ∧ (p = '_' ∨ p = c) ∧ Matches pattern rest := by
  constructor
  · rintro (- | - | ⟨c, h⟩ | ⟨-, -, h⟩)
    · exact absurd rfl hp
    · exact ⟨c, _, rfl, .inl rfl, h⟩
    · exact ⟨_, _, rfl, .inr rfl, h⟩
  · rintro ⟨c, rest, rfl, hfits, h⟩
    by_cases hone : p = '_'
    · rw [hone]
      exact .one c h
    · obtain rfl : p = c := hfits.resolve_left hone
      exact .same hp hone h

/-- Every character of a pattern but `%` takes one of the text. -/
theorem Matches.countP_le (h : Matches pattern text) : pattern.countP (· ≠ '%') ≤ text.length := by
  induction h with
  | nil => simp
  | run skipped h ih => simp at ih ⊢; omega
  | one c h ih => simpa using ih
  | same hrun hone h ih => simpa [hrun] using ih

theorem tail_suffix (h : c :: rest <:+ p :: text) : rest <:+ text := by
  rcases List.suffix_cons_iff.mp h with heq | hsuffix
  · obtain ⟨-, rfl⟩ := List.cons.inj heq
    exact List.suffix_rfl
  · exact (List.suffix_cons c rest).trans hsuffix

theorem matchesEnd_nil_iff : MatchesEnd pattern [] ↔ Matches pattern [] := by
  constructor
  · rintro ⟨rest, hrest, h⟩
    rwa [List.suffix_nil.mp hrest] at h
  · exact fun h => ⟨[], List.suffix_rfl, h⟩

theorem matchesEnd_cons_iff :
    MatchesEnd pattern (c :: text) ↔ Matches pattern (c :: text) ∨ MatchesEnd pattern text := by
  constructor
  · rintro ⟨rest, hrest, h⟩
    rcases List.suffix_cons_iff.mp hrest with rfl | hrest
    · exact .inl h
    · exact .inr ⟨rest, hrest, h⟩
  · rintro (h | ⟨rest, hrest, h⟩)
    · exact ⟨_, List.suffix_rfl, h⟩
    · exact ⟨rest, hrest.trans (List.suffix_cons c text), h⟩

end Matching

/-! ## The part before a wildcard -/

/-- What has to hold for the whole pattern to match, when the part before the first `%` was fitted. -/
def Fit.Leaves : Fit → Prop
  | .mismatch => False
  | .star pattern text => MatchesEnd pattern text
  | .finished text => text = []

/-- The part does not fit, or there is no `%` and some of the text is left. -/
def Fit.Fails (f : Fit) : Prop := (∀ pattern text, f ≠ .star pattern text) ∧ f ≠ .finished []

theorem Fit.fails_mismatch : Fit.mismatch.Fails := by simp [Fails]

theorem Fit.fails_finished (c : Char) (text : List Char) : (Fit.finished (c :: text)).Fails := by simp [Fails]

section Fitting

variable {p c : Char} {pattern text pattern' text' rest : List Char}

theorem fit_run (pattern text : List Char) : fit ('%' :: pattern) text = .star pattern text := by
  unfold fit
  rw [if_pos rfl]

theorem fit_cons_nil (hp : p ≠ '%') : fit (p :: pattern) [] = .mismatch := by
  unfold fit
  rw [if_neg hp]

theorem fit_cons_cons (hp : p ≠ '%') :
    fit (p :: pattern) (c :: text) = if p = '_' ∨ p = c then fit pattern text else .mismatch := by
  rw [fit, if_neg hp]

theorem matches_iff_leaves (pattern text : List Char) : Matches pattern text ↔ (fit pattern text).Leaves := by
  induction pattern generalizing text with
  | nil => exact matches_nil_iff
  | cons p pattern ih =>
    by_cases hp : p = '%'
    · subst hp
      rw [fit_run]
      exact matches_run_iff
    · rw [matches_cons_iff hp]
      cases text with
      | nil => simp [fit_cons_nil hp, Fit.Leaves]
      | cons c text =>
        rw [fit_cons_cons hp]
        split_ifs with hfits
        · rw [← ih]
          constructor
          · rintro ⟨_, _, heq, -, h⟩
            obtain ⟨rfl, rfl⟩ := List.cons.inj heq
            exact h
          · exact fun h => ⟨c, text, rfl, hfits, h⟩
        · constructor
          · rintro ⟨_, _, heq, hfits', -⟩
            obtain ⟨rfl, rfl⟩ := List.cons.inj heq
            exact hfits hfits'
          · exact False.elim

/-- **The first place where a part fits is as good as any later one**: what a later match leaves for the pattern after
the `%` is an end of what the first place leaves. -/
theorem matchesEnd_of_fit_eq_star (h : fit pattern text = .star pattern' text') (hrest : rest <:+ text)
    (hmatches : Matches pattern rest) : MatchesEnd pattern' text' := by
  induction pattern generalizing text rest with
  | nil => simp [fit] at h
  | cons p pattern ih =>
    by_cases hp : p = '%'
    · subst hp
      rw [fit_run] at h
      obtain ⟨rfl, rfl⟩ := Fit.star.inj h
      obtain ⟨last, hlast, hend⟩ := matches_run_iff.mp hmatches
      exact ⟨last, hlast.trans hrest, hend⟩
    · obtain ⟨c, later, rfl, -, hlater⟩ := (matches_cons_iff hp).mp hmatches
      cases text with
      | nil => simp [fit_cons_nil hp] at h
      | cons d text =>
        rw [fit_cons_cons hp] at h
        split_ifs at h
        exact ih h (tail_suffix hrest) hlater

theorem matchesSuffix_of_star (h : fit pattern text = .star pattern' text') :
    matchesSuffix pattern text = matchesSuffix pattern' text' := by
  conv_lhs => unfold matchesSuffix
  split
  · rename_i heq
    rw [h] at heq
    obtain ⟨rfl, rfl⟩ := Fit.star.inj heq
    rfl
  · rename_i heq
    rw [h] at heq
    cases heq
  · rename_i hstar _
    exact absurd h (hstar _ _)

theorem matchesSuffix_of_finished (h : fit pattern text = .finished []) : matchesSuffix pattern text = true := by
  unfold matchesSuffix
  split
  · rename_i heq
    rw [h] at heq
    cases heq
  · rfl
  · rename_i hfinished
    exact absurd h hfinished

/-- Where the search fails, the next place is tried. -/
theorem matchesSuffix_of_fails (h : (fit pattern text).Fails) :
    matchesSuffix pattern text = (!text.isEmpty && matchesSuffix pattern text.tail) := by
  conv_lhs => unfold matchesSuffix
  split
  · rename_i heq
    exact absurd heq (h.1 _ _)
  · rename_i heq
    exact absurd heq h.2
  · cases text <;> rfl

theorem not_matches_of_fails (h : (fit pattern text).Fails) : ¬ Matches pattern text := by
  rw [matches_iff_leaves]
  cases hfit : fit pattern text with
  | mismatch => exact id
  | star pattern' text' => exact absurd hfit (h.1 _ _)
  | finished left =>
    rintro rfl
    exact h.2 hfit

/-- **What follows a `%` is tried at every end of the text.** -/
theorem matchesSuffix_iff (pattern text : List Char) :
    matchesSuffix pattern text = true ↔ MatchesEnd pattern text := by
  induction pattern, text using matchesSuffix.induct with
  | case1 pattern text pattern' text' hfit ih =>
    rw [matchesSuffix_of_star hfit, ih]
    constructor
    · intro h
      refine ⟨text, List.suffix_rfl, (matches_iff_leaves pattern text).mpr ?_⟩
      rw [hfit]
      exact h
    · rintro ⟨rest, hrest, hmatches⟩
      exact matchesEnd_of_fit_eq_star hfit hrest hmatches
  | case2 pattern text hfit =>
    rw [matchesSuffix_of_finished hfit, eq_self, true_iff]
    refine ⟨text, List.suffix_rfl, (matches_iff_leaves pattern text).mpr ?_⟩
    rw [hfit]
    rfl
  | case3 pattern hstar hfinished =>
    have hfails : (fit pattern []).Fails := ⟨hstar, hfinished⟩
    rw [matchesSuffix_of_fails hfails, matchesEnd_nil_iff]
    simp [not_matches_of_fails hfails]
  | case4 pattern c text hstar hfinished ih =>
    have hfails : (fit pattern (c :: text)).Fails := ⟨hstar, hfinished⟩
    rw [matchesSuffix_of_fails hfails, matchesEnd_cons_iff]
    simpa [not_matches_of_fails hfails] using ih

/-- **A pattern is accepted for the texts that it matches.** -/
theorem accepts_iff (pattern text : List Char) : accepts pattern text = true ↔ Matches pattern text := by
  rw [matches_iff_leaves]
  unfold accepts
  cases fit pattern text with
  | mismatch => simp [Fit.Leaves]
  | star pattern' text' => exact matchesSuffix_iff pattern' text'
  | finished left => simp [Fit.Leaves]

end Fitting

/-! ## One loop over two positions -/

/-- How far a search has come. -/
structure Cursor where
  /-- The pattern from the present position on. -/
  pattern : List Char
  /-- The text from the present position on. -/
  text : List Char
  /-- The pattern after the last `%`, and the text from which it is being tried, if there was a `%`. -/
  tried : Option (List Char × List Char)

namespace Cursor

/-- The start of a search. -/
def start (pattern text : List Char) : Cursor := { pattern, text, tried := none }

/-- Tries the pattern after the last `%` one character later. Without a `%` the text is refused. -/
def goBack (c : Cursor) : Cursor ⊕ Bool :=
  match c.tried with
  | none => .inr false
  | some (after, text) => .inl { pattern := after, text := text.tail, tried := some (after, text.tail) }

/-- One turn of the loop: a new position, or the answer. At the end of the text only `%` may be left. -/
def turn (c : Cursor) : Cursor ⊕ Bool :=
  match c.text, c.pattern with
  | [], pattern => .inr (pattern.all (· == '%'))
  | _ :: _, [] => c.goBack
  | d :: text, p :: pattern =>
    if p = '%' then .inl { pattern, text := d :: text, tried := some (pattern, d :: text) }
    else if p = '_' ∨ p = d then .inl { pattern, text, tried := c.tried }
    else c.goBack

/-- The answer of the loop, if it ends within a number of turns. -/
def answerWithin : Nat → Cursor → Option Bool
  | 0, _ => none
  | turns + 1, c =>
    match c.turn with
    | .inl next => answerWithin turns next
    | .inr answer => some answer

/-! ### What a turn does -/

/-- The ways of one turn. -/
inductive TurnsTo : Cursor → Cursor ⊕ Bool → Prop where
  | stop (pattern : List Char) (tried : Option (List Char × List Char)) :
    TurnsTo ⟨pattern, [], tried⟩ (.inr (pattern.all (· == '%')))
  | star (pattern : List Char) (d : Char) (text : List Char) (tried : Option (List Char × List Char)) :
    TurnsTo ⟨'%' :: pattern, d :: text, tried⟩ (.inl ⟨pattern, d :: text, some (pattern, d :: text)⟩)
  | advance {p d : Char} (hp : p ≠ '%') (hfits : p = '_' ∨ p = d) (pattern text : List Char)
    (tried : Option (List Char × List Char)) :
    TurnsTo ⟨p :: pattern, d :: text, tried⟩ (.inl ⟨pattern, text, tried⟩)
  | refuse {pattern text : List Char} {d : Char} (hfails : (fit pattern (d :: text)).Fails) :
    TurnsTo ⟨pattern, d :: text, none⟩ (.inr false)
  | back {pattern text : List Char} {d : Char} (hfails : (fit pattern (d :: text)).Fails) (after rest : List Char) :
    TurnsTo ⟨pattern, d :: text, some (after, rest)⟩ (.inl ⟨after, rest.tail, some (after, rest.tail)⟩)

theorem turnsTo_goBack {pattern text : List Char} {d : Char} (hfails : (fit pattern (d :: text)).Fails)
    (tried : Option (List Char × List Char)) :
    TurnsTo ⟨pattern, d :: text, tried⟩ (goBack ⟨pattern, d :: text, tried⟩) := by
  cases tried with
  | none => exact .refuse hfails
  | some last => exact .back hfails last.1 last.2

theorem turnsTo_turn (c : Cursor) : TurnsTo c c.turn := by
  obtain ⟨pattern, text, tried⟩ := c
  unfold turn
  cases text with
  | nil => exact .stop pattern tried
  | cons d text =>
    cases pattern with
    | nil =>
      refine turnsTo_goBack ?_ tried
      unfold fit
      exact Fit.fails_finished d text
    | cons p pattern =>
      dsimp only
      split_ifs with hp hfits
      · subst hp
        exact .star pattern d text tried
      · exact .advance hp hfits pattern text tried
      · refine turnsTo_goBack ?_ tried
        rw [fit_cons_cons hp, if_neg hfits]
        exact Fit.fails_mismatch

/-! ### The end of the loop -/

/-- The part after the last `%` fits from where it is being tried up to the present position. -/
structure Follows (length : Nat) (after text : List Char) (c : Cursor) : Prop where
  after_le : after.length ≤ length
  text_le : c.text.length ≤ text.length
  fits : fit after text = fit c.pattern c.text
  /-- The part has as many characters as it took from the text. -/
  taken : after.countP (· ≠ '%') + c.text.length = c.pattern.countP (· ≠ '%') + text.length

/-- What every turn of a search with a pattern of a length keeps. -/
structure Sound (length : Nat) (c : Cursor) : Prop where
  pattern_le : c.pattern.length ≤ length
  follows : ∀ after text, c.tried = some (after, text) → c.Follows length after text

section Loop

variable {length : Nat} {c next : Cursor} {answer : Bool}

theorem sound_start (pattern text : List Char) : Sound pattern.length (start pattern text) := ⟨le_rfl, nofun⟩

/-- A part that is yet to be tried. -/
theorem sound_of_tried {pattern : List Char} (h : pattern.length ≤ length) (text : List Char) :
    Sound length ⟨pattern, text, some (pattern, text)⟩ := by
  refine ⟨h, ?_⟩
  rintro _ _ ⟨⟩
  exact ⟨h, le_rfl, rfl, rfl⟩

theorem Sound.turn (h : c.Sound length) (hturn : TurnsTo c (.inl next)) : next.Sound length := by
  cases hturn with
  | star pattern d text tried =>
    have hle : pattern.length + 1 ≤ length := h.pattern_le
    exact sound_of_tried (by omega) _
  | @advance p d hp hfits pattern text tried =>
    have hle : pattern.length + 1 ≤ length := h.pattern_le
    refine ⟨by show pattern.length ≤ length; omega, fun after rest htried => ?_⟩
    obtain ⟨hafter, htext, hfit, htaken⟩ := h.follows after rest htried
    dsimp only at htext hfit htaken
    rw [List.length_cons] at htext htaken
    rw [List.countP_cons_of_pos (by simpa using hp)] at htaken
    refine ⟨hafter, by show text.length ≤ rest.length; omega, ?_, ?_⟩
    · rw [hfit, fit_cons_cons hp, if_pos hfits]
    · show after.countP (· ≠ '%') + text.length = pattern.countP (· ≠ '%') + rest.length
      omega
  | back hfails after rest => exact sound_of_tried (h.follows after rest rfl).after_le _

/-- What is being tried when the text is not at its end is not at its end either. -/
theorem Sound.exists_cons {pattern text after rest : List Char} {d : Char}
    (h : Sound length ⟨pattern, d :: text, some (after, rest)⟩) : ∃ first others, rest = first :: others := by
  have hle : (d :: text).length ≤ rest.length := (h.follows after rest rfl).text_le
  exact List.exists_cons_of_length_pos (Nat.lt_of_lt_of_le (Nat.succ_pos _) hle)

/-- The number of places where the pattern after the last `%` can still be tried. -/
def placesLeft (c : Cursor) : Nat :=
  match c.tried with
  | none => c.text.length
  | some (_, text) => text.length

theorem Sound.length_le_placesLeft (h : c.Sound length) : c.text.length ≤ c.placesLeft := by
  unfold placesLeft
  split
  · exact le_rfl
  · rename_i htried
    exact (h.follows _ _ htried).text_le

/-- Going back uses up a place, and every other turn a character of the pattern. -/
def measure (length : Nat) (c : Cursor) : Nat := c.placesLeft * (length + 1) + c.pattern.length + 1

theorem measure_lt {pattern pattern' : List Char} {text text' : List Char}
    {tried tried' : Option (List Char × List Char)} (hpattern : pattern'.length < pattern.length)
    (hplaces : placesLeft ⟨pattern', text', tried'⟩ ≤ placesLeft ⟨pattern, text, tried⟩) :
    measure length ⟨pattern', text', tried'⟩ < measure length ⟨pattern, text, tried⟩ := by
  have hmul := Nat.mul_le_mul_right (length + 1) hplaces
  simp only [measure]
  omega

/-- **Every turn brings the end nearer**, also one that goes back in the pattern and in the text. -/
theorem measure_lt_of_turn (h : c.Sound length) (hturn : TurnsTo c (.inl next)) :
    next.measure length < c.measure length := by
  cases hturn with
  | star pattern d text tried => exact measure_lt (Nat.lt_succ_self _) h.length_le_placesLeft
  | advance hp hfits pattern text tried =>
    refine measure_lt (Nat.lt_succ_self _) ?_
    cases tried with
    | none => exact Nat.le_succ _
    | some last => exact le_rfl
  | back hfails after rest =>
    have hle := (h.follows after rest rfl).after_le
    obtain ⟨first, others, rfl⟩ := h.exists_cons
    show others.length * (length + 1) + after.length + 1 < (others.length + 1) * (length + 1) + _ + 1
    rw [Nat.succ_mul]
    omega

/-! ### What the loop answers -/

/-- What the search comes to from a position. -/
def verdict (c : Cursor) : Bool :=
  match c.tried with
  | none => accepts c.pattern c.text
  | some (after, text) => matchesSuffix after text

/-- **No turn changes what the search comes to.** At a new `%` the earlier ones need not be remembered. -/
theorem verdict_of_turn (h : c.Sound length) (hturn : TurnsTo c (.inl next)) : next.verdict = c.verdict := by
  cases hturn with
  | star pattern d text tried =>
    show matchesSuffix pattern (d :: text) = _
    cases tried with
    | none => simp only [verdict, accepts, fit_run]
    | some last =>
      have hfit := (h.follows last.1 last.2 rfl).fits
      exact (matchesSuffix_of_star (hfit.trans (fit_run _ _))).symm
  | advance hp hfits pattern text tried =>
    cases tried with
    | none => simp only [verdict, accepts, fit_cons_cons hp, if_pos hfits]
    | some last => rfl
  | @back pattern text d hfails after rest =>
    obtain ⟨first, others, rfl⟩ := h.exists_cons
    have hfit : fit after (first :: others) = fit pattern (d :: text) := (h.follows after _ rfl).fits
    have hback : (fit after (first :: others)).Fails := by
      rw [hfit]
      exact hfails
    exact (matchesSuffix_of_fails hback).symm

/-- At the end of the text a pattern matches if nothing but `%` is left of it. -/
theorem matches_empty_iff (pattern : List Char) : Matches pattern [] ↔ pattern.all (· == '%') = true := by
  induction pattern with
  | nil => simp [matches_nil_iff]
  | cons p pattern ih =>
    by_cases hp : p = '%'
    · subst hp
      rw [matches_run_iff, matchesEnd_nil_iff, ih, List.all_cons]
      rfl
    · simp [matches_cons_iff hp, hp]

/-- A part with characters left at the end of the text fits nowhere: it took all of the text from the first place on,
and the later places have less of it. -/
theorem matchesEnd_of_follows {pattern after rest : List Char} {tried : Option (List Char × List Char)}
    (h : Follows length after rest ⟨pattern, [], tried⟩) : MatchesEnd after rest ↔ Matches pattern [] := by
  cases pattern with
  | nil =>
    have hfit : fit after rest = .finished [] := h.fits
    exact iff_of_true ((matchesSuffix_iff _ _).mp (matchesSuffix_of_finished hfit)) .nil
  | cons p pattern =>
    by_cases hp : p = '%'
    · subst hp
      have hfit : fit after rest = .star pattern [] := h.fits.trans (fit_run _ _)
      rw [← matchesSuffix_iff, matchesSuffix_of_star hfit, matchesSuffix_iff, matches_run_iff]
    · have htaken : after.countP (· ≠ '%') + 0 = (p :: pattern).countP (· ≠ '%') + rest.length := h.taken
      rw [List.countP_cons_of_pos (by simpa using hp)] at htaken
      refine iff_of_false ?_ ?_
      · rintro ⟨last, hlast, hmatches⟩
        have hcount := hmatches.countP_le
        have hlength := hlast.length_le
        omega
      · simp [matches_cons_iff hp]

theorem verdict_of_stop (h : c.Sound length) (hturn : TurnsTo c (.inr answer)) : c.verdict = answer := by
  cases hturn with
  | stop pattern tried =>
    rw [Bool.eq_iff_iff, ← matches_empty_iff]
    cases tried with
    | none => exact accepts_iff pattern []
    | some last => exact (matchesSuffix_iff last.1 last.2).trans (matchesEnd_of_follows (h.follows last.1 last.2 rfl))
  | refuse hfails =>
    show accepts _ _ = false
    rw [Bool.eq_false_iff, ne_eq, accepts_iff]
    exact not_matches_of_fails hfails

/-- The loop ends within as many turns as its measure, with what the search comes to. -/
theorem answerWithin_measure {turns : Nat} (h : c.Sound length) (hturns : c.measure length ≤ turns) :
    c.answerWithin turns = some c.verdict := by
  induction turns generalizing c with
  | zero => exact absurd hturns (by simp [measure])
  | succ turns ih =>
    have hturn := turnsTo_turn c
    unfold answerWithin
    cases hnext : c.turn with
    | inl next =>
      rw [hnext] at hturn
      have hlt := measure_lt_of_turn h hturn
      rw [← verdict_of_turn h hturn]
      exact ih (h.turn hturn) (by omega)
    | inr answer =>
      rw [hnext] at hturn
      rw [verdict_of_stop h hturn]

end Loop

/-- The loop from the start ends within as many turns as there are pairs of places in the text and in the pattern. -/
theorem answerWithin_start (pattern text : List Char) :
    (start pattern text).answerWithin ((text.length + 1) * (pattern.length + 1)) = some (accepts pattern text) := by
  refine answerWithin_measure (sound_start pattern text) ?_
  show text.length * (pattern.length + 1) + pattern.length + 1 ≤ _
  rw [Nat.succ_mul]
  omega

end Cursor

/-- **The loop over two positions ends, and it says whether the pattern matches the whole text.** It takes at most as
many turns as there are pairs of places in the text and in the pattern. -/
theorem cursor_decides_match (pattern text : List Char) :
    (Cursor.start pattern text).answerWithin ((text.length + 1) * (pattern.length + 1)) =
        some (accepts pattern text) ∧
      (accepts pattern text = true ↔ Matches pattern text) :=
  ⟨Cursor.answerWithin_start pattern text, accepts_iff pattern text⟩

/-- The part between the two `%` is settled at the first `x`, and no `o` comes after it. -/
example : (Cursor.start "C%x%o".toList "Cxx".toList).answerWithin 24 = some false := by decide

end EntityQuery.Wildcard
