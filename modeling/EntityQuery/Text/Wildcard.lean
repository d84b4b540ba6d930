/-!
# Patterns with wildcards

In a pattern `%` stands for any run of characters, `_` for any one character, and every other
character for itself. `Wildcard.accepts` compares a pattern with a whole text: it fits the part of the
pattern before the first `%`, and after each `%` it tries the next part at later and later places until
the part fits, which settles that part for good.
-/

namespace EntityQuery.Wildcard

/-- What comes of fitting a pattern up to its first `%` to the start of a text. -/
inductive Fit where
  /-- The part does not fit. -/
  | mismatch
  /-- The part fits and a `%` ends it; the pattern after it and the text left over. -/
  | star (pattern text : List Char)
  /-- The whole pattern fits; the text left over. -/
  | finished (text : List Char)
deriving DecidableEq

/-- Fits a pattern up to its first `%` to the start of a text. -/
def fit : List Char → List Char → Fit
  | [], text => .finished text
  | p :: pattern, text =>
    if p = '%' then .star pattern text
    else match text with
      | [] => .mismatch
      | c :: text => if p = '_' ∨ p = c then fit pattern text else .mismatch

theorem length_lt_of_fit_eq_star {pattern text pattern' text' : List Char}
    (h : fit pattern text = .star pattern' text') : pattern'.length < pattern.length := by
  induction pattern generalizing text with
  | nil => simp [fit] at h
  | cons p pattern ih =>
    unfold fit at h
    by_cases hp : p = '%'
    · simp only [hp, if_true, Fit.star.injEq] at h
      simp [h.1]
    · simp only [hp, if_false] at h
      cases text with
      | nil => simp at h
      | cons c text =>
        simp only at h
        split at h
        · exact Nat.lt_succ_of_lt (ih h)
        · simp at h

/-- Whether a pattern that follows a `%` matches some end of a text. -/
def matchesSuffix (pattern text : List Char) : Bool :=
  match _fits : fit pattern text with
  | .star pattern' text' => matchesSuffix pattern' text'
  | .finished [] => true
  | _ =>
    match text with
    | [] => false
    | _ :: text => matchesSuffix pattern text
termination_by (pattern.length, text.length)
decreasing_by
  · exact Prod.Lex.left _ _ (length_lt_of_fit_eq_star ‹_›)
  · exact Prod.Lex.right _ (Nat.lt_succ_self _)

/-- Whether a pattern matches a whole text. -/
def accepts (pattern text : List Char) : Bool :=
  match fit pattern text with
  | .star pattern text => matchesSuffix pattern text
  | .finished text => text.isEmpty
  | .mismatch => false

end EntityQuery.Wildcard
