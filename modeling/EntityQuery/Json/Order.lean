import EntityQuery.Json.Basic

/-!
# Comparison of JSON values

`Json.compare?` orders numbers by the doubles nearest to them, texts by code point and `false` before
`true`; values of different kinds, and kinds that have no order, do not compare. `Json.equivalent` is the
equality that queries use: values that compare are equivalent when they compare equal, and all others when
they are the same.
-/

namespace EntityQuery.Json

/-- The order of two values, if they are of one ordered kind. -/
def compare? : Json → Json → Option Ordering
  | .number m, .number n => some (compare m.toBinary64.rank n.toBinary64.rank)
  | .string s, .string t => some (compare s t)
  | .bool a, .bool b => some (compare a b)
  | _, _ => none

/-- Equality as queries see it. -/
def equivalent (a b : Json) : Bool :=
  match compare? a b with
  | some o => o == .eq
  | none => same a b

/-- The order of sort keys: null first, values that do not compare count as equal. -/
def compareNullsFirst (a b : Json) : Ordering :=
  match a.isNull, b.isNull with
  | true, true => .eq
  | true, false => .lt
  | false, true => .gt
  | false, false => (compare? a b).getD .eq

end EntityQuery.Json
