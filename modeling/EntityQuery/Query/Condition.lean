import EntityQuery.Json.Basic

/-!
# Conditions

A condition compares one attribute with a list of values by an operator. `Operator.arity` says how many
values the operator takes.
-/

namespace EntityQuery

/-- The comparison that a condition makes. -/
inductive Operator where
  | equal
  | notEqual
  | greaterThan
  | greaterEqual
  | lessThan
  | lessEqual
  /-- A pattern with wildcards matches the whole text. -/
  | like
  | notLike
  | beginsWith
  | endsWith
  | isIn
  | notIn
  /-- A range with both ends. -/
  | between
  | notBetween
  | isNull
  | notNull
deriving DecidableEq, Inhabited

namespace Operator

/-- Every operator. -/
def all : List Operator :=
  [.equal, .notEqual, .greaterThan, .greaterEqual, .lessThan, .lessEqual, .like, .notLike, .beginsWith,
    .endsWith, .isIn, .notIn, .between, .notBetween, .isNull, .notNull]

/-- The number of values the operator takes, `none` when it takes any number. -/
def arity : Operator → Option Nat
  | .isNull | .notNull => some 0
  | .between | .notBetween => some 2
  | .isIn | .notIn => none
  | _ => some 1

/-- The name of the operator in written queries. -/
def name : Operator → String
  | .equal => "equal"
  | .notEqual => "not_equal"
  | .greaterThan => "greater_than"
  | .greaterEqual => "greater_equal"
  | .lessThan => "less_than"
  | .lessEqual => "less_equal"
  | .like => "like"
  | .notLike => "not_like"
  | .beginsWith => "begins_with"
  | .endsWith => "ends_with"
  | .isIn => "in"
  | .notIn => "not_in"
  | .between => "between"
  | .notBetween => "not_between"
  | .isNull => "null"
  | .notNull => "not_null"

/-- The name of the operator in messages. -/
def label : Operator → String
  | .equal => "Equal"
  | .notEqual => "NotEqual"
  | .greaterThan => "GreaterThan"
  | .greaterEqual => "GreaterEqual"
  | .lessThan => "LessThan"
  | .lessEqual => "LessEqual"
  | .like => "Like"
  | .notLike => "NotLike"
  | .beginsWith => "BeginsWith"
  | .endsWith => "EndsWith"
  | .isIn => "In"
  | .notIn => "NotIn"
  | .between => "Between"
  | .notBetween => "NotBetween"
  | .isNull => "Null"
  | .notNull => "NotNull"

end Operator

/-- A comparison of an attribute with values. -/
structure Condition where
  /-- The entity or link alias that holds the attribute, `none` for the owner of the filter. -/
  scope : Option String := none
  attributeName : String := ""
  operator : Operator := .equal
  values : List Json := []

instance : Inhabited Condition := ⟨{}⟩

end EntityQuery
