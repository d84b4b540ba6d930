import EntityQuery.Error
import EntityQuery.Record.Basic

/-!
# Rows

A row is a combination of joined records: each scope name is bound to a record or unbound. An attribute of
an unbound scope, like an attribute that the record does not have, is null.
-/

namespace EntityQuery

/-- The record that each scope name is bound to, if any. -/
abbrev Row := String → Option Record

namespace Row

/-- The row that binds one scope. -/
def single (scope : String) (r : Record) : Row := fun name => if name = scope then some r else none

/-- Binds a scope, over what it was bound to. -/
def bind (row : Row) (scope : String) (r : Record) : Row := fun name =>
  if name = scope then some r else row name

@[simp] theorem single_self (scope : String) (r : Record) : single scope r scope = some r := by
  simp [single]

@[simp] theorem bind_self (row : Row) (scope : String) (r : Record) : row.bind scope r scope = some r := by
  simp [bind]

theorem bind_of_ne {scope name : String} (row : Row) (r : Record) (h : name ≠ scope) :
    row.bind scope r name = row name := by
  simp [bind, h]

/-- The value of an attribute of a scope. -/
def value (row : Row) (scope name : String) : Json :=
  match row scope with
  | some r => r.value name
  | none => .null

end Row

/-- The items that pass a test that may fail, in order; the first failure is the result. -/
def keepThat {α ε : Type} (test : α → Except ε Bool) : List α → Except ε (List α)
  | [] => .ok []
  | x :: xs => do
    let kept ← test x
    let rest ← keepThat test xs
    return if kept then x :: rest else rest

end EntityQuery
