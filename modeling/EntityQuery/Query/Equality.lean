import EntityQuery.Query.Basic

/-!
# Equality of queries

Two queries are the same when all their parts are; condition values are compared by `Json.same`, so doubles
at any depth compare as IEEE asks and integers are never the same as doubles.
-/

namespace EntityQuery

/-- Equality of values that may be missing. -/
def sameOption {α : Type} (same : α → α → Bool) : Option α → Option α → Bool
  | none, none => true
  | some x, some y => same x y
  | _, _ => false

/-- Item by item equality of lists. -/
def sameList {α : Type} (same : α → α → Bool) : List α → List α → Bool
  | [], [] => true
  | x :: xs, y :: ys => same x y && sameList same xs ys
  | _, _ => false

/-- Equality of conditions. -/
def Condition.same (c d : Condition) : Bool :=
  c.scope == d.scope && c.attributeName == d.attributeName && c.operator == d.operator &&
    Json.sameItems c.values d.values

instance : BEq Condition := ⟨Condition.same⟩

mutual

/-- Equality of filters. -/
def Filter.same : Filter → Filter → Bool
  | ⟨j, cs, fs⟩, ⟨k, ds, gs⟩ => j == k && sameList Condition.same cs ds && Filter.sameAll fs gs

/-- Equality of lists of filters. -/
def Filter.sameAll : List Filter → List Filter → Bool
  | [], [] => true
  | f :: fs, g :: gs => Filter.same f g && Filter.sameAll fs gs
  | _, _ => false

end

instance : BEq Filter := ⟨Filter.same⟩

mutual

/-- Equality of links. -/
def Link.same : Link → Link → Bool
  | ⟨fe, fa, te, ta, a, k, c, f, ls⟩, ⟨fe', fa', te', ta', a', k', c', f', ls'⟩ =>
    fe == fe' && fa == fa' && te == te' && ta == ta' && a == a' && k == k' && c == c' &&
      sameOption Filter.same f f' && Link.sameAll ls ls'

/-- Equality of lists of links. -/
def Link.sameAll : List Link → List Link → Bool
  | [], [] => true
  | l :: ls, m :: ms => Link.same l m && Link.sameAll ls ms
  | _, _ => false

end

instance : BEq Link := ⟨Link.same⟩

/-- Equality of queries. -/
def Query.same (q r : Query) : Bool :=
  q.entity == r.entity && q.columns == r.columns && sameOption Filter.same q.criteria r.criteria &&
    Link.sameAll q.links r.links && q.sortKeys == r.sortKeys && q.paging == r.paging && q.top == r.top &&
    q.distinct == r.distinct && q.noLock == r.noLock

instance : BEq Query := ⟨Query.same⟩

end EntityQuery
