/-!
# Sets of names

`NameSet` lists its members in strictly increasing order, so sets with the same members are equal. Names
are ordered by code point.
-/

namespace EntityQuery

/-- A finite set of names, listed in strictly increasing order. -/
structure NameSet where
  names : List String
  sorted : names.Pairwise (· < ·)
deriving DecidableEq

namespace NameSet

/-- Equal lists make equal sets. -/
@[ext] theorem ext {s t : NameSet} (h : s.names = t.names) : s = t := by
  cases s; cases t; cases h; rfl

/-- The set without members. -/
def empty : NameSet := ⟨[], .nil⟩

instance : Inhabited NameSet := ⟨empty⟩

@[simp] theorem names_empty : empty.names = [] := rfl

/-- Whether a name is a member. -/
def contains (s : NameSet) (name : String) : Bool := s.names.contains name

/-! ## Insertion -/

/-- Puts a name at its place in a sorted list that may hold it already. -/
def insertName (name : String) : List String → List String
  | [] => [name]
  | x :: rest =>
    if name < x then name :: x :: rest
    else if x < name then x :: insertName name rest
    else x :: rest

@[simp] theorem mem_insertName {name x : String} {names : List String} :
    x ∈ insertName name names ↔ x = name ∨ x ∈ names := by
  induction names with
  | nil => simp [insertName]
  | cons y rest ih =>
    unfold insertName
    split
    · simp
    · rename_i hge
      split
      · simp only [List.mem_cons, ih]
        exact or_left_comm
      · rename_i hle
        have hname : name = y := String.le_antisymm (String.not_lt.mp hle) (String.not_lt.mp hge)
        simp [hname]

/-- Insertion keeps the order. -/
theorem pairwise_insertName {name : String} {names : List String} (h : names.Pairwise (· < ·)) :
    (insertName name names).Pairwise (· < ·) := by
  induction names with
  | nil => simp [insertName]
  | cons x rest ih =>
    obtain ⟨hx, hrest⟩ := List.pairwise_cons.mp h
    unfold insertName
    split
    · rename_i hlt
      refine List.pairwise_cons.mpr ⟨fun y hy => ?_, h⟩
      rcases List.mem_cons.mp hy with rfl | hy
      · exact hlt
      · exact String.lt_trans hlt (hx y hy)
    · split
      · rename_i hlt
        refine List.pairwise_cons.mpr ⟨fun y hy => ?_, ih hrest⟩
        rcases mem_insertName.mp hy with rfl | hy
        · exact hlt
        · exact hx y hy
      · exact h

/-- Adds a name. -/
def insert (s : NameSet) (name : String) : NameSet :=
  ⟨insertName name s.names, pairwise_insertName s.sorted⟩

/-- Adds the names of a list. -/
def insertAll (s : NameSet) (names : List String) : NameSet := names.foldl insert s

@[simp] theorem insertAll_nil (s : NameSet) : s.insertAll [] = s := rfl

@[simp] theorem insertAll_cons (s : NameSet) (name : String) (names : List String) :
    s.insertAll (name :: names) = (s.insert name).insertAll names := rfl

/-- The set of the names of a list. -/
def ofList (names : List String) : NameSet := empty.insertAll names

end NameSet

end EntityQuery
