/-!
# Maps from names to values, sorted by name

`SortedMap α` holds its entries in strictly increasing order of their names, so two maps with the same
entries are the same map. Names are ordered by code point.

* `SortedMap.insert` adds an entry or replaces the value of its name;
* `SortedMap.get?` looks a name up;
* `SortedMap.ofList` inserts entries one by one, so the last value of a repeated name stays.
-/

namespace EntityQuery

/-- Entries in strictly increasing order of their names. -/
structure SortedMap (α : Type u) where
  entries : List (String × α)
  sorted : entries.Pairwise fun x y => x.1 < y.1

namespace SortedMap

variable {α : Type u}

/-- Equal entries make equal maps. -/
@[ext] theorem ext {m n : SortedMap α} (h : m.entries = n.entries) : m = n := by
  cases m; cases n; cases h; rfl

/-- The map without entries. -/
def empty : SortedMap α := ⟨[], .nil⟩

instance : Inhabited (SortedMap α) := ⟨empty⟩

@[simp] theorem entries_empty : (empty : SortedMap α).entries = [] := rfl

/-- The value under a name. -/
def get? (m : SortedMap α) (name : String) : Option α := m.entries.lookup name

/-! ## Insertion -/

/-- Puts an entry at its place in a sorted list, over an entry of the same name. -/
def insertEntry (name : String) (value : α) : List (String × α) → List (String × α)
  | [] => [(name, value)]
  | e :: rest =>
    if name < e.1 then (name, value) :: e :: rest
    else if e.1 < name then e :: insertEntry name value rest
    else (name, value) :: rest

theorem eq_or_mem_of_mem_insertEntry {name : String} {value : α} {e : String × α}
    {entries : List (String × α)} (h : e ∈ insertEntry name value entries) :
    e = (name, value) ∨ e ∈ entries := by
  induction entries with
  | nil => simpa [insertEntry] using h
  | cons x rest ih =>
    unfold insertEntry at h
    split at h
    · simpa using h
    · split at h
      · rcases List.mem_cons.mp h with h | h
        · exact .inr (h ▸ List.mem_cons_self)
        · exact (ih h).imp_right (List.mem_cons_of_mem _)
      · exact (List.mem_cons.mp h).imp_right (List.mem_cons_of_mem _)

/-- Insertion keeps the order. -/
theorem pairwise_insertEntry {name : String} {value : α} {entries : List (String × α)}
    (h : entries.Pairwise fun x y => x.1 < y.1) :
    (insertEntry name value entries).Pairwise fun x y => x.1 < y.1 := by
  induction entries with
  | nil => simp [insertEntry]
  | cons x rest ih =>
    obtain ⟨hx, hrest⟩ := List.pairwise_cons.mp h
    unfold insertEntry
    split
    · rename_i hlt
      refine List.pairwise_cons.mpr ⟨fun y hy => ?_, h⟩
      rcases List.mem_cons.mp hy with rfl | hy
      · exact hlt
      · exact String.lt_trans hlt (hx y hy)
    · rename_i hge
      split
      · rename_i hlt
        refine List.pairwise_cons.mpr ⟨fun y hy => ?_, ih hrest⟩
        rcases eq_or_mem_of_mem_insertEntry hy with rfl | hy
        · exact hlt
        · exact hx y hy
      · rename_i hle
        have hname : name = x.1 := String.le_antisymm (String.not_lt.mp hle) (String.not_lt.mp hge)
        exact List.pairwise_cons.mpr ⟨fun y hy => hname ▸ hx y hy, hrest⟩

/-- Adds an entry, or replaces the value of its name. -/
def insert (m : SortedMap α) (name : String) (value : α) : SortedMap α :=
  ⟨insertEntry name value m.entries, pairwise_insertEntry m.sorted⟩

@[simp] theorem entries_insert (m : SortedMap α) (name : String) (value : α) :
    (m.insert name value).entries = insertEntry name value m.entries := rfl

/-- Inserts entries from left to right into a map. -/
def insertAll (m : SortedMap α) (entries : List (String × α)) : SortedMap α :=
  entries.foldl (fun m e => m.insert e.1 e.2) m

@[simp] theorem insertAll_nil (m : SortedMap α) : m.insertAll [] = m := rfl

@[simp] theorem insertAll_cons (m : SortedMap α) (e : String × α) (entries : List (String × α)) :
    m.insertAll (e :: entries) = (m.insert e.1 e.2).insertAll entries := rfl

/-- The map of a list of entries; of a repeated name the last value stays. -/
def ofList (entries : List (String × α)) : SortedMap α := empty.insertAll entries

/-! ## Selection -/

/-- The entries that pass a test. -/
def filter (m : SortedMap α) (keep : String → α → Bool) : SortedMap α :=
  ⟨m.entries.filter fun e => keep e.1 e.2, m.sorted.sublist List.filter_sublist⟩

@[simp] theorem entries_filter (m : SortedMap α) (keep : String → α → Bool) :
    (m.filter keep).entries = m.entries.filter fun e => keep e.1 e.2 := rfl

/-- The map without the entry of a name. -/
def erase (m : SortedMap α) (name : String) : SortedMap α := m.filter fun n _ => n != name

end SortedMap

end EntityQuery
