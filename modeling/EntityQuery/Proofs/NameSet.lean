import EntityQuery.Query.Columns
import Mathlib.Data.List.Nodup
import Mathlib.Tactic.Tauto

/-!
# Members of sets of names

A set of names is known by its members, so neither the order in which names are added nor how often counts.

* `NameSet.mem_names_insertAll`: the members after names were added;
* `NameSet.eq_of_forall_mem_iff`: sets with the same members are one set;
* `Columns.eq_of_names`, `Columns.mem_names_add`: columns by their names, and the names after some were added;
* `Columns.add_comm`: columns can be named in any order.
-/

namespace EntityQuery

namespace NameSet

theorem mem_names_insertAll {name : String} {s : NameSet} {names : List String} :
    name ∈ (s.insertAll names).names ↔ name ∈ s.names ∨ name ∈ names := by
  induction names generalizing s with
  | nil => simp
  | cons x rest ih =>
    have hinsert : name ∈ (s.insert x).names ↔ name = x ∨ name ∈ s.names := mem_insertName
    rw [insertAll_cons, ih, hinsert, List.mem_cons]
    tauto

/-- Sets with the same members are one set. -/
theorem eq_of_forall_mem_iff {s t : NameSet} (h : ∀ name, name ∈ s.names ↔ name ∈ t.names) : s = t := by
  have hnodup : ∀ u : NameSet, u.names.Nodup := fun u => u.sorted.imp String.ne_of_lt
  have hperm := (List.perm_ext_iff_of_nodup (hnodup s) (hnodup t)).mpr h
  refine ext (hperm.eq_of_pairwise ?_ s.sorted t.sorted)
  intro a b _ _ hab hba
  exact absurd (String.lt_trans hab hba) (String.lt_irrefl a)

theorem ofList_eq_iff {names : List String} {s : NameSet} :
    ofList names = s ↔ ∀ name, name ∈ names ↔ name ∈ s.names := by
  have hmem : ∀ name, name ∈ (ofList names).names ↔ name ∈ names := by
    intro name
    rw [ofList, mem_names_insertAll, names_empty]
    simp
  constructor
  · rintro rfl name
    exact (hmem name).symm
  · intro h
    exact eq_of_forall_mem_iff fun name => (hmem name).trans (h name)

/-- The set of the members of a set is the set. -/
@[simp] theorem ofList_names (s : NameSet) : ofList s.names = s := ofList_eq_iff.mpr fun _ => .rfl

theorem insertAll_comm (s : NameSet) (names more : List String) :
    (s.insertAll names).insertAll more = (s.insertAll more).insertAll names := by
  refine eq_of_forall_mem_iff fun name => ?_
  simp only [mem_names_insertAll]
  tauto

end NameSet

/-! ## Columns -/

namespace Columns

variable {c d : Columns} {name : String} {names : List String}

@[simp] theorem names_all : Columns.all.names = [] := rfl

theorem pairwise_names (c : Columns) : c.names.Pairwise (· < ·) := by
  cases c with
  | all => exact .nil
  | only s => exact s.sorted

theorem contains_iff : c.contains name = true ↔ c = .all ∨ name ∈ c.names := by
  cases c <;> simp [contains, NameSet.contains, Columns.names]

/-- Columns are known by whether they are all and by their names. -/
theorem eq_of_names (hall : c = .all ↔ d = .all) (hnames : ∀ name, name ∈ c.names ↔ name ∈ d.names) : c = d := by
  cases c with
  | all => exact (hall.mp rfl).symm
  | only s =>
    cases d with
    | all => exact hall.mpr rfl
    | only t => exact congrArg only (NameSet.eq_of_forall_mem_iff hnames)

theorem mem_names_add : name ∈ (c.add names).names ↔ name ∈ names ∨ name ∈ c.names := by
  cases c with
  | all => exact NameSet.mem_names_insertAll.trans or_comm
  | only s => exact NameSet.mem_names_insertAll.trans or_comm

theorem add_ne_all (c : Columns) (names : List String) : c.add names ≠ .all := by
  cases c <;> exact nofun

/-- Columns can be named in any order. -/
theorem add_comm (c : Columns) (names more : List String) : (c.add names).add more = (c.add more).add names := by
  cases c with
  | all => exact congrArg only (NameSet.insertAll_comm .empty names more)
  | only s => exact congrArg only (s.insertAll_comm names more)

end Columns

end EntityQuery
