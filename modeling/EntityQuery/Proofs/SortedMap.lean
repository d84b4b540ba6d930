import EntityQuery.SortedMap
import Mathlib.Data.List.Basic
import Mathlib.Data.Set.Card

/-!
# Looking names up

The laws of `SortedMap.get?` against the operations that make one map from another.

* `SortedMap.get?_insert`: insertion changes what its own name gives and nothing else;
* `SortedMap.get?_insertAll_of_forall_ne`: a name that is not among the entries keeps its value;
* `SortedMap.get?_filter`: selection keeps the value of a name or drops it;
* `SortedMap.get?_erase`: a name that is erased has no value, and the others keep theirs;
* `SortedMap.mem_entries_iff`: a name gives the value that it has an entry with;
* `SortedMap.ofList_eq_iff`: of the entries of a list with one name the last one counts;
* `SortedMap.length_entries`: there are as many entries as names with a value;
* `SortedMap.insertAll_comm`: lists without a name in common are inserted in either order;
* `SortedMap.perm_entries_insertAll`: new names are put beside those that there are.
-/

namespace EntityQuery.SortedMap

variable {α : Type}

theorem lookup_insertEntry_self (name : String) (value : α) (entries : List (String × α)) :
    (insertEntry name value entries).lookup name = some value := by
  induction entries with
  | nil => simp [insertEntry]
  | cons e rest ih =>
    unfold insertEntry
    split_ifs with hbefore hafter
    · simp
    · have hne : (name == e.1) = false := beq_false_of_ne fun heq => String.lt_irrefl _ (heq ▸ hafter)
      rw [List.lookup_cons, hne, ih]
    · simp

theorem lookup_insertEntry_of_ne {name other : String} (h : other ≠ name) (value : α)
    (entries : List (String × α)) : (insertEntry name value entries).lookup other = entries.lookup other := by
  have hother : (other == name) = false := beq_false_of_ne h
  induction entries with
  | nil => simp [insertEntry, List.lookup_cons, hother]
  | cons e rest ih =>
    unfold insertEntry
    split_ifs with hbefore hafter
    · rw [List.lookup_cons, hother]
    · rw [List.lookup_cons, List.lookup_cons, ih]
    · -- the entry that is replaced has the name of the new one
      have hname : e.1 = name := String.le_antisymm (String.not_lt.mp hbefore) (String.not_lt.mp hafter)
      rw [List.lookup_cons, List.lookup_cons, hother, hname, hother]

theorem get?_insert (m : SortedMap α) (name other : String) (value : α) :
    (m.insert name value).get? other = if other = name then some value else m.get? other := by
  unfold get?
  rw [entries_insert]
  split_ifs with h
  · rw [h, lookup_insertEntry_self]
  · exact lookup_insertEntry_of_ne h value m.entries

theorem get?_insertAll_of_forall_ne {name : String} {entries : List (String × α)} (h : ∀ e ∈ entries, name ≠ e.1)
    (m : SortedMap α) : (m.insertAll entries).get? name = m.get? name := by
  induction entries generalizing m with
  | nil => rfl
  | cons e rest ih =>
    rw [List.forall_mem_cons] at h
    rw [insertAll_cons, ih h.2, get?_insert, if_neg h.1]

theorem lookup_filter {entries : List (String × α)} (h : entries.Pairwise fun x y => x.1 < y.1)
    (keep : String → α → Bool) (name : String) :
    (entries.filter fun e => keep e.1 e.2).lookup name = (entries.lookup name).filter (keep name) := by
  induction entries with
  | nil => rfl
  | cons e rest ih =>
    obtain ⟨hlater, hrest⟩ := List.pairwise_cons.mp h
    by_cases hname : name = e.1
    · subst hname
      -- no later entry has the name
      have habsent : (rest.filter fun e => keep e.1 e.2).lookup e.1 = none := by
        rw [List.lookup_eq_none_iff]
        intro x hx
        have hlt := hlater x (List.mem_filter.mp hx).1
        rw [bne_iff_ne]
        intro heq
        rw [heq] at hlt
        exact String.lt_irrefl _ hlt
      rw [List.filter_cons, List.lookup_cons, beq_self_eq_true]
      split_ifs with hkeep
      · rw [List.lookup_cons, beq_self_eq_true]
        exact (Option.filter_some_pos hkeep).symm
      · rw [habsent]
        exact (Option.filter_some_neg (Bool.eq_false_iff.mpr hkeep)).symm
    · have hne : (name == e.1) = false := beq_false_of_ne hname
      rw [List.filter_cons, List.lookup_cons, hne]
      split_ifs
      · rw [List.lookup_cons, hne, ih hrest]
      · rw [ih hrest]

theorem get?_filter (m : SortedMap α) (keep : String → α → Bool) (name : String) :
    (m.filter keep).get? name = (m.get? name).filter (keep name) :=
  lookup_filter m.sorted keep name

theorem get?_erase (m : SortedMap α) (name other : String) :
    (m.erase name).get? other = if other = name then none else m.get? other := by
  rw [erase, get?_filter]
  by_cases h : other = name
  · subst h
    simp
  · rw [if_neg h]
    cases m.get? other with
    | none => rfl
    | some value => simp [h]

theorem nodup_names (m : SortedMap α) : (m.entries.map Prod.fst).Nodup := by
  rw [List.Nodup, List.pairwise_map]
  refine m.sorted.imp ?_
  intro a b hlt heq
  rw [heq] at hlt
  exact String.lt_irrefl _ hlt

/-- When no name is repeated, a name gives the value that it has an entry with, in whichever order the entries are. -/
theorem mem_iff_lookup_eq_some {entries : List (String × α)} (h : (entries.map Prod.fst).Nodup) {name : String}
    {value : α} : (name, value) ∈ entries ↔ entries.lookup name = some value := by
  induction entries with
  | nil => simp
  | cons e rest ih =>
    obtain ⟨hlater, hrest⟩ := List.nodup_cons.mp h
    rw [List.mem_cons, List.lookup_cons, ih hrest]
    by_cases hname : name = e.1
    · subst hname
      -- no later entry has the name
      have habsent : rest.lookup e.1 ≠ some value := by
        intro hlookup
        have hmem : (e.1, value) ∈ rest := (ih hrest).mpr hlookup
        exact hlater (List.mem_map.mpr ⟨_, hmem, rfl⟩)
      simp [habsent, Prod.ext_iff, eq_comm]
    · have hne : (name == e.1) = false := beq_false_of_ne hname
      have hother : (name, value) ≠ e := fun heq => hname (congrArg Prod.fst heq)
      simp [hne, hother]

theorem mem_entries_iff {m : SortedMap α} {name : String} {value : α} :
    (name, value) ∈ m.entries ↔ m.get? name = some value :=
  mem_iff_lookup_eq_some m.nodup_names

theorem mem_names_iff {m : SortedMap α} {name : String} :
    name ∈ m.entries.map Prod.fst ↔ (m.get? name).isSome = true := by
  rw [Option.isSome_iff_exists]
  constructor
  · intro hmem
    obtain ⟨e, he, rfl⟩ := List.mem_map.mp hmem
    exact ⟨e.2, mem_entries_iff.mp he⟩
  · rintro ⟨value, hvalue⟩
    exact List.mem_map.mpr ⟨_, mem_entries_iff.mpr hvalue, rfl⟩

theorem length_entries (m : SortedMap α) : m.entries.length = {name | ∃ value, m.get? name = some value}.ncard := by
  have hnames : {name | ∃ value, m.get? name = some value} = ((m.entries.map Prod.fst).toFinset : Set String) := by
    ext name
    rw [List.coe_toFinset, Set.mem_ofPred_eq, Set.mem_ofPred_eq, mem_names_iff, Option.isSome_iff_exists]
  rw [hnames, Set.ncard_coe_finset, List.toFinset_card_of_nodup m.nodup_names, List.length_map]

/-! ## Maps of lists of entries -/

/-- Maps with the same entries, in whichever order, are one map. -/
theorem eq_of_perm {m n : SortedMap α} (h : m.entries.Perm n.entries) : m = n := by
  refine ext (h.eq_of_pairwise ?_ m.sorted n.sorted)
  intro a b _ _ hab hba
  exact absurd (String.lt_trans hab hba) (String.lt_irrefl a.1)

/-- Maps that give the same values are one map. -/
theorem eq_of_forall_get?_eq {m n : SortedMap α} (h : ∀ name, m.get? name = n.get? name) : m = n := by
  have hmem : ∀ e, e ∈ m.entries ↔ e ∈ n.entries := by
    rintro ⟨name, value⟩
    rw [mem_entries_iff, mem_entries_iff, h]
  exact eq_of_perm ((List.perm_ext_iff_of_nodup m.nodup_names.of_map n.nodup_names.of_map).mpr hmem)

theorem get?_insertAll (m : SortedMap α) (entries : List (String × α)) (name : String) :
    (m.insertAll entries).get? name = (entries.reverse.lookup name).or (m.get? name) := by
  induction entries generalizing m with
  | nil => rfl
  | cons e rest ih =>
    rw [insertAll_cons, ih, get?_insert, List.reverse_cons, List.lookup_append, Option.or_assoc, List.lookup_cons]
    by_cases hname : name = e.1
    · simp [hname]
    · have hne : (name == e.1) = false := beq_false_of_ne hname
      simp [hname, hne]

/-- Of a repeated name the last value stays. -/
theorem ofList_eq_iff {entries : List (String × α)} {m : SortedMap α} :
    ofList entries = m ↔ ∀ name, m.get? name = entries.reverse.lookup name := by
  have hget : ∀ name, (ofList entries).get? name = entries.reverse.lookup name := by
    intro name
    have hempty : (empty : SortedMap α).get? name = none := rfl
    rw [ofList, get?_insertAll, hempty, Option.or_none]
  constructor
  · rintro rfl
    exact hget
  · intro h
    exact eq_of_forall_get?_eq fun name => (hget name).trans (h name).symm

/-- The map of the entries of a map is the map. -/
theorem ofList_entries (m : SortedMap α) : ofList m.entries = m := by
  have hnames : (m.entries.reverse.map Prod.fst).Nodup := by
    rw [List.map_reverse, List.nodup_reverse]
    exact m.nodup_names
  refine ofList_eq_iff.mpr fun name => Option.ext fun value => ?_
  rw [← mem_iff_lookup_eq_some hnames, List.mem_reverse, mem_entries_iff]

/-! ## Insertion of several lists -/

theorem insertAll_append (m : SortedMap α) (entries more : List (String × α)) :
    m.insertAll (entries ++ more) = (m.insertAll entries).insertAll more :=
  List.foldl_append

theorem insertAll_flatMap {β : Type} (m : SortedMap α) (xs : List β) (f : β → List (String × α)) :
    m.insertAll (xs.flatMap f) = xs.foldl (fun m x => m.insertAll (f x)) m := by
  induction xs generalizing m with
  | nil => rfl
  | cons x rest ih => rw [List.flatMap_cons, insertAll_append, ih, List.foldl_cons]

theorem lookup_reverse_eq_none {name : String} {entries : List (String × α)} (h : ∀ e ∈ entries, name ≠ e.1) :
    entries.reverse.lookup name = none := by
  rw [List.lookup_eq_none_iff]
  exact fun e he => bne_iff_ne.mpr (h e (List.mem_reverse.mp he))

/-- Lists of entries that have no name in common may be inserted in either order. -/
theorem insertAll_comm {entries more : List (String × α)} (h : ∀ e ∈ entries, ∀ e' ∈ more, e.1 ≠ e'.1)
    (m : SortedMap α) : (m.insertAll entries).insertAll more = (m.insertAll more).insertAll entries := by
  refine eq_of_forall_get?_eq fun name => ?_
  simp only [get?_insertAll]
  by_cases hname : ∃ e ∈ entries, name = e.1
  · obtain ⟨e, he, rfl⟩ := hname
    rw [lookup_reverse_eq_none (h e he), Option.none_or, Option.none_or]
  · have hother : ∀ e ∈ entries, name ≠ e.1 := fun e he heq => hname ⟨e, he, heq⟩
    rw [lookup_reverse_eq_none hother, Option.none_or, Option.none_or]

theorem perm_insertEntry {name : String} {entries : List (String × α)} (h : name ∉ entries.map Prod.fst)
    (value : α) : (insertEntry name value entries).Perm ((name, value) :: entries) := by
  induction entries with
  | nil => exact .refl _
  | cons e rest ih =>
    rw [List.map_cons, List.mem_cons, not_or] at h
    unfold insertEntry
    split_ifs with hbefore hafter
    · exact .refl _
    · exact ((ih h.2).cons e).trans (.swap _ _ _)
    · exact absurd (String.le_antisymm (String.not_lt.mp hafter) (String.not_lt.mp hbefore)) h.1

/-- **Entries of new names are put beside those that there are.** -/
theorem perm_entries_insertAll {m : SortedMap α} {entries : List (String × α)}
    (h : ((m.entries ++ entries).map Prod.fst).Nodup) :
    (m.insertAll entries).entries.Perm (m.entries ++ entries) := by
  induction entries generalizing m with
  | nil => rw [insertAll_nil, List.append_nil]
  | cons e rest ih =>
    have hmiddle : (m.entries ++ e :: rest).Perm (e :: m.entries ++ rest) := List.perm_middle
    have hnames := (hmiddle.map Prod.fst).nodup_iff.mp h
    have hnew : e.1 ∉ m.entries.map Prod.fst := fun hmem =>
      (List.nodup_cons.mp hnames).1 (((List.sublist_append_left m.entries rest).map Prod.fst).subset hmem)
    have hinsert : (m.insert e.1 e.2).entries.Perm (e :: m.entries) := perm_insertEntry hnew e.2
    have hrest := ih (((hinsert.append_right rest).map Prod.fst).nodup_iff.mpr hnames)
    exact hrest.trans ((hinsert.append_right rest).trans hmiddle.symm)

end EntityQuery.SortedMap
