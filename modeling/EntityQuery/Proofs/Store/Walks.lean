import EntityQuery.Proofs.Store.Visits
import Mathlib.Data.List.Nodup

/-!
# Walks along visits

A walk takes one row along visits and makes a choice at each. What it leaves in the row is what it chose: a name that
one visit alone binds denotes the record chosen there, and other names what they denoted before.

* `Visit.Allows`, `Walk`: what may be chosen at a visit from a row, and the walks with their choices and last rows;
* `walksFrom`: the choices of all walks, in lexicographic order and each once (`pairwise_walksFrom`);
* `Row.chooseAll_of_not_mem`, `Row.chooseAll_of_count_one`: what names denote at the end;
* `Query.joinedRows_eq`: the joined rows of a query are those of the walks from its root records.
-/

namespace EntityQuery

/-! ## Choices -/

theorem Row.value_congr {row row' : Row} {scope : String} (h : row scope = row' scope) :
    row.value scope = row'.value scope := by
  funext name
  unfold Row.value
  rw [h]

namespace Visit

variable {records : List Record} {v : Visit} {row : Row}

/-- What the link may be bound to: the position of a record that it matches, and nothing if it is a left outer link
that matches none. -/
def Allows (records : List Record) (v : Visit) (row : Row) : Option Nat → Prop
  | some i => ∃ r, records[i]? = some r ∧ v.link.Matches (v.source row) r
  | none => v.link.kind = .leftOuter ∧ ∀ r ∈ records, ¬ v.link.Matches (v.source row) r

/-- What is allowed depends on the row only through the scope that the link starts from. -/
theorem source_congr {row' : Row} (h : row v.parent = row' v.parent) : v.source row = v.source row' := by
  unfold source
  rw [Row.value_congr h]

theorem allows_congr {row' : Row} (h : row v.parent = row' v.parent) (choice : Option Nat) :
    v.Allows records row choice ↔ v.Allows records row' choice := by
  cases choice <;> simp only [Allows, source_congr h]

theorem mem_choices_iff {choice : Option Nat} :
    choice ∈ v.choices records row ↔ v.Allows records row choice := by
  have hnone : records.findIdxs (v.link.joins (v.source row)) = [] ↔
      ∀ r ∈ records, ¬ v.link.Matches (v.source row) r := by
    simp only [List.findIdxs_eq_nil_iff, ← Link.joins_iff, Bool.not_eq_true]
  unfold choices
  cases choice with
  | none =>
    simp only [Allows, ← hnone]
    split_ifs with h
    · simpa [and_comm] using h
    · simpa [and_comm] using h
  | some i =>
    have hmem : i ∈ records.findIdxs (v.link.joins (v.source row)) ↔
        ∃ r, records[i]? = some r ∧ v.link.Matches (v.source row) r := by
      simp only [List.mem_findIdxs_iff_exists_getElem_pos, List.getElem?_eq_some_iff, ← Link.joins_iff]
      constructor
      · rintro ⟨hi, hjoins⟩
        exact ⟨_, ⟨hi, rfl⟩, hjoins⟩
      · rintro ⟨r, ⟨hi, rfl⟩, hjoins⟩
        exact ⟨hi, hjoins⟩
    simp only [Allows, ← hmem]
    split_ifs with h
    · have hempty : records.findIdxs (v.link.joins (v.source row)) = [] := by
        simp only [Bool.and_eq_true, List.isEmpty_iff] at h
        exact h.1
      simp [hempty]
    · simp

theorem pairwise_choices (records : List Record) (v : Visit) (row : Row) :
    (v.choices records row).Pairwise (· < ·) := by
  unfold choices
  dsimp only
  split_ifs
  · exact List.pairwise_singleton _ _
  · rw [List.pairwise_map]
    exact List.pairwise_findIdxs.imp Option.some_lt_some.mpr

end Visit

/-! ## Bindings that choices leave -/

namespace Row

variable {records : List Record} {row : Row} {scope name : String} {choice : Option Nat}

/-- The row that binds no scope. -/
def unbound : Row := fun _ => none

/-- Binds names one after the other, each to what is chosen for it. -/
def chooseAll (records : List Record) (row : Row) : List String → List (Option Nat) → Row
  | name :: names, choice :: choices => chooseAll records (row.choose records name choice) names choices
  | _, _ => row

theorem choose_of_ne (h : name ≠ scope) : row.choose records scope choice name = row name := by
  unfold choose
  cases choice.bind (records[·]?) with
  | none => rfl
  | some r => exact row.bind_of_ne r h

theorem choose_self : row.choose records scope choice scope = (choice.bind (records[·]?)).or (row scope) := by
  unfold choose
  cases choice.bind (records[·]?) with
  | none => rfl
  | some r => exact row.bind_self scope r

/-- Names that are not bound keep what they denote. -/
theorem chooseAll_of_not_mem {names : List String} (h : name ∉ names) (choices : List (Option Nat)) :
    row.chooseAll records names choices name = row name := by
  induction names generalizing row choices with
  | nil => rfl
  | cons scope names ih =>
    cases choices with
    | nil => rfl
    | cons choice choices =>
      rw [List.mem_cons, not_or] at h
      rw [chooseAll, ih h.2, choose_of_ne h.1]

/-- A name that is bound once denotes what is chosen for it there, if that is a record. -/
theorem chooseAll_of_count_one {names : List String} {choices : List (Option Nat)} {k : Nat}
    (hname : names[k]? = some name) (hchoice : choices[k]? = some choice) (hone : names.count name = 1) :
    row.chooseAll records names choices name = (choice.bind (records[·]?)).or (row name) := by
  induction names generalizing row choices k with
  | nil => simp at hname
  | cons scope names ih =>
    obtain - | ⟨first, choices⟩ := choices
    · simp at hchoice
    rw [chooseAll]
    cases k with
    | zero =>
      obtain rfl : scope = name := by simpa using hname
      obtain rfl : first = choice := by simpa using hchoice
      have habsent : scope ∉ names := by
        rw [List.count_cons_self] at hone
        exact List.count_eq_zero.mp (by omega)
      rw [chooseAll_of_not_mem habsent, choose_self]
    | succ k =>
      rw [List.getElem?_cons_succ] at hname hchoice
      have hlater : 0 < names.count name := List.count_pos_iff.mpr (List.mem_of_getElem? hname)
      have hne : name ≠ scope := by
        rintro rfl
        rw [List.count_cons_self] at hone
        omega
      rw [List.count_cons_of_ne (Ne.symm hne)] at hone
      rw [ih hname hchoice hone, choose_of_ne hne]

end Row

/-! ## Walks -/

/-- A walk along visits from a row, with its choices and the row at its end. -/
inductive Walk (records : List Record) : List Visit → Row → List (Option Nat) → Row → Prop where
  | done (row : Row) : Walk records [] row [] row
  | step {v : Visit} {rest : List Visit} {row out : Row} {choice : Option Nat} {choices : List (Option Nat)}
    (hallows : v.Allows records row choice)
    (hrest : Walk records rest (row.choose records v.link.scope choice) choices out) :
    Walk records (v :: rest) row (choice :: choices) out

/-- The choices of all walks along visits from a row. -/
def walksFrom (records : List Record) : List Visit → Row → List (List (Option Nat))
  | [], _ => [[]]
  | v :: rest, row => (v.choices records row).flatMap fun choice =>
    (walksFrom records rest (row.choose records v.link.scope choice)).map (choice :: ·)

section Walks

variable {records : List Record} {vs : List Visit} {row out : Row} {choices : List (Option Nat)}

theorem Walk.out_eq (h : Walk records vs row choices out) :
    out = row.chooseAll records (vs.map fun v => v.link.scope) choices := by
  induction h with
  | done row => rfl
  | step hallows hrest ih => exact ih

theorem mem_walksFrom_iff : choices ∈ walksFrom records vs row ↔ ∃ out, Walk records vs row choices out := by
  induction vs generalizing row choices with
  | nil =>
    constructor
    · intro h
      obtain rfl : choices = [] := by simpa [walksFrom] using h
      exact ⟨row, .done row⟩
    · rintro ⟨out, ⟨⟩⟩
      simp [walksFrom]
  | cons v rest ih =>
    simp only [walksFrom, List.mem_flatMap, List.mem_map, ih, Visit.mem_choices_iff]
    constructor
    · rintro ⟨choice, hallows, later, ⟨out, hwalk⟩, rfl⟩
      exact ⟨out, .step hallows hwalk⟩
    · rintro ⟨out, ⟨⟩⟩
      exact ⟨_, ‹_›, _, ⟨out, ‹_›⟩, rfl⟩

/-- Branching at increasing choices into increasing continuations is increasing. -/
theorem pairwise_branch {firsts : List (Option Nat)} {rest : Option Nat → List (List (Option Nat))}
    (hfirsts : firsts.Pairwise (· < ·)) (hrest : ∀ choice ∈ firsts, (rest choice).Pairwise (· < ·)) :
    (firsts.flatMap fun choice => (rest choice).map (choice :: ·)).Pairwise (· < ·) := by
  rw [List.pairwise_flatMap]
  constructor
  · intro choice hchoice
    rw [List.pairwise_map]
    exact (hrest choice hchoice).imp fun hlt => List.cons_lt_cons_iff.mpr (.inr ⟨rfl, hlt⟩)
  · refine hfirsts.imp fun {a b} hlt xs hxs ys hys => ?_
    obtain ⟨xs, -, rfl⟩ := List.mem_map.mp hxs
    obtain ⟨ys, -, rfl⟩ := List.mem_map.mp hys
    exact List.cons_lt_cons_iff.mpr (.inl hlt)

/-- **The walks from a row are listed in lexicographic order of their choices**, each once. -/
theorem pairwise_walksFrom (records : List Record) (vs : List Visit) (row : Row) :
    (walksFrom records vs row).Pairwise (· < ·) := by
  induction vs generalizing row with
  | nil => exact List.pairwise_singleton _ _
  | cons v rest ih => exact pairwise_branch (v.pairwise_choices records row) fun _ _ => ih _

theorem rowsFrom_eq_map (records : List Record) (vs : List Visit) (row : Row) : rowsFrom records vs row =
    (walksFrom records vs row).map (row.chooseAll records (vs.map fun v => v.link.scope)) := by
  induction vs generalizing row with
  | nil => rfl
  | cons v rest ih =>
    simp only [rowsFrom, walksFrom, ih, List.map_flatMap, List.map_map]
    rfl

/-- A walk leaves the names alone that no visit binds. -/
theorem eq_of_mem_rowsFrom {name : String} (h : out ∈ rowsFrom records vs row)
    (hname : name ∉ vs.map fun v => v.link.scope) : out name = row name := by
  rw [rowsFrom_eq_map] at h
  obtain ⟨choices, -, rfl⟩ := List.mem_map.mp h
  exact Row.chooseAll_of_not_mem hname choices

end Walks

/-! ## Queries -/

namespace Query

variable {q : Query} {records : List Record}

/-- The links of the query in pre-order. -/
def visits (q : Query) : List Visit := Link.visitsOf q.entity q.links

/-- The names that the rows of the query bind, in the order in which they do: the entity, then the scopes. -/
def names (q : Query) : List String := q.entity :: q.visits.map fun v => v.link.scope

/-- The choices of all walks from the root records, the position of the root record first. -/
def combinations (q : Query) (records : List Record) : List (List (Option Nat)) :=
  ((records.findIdxs fun r => r.logicalName == q.entity).map some).flatMap fun root =>
    (walksFrom records q.visits (Row.unbound.choose records q.entity root)).map (root :: ·)

theorem rootRows_eq (q : Query) (records : List Record) : q.rootRows records =
    ((records.findIdxs fun r => r.logicalName == q.entity).map some).map
      (Row.unbound.choose records q.entity) := by
  rw [Link.choose_some]
  rfl

/-- **The joined rows are those of the walks from the root records.** -/
theorem joinedRows_eq {joined : List Row} (h : q.joinedRows records = .ok joined) :
    joined = (q.combinations records).map (Row.unbound.chooseAll records q.names) := by
  rw [Link.followAll_eq records q.entity q.links h, rootRows_eq, combinations, List.flatMap_map, List.map_flatMap]
  refine List.flatMap_congr fun root _ => ?_
  rw [List.map_map, ← visits, rowsFrom_eq_map]
  rfl

/-- Complete links with well-sized criteria join the rows of the walks. -/
theorem joinedRows_ok (records : List Record) (hcomplete : ∀ v ∈ q.visits, v.link.Complete)
    (hsized : ∀ v ∈ q.visits, ∀ f, v.link.criteria = some f → f.WellSized) :
    q.joinedRows records = .ok ((q.rootRows records).flatMap (rowsFrom records q.visits)) := by
  obtain ⟨joined, hjoined⟩ := Link.followAll_ok records q.entity q.links (q.rootRows records) hcomplete hsized
  rw [joinedRows, hjoined, Link.followAll_eq records q.entity q.links hjoined]
  rfl

theorem pairwise_combinations (q : Query) (records : List Record) :
    (q.combinations records).Pairwise (· < ·) := by
  refine pairwise_branch ?_ fun _ _ => pairwise_walksFrom records _ _
  rw [List.pairwise_map]
  exact List.pairwise_findIdxs.imp Option.some_lt_some.mpr

theorem choose_root {root : Record} {i : Nat} (h : records[i]? = some root) :
    Row.unbound.choose records q.entity (some i) = .single q.entity root := by
  unfold Row.choose
  rw [Option.bind_some, h]
  rfl

theorem mem_combinations_iff {choices : List (Option Nat)} : choices ∈ q.combinations records ↔
    ∃ i root later out, choices = some i :: later ∧ records[i]? = some root ∧ root.logicalName = q.entity ∧
      Walk records q.visits (.single q.entity root) later out := by
  simp only [combinations, List.mem_flatMap, List.mem_map, mem_walksFrom_iff,
    List.mem_findIdxs_iff_exists_getElem_pos, beq_iff_eq]
  constructor
  · rintro ⟨_, ⟨i, ⟨hi, hname⟩, rfl⟩, later, ⟨out, hwalk⟩, rfl⟩
    have hroot := List.getElem?_eq_getElem hi
    rw [choose_root hroot] at hwalk
    exact ⟨i, _, later, out, rfl, hroot, hname, hwalk⟩
  · rintro ⟨i, root, later, out, rfl, hroot, hname, hwalk⟩
    obtain ⟨hi, rfl⟩ := List.getElem?_eq_some_iff.mp hroot
    rw [← choose_root hroot] at hwalk
    exact ⟨_, ⟨i, ⟨hi, hname⟩, rfl⟩, later, ⟨out, hwalk⟩, rfl⟩

end Query

end EntityQuery
