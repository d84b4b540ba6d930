import EntityQuery.Proofs.Json.Order
import EntityQuery.Proofs.Store.Sorting

/-!
# The order of the rows of a result

Rows are compared by the first sort key on which they differ. Values that do not compare count as equal, so a column
that mixes kinds can tie one value with two others that it does not tie. Where each key sees values of one kind and
nulls, the comparison is a total preorder, and then there is exactly one way to sort the rows by it and to keep tied
rows in their order.

* `SortKey.compareRows_eq_lt_iff`, `SortKey.compareAll_eq_lt_iff`: what the comparisons decide;
* `SortKey.weakOrderOn_beforeByAll`, `SortKey.orders_of_uniform`: columns of one kind each make an order of the rows;
* `SortKey.sortRows_cons`: the first key can be sorted by last;
* `Query.rows_are_sorted_stably`: all of this for the rows of a query that pass its criteria.
-/

namespace EntityQuery

namespace SortKey

/-! ## What keys decide -/

/-- A row comes before another one by a key: null first when ascending, and last when descending. -/
def Before (entity : String) (k : SortKey) (a b : Row) : Prop :=
  match k.direction with
  | .ascending => Json.Before (a.value entity k.attributeName) (b.value entity k.attributeName)
  | .descending => Json.Before (b.value entity k.attributeName) (a.value entity k.attributeName)

/-- A row comes before another one by the first key that does not tie them. -/
def BeforeByAll (entity : String) : List SortKey → Row → Row → Prop
  | [] => fun _ _ => False
  | k :: rest => lexBefore (k.Before entity) (BeforeByAll entity rest)

variable {entity : String} {k : SortKey} {keys : List SortKey} {a b : Row} {rows : List Row}

theorem compareRows_eq_lt_iff : k.compareRows entity a b = .lt ↔ k.Before entity a b := by
  unfold compareRows Before
  cases k.direction with
  | ascending => exact Json.compareNullsFirst_eq_lt_iff
  | descending => exact Ordering.swap_eq_lt.trans Json.compareNullsFirst_eq_gt_iff

theorem compareRows_eq_gt_iff : k.compareRows entity a b = .gt ↔ k.Before entity b a := by
  unfold compareRows Before
  cases k.direction with
  | ascending => exact Json.compareNullsFirst_eq_gt_iff
  | descending => exact Ordering.swap_eq_gt.trans Json.compareNullsFirst_eq_lt_iff

/-- **The comparison by all keys decides which row comes first.** -/
theorem compareAll_eq_lt_iff : compareAll entity a b keys = .lt ↔ BeforeByAll entity keys a b := by
  induction keys with
  | nil => simp [compareAll, BeforeByAll]
  | cons k rest ih =>
    unfold compareAll BeforeByAll lexBefore
    rw [← ih, ← compareRows_eq_lt_iff, ← compareRows_eq_gt_iff]
    cases k.compareRows entity a b <;> simp

theorem compareAll_eq_gt_iff : compareAll entity a b keys = .gt ↔ BeforeByAll entity keys b a := by
  induction keys with
  | nil => simp [compareAll, BeforeByAll]
  | cons k rest ih =>
    unfold compareAll BeforeByAll lexBefore
    rw [← ih, ← compareRows_eq_gt_iff, ← compareRows_eq_lt_iff]
    cases k.compareRows entity a b <;> simp

/-! ## Columns of one kind -/

/-- The key sees nulls and values of one kind in the rows of a list. -/
def Uniform (entity : String) (rows : List Row) (k : SortKey) : Prop :=
  ∃ kind, ∀ row ∈ rows, (row.value entity k.attributeName).Fits kind

theorem Uniform.mono {rows' : List Row} (h : k.Uniform entity rows) (hsub : rows' ⊆ rows) :
    k.Uniform entity rows' := by
  obtain ⟨kind, hkind⟩ := h
  exact ⟨kind, fun row hrow => hkind row (hsub hrow)⟩

theorem weakOrderOn_before (h : k.Uniform entity rows) : WeakOrderOn (k.Before entity) rows := by
  obtain ⟨kind, hkind⟩ := h
  constructor
  · intro a _ b _ hab hba
    rw [← compareRows_eq_lt_iff] at hab
    rw [← compareRows_eq_gt_iff, hab] at hba
    cases hba
  · intro a ha b hb c hc hac
    unfold Before at hac ⊢
    cases hdirection : k.direction with
    | ascending =>
      rw [hdirection] at hac
      exact hac.splits (hkind c hc) (hkind b hb)
    | descending =>
      rw [hdirection] at hac
      exact (hac.splits (hkind a ha) (hkind b hb)).symm

/-- **Columns of one kind each make an order of the rows.** -/
theorem weakOrderOn_beforeByAll (h : ∀ k ∈ keys, k.Uniform entity rows) :
    WeakOrderOn (BeforeByAll entity keys) rows := by
  induction keys with
  | nil => exact ⟨fun _ _ _ _ => False.elim, fun _ _ _ _ _ _ => False.elim⟩
  | cons k rest ih =>
    rw [List.forall_mem_cons] at h
    exact (weakOrderOn_before h.1).lex (ih h.2)

theorem orders_of_uniform (h : ∀ k ∈ keys, k.Uniform entity rows) : Orders keys entity rows :=
  (weakOrderOn_beforeByAll h).preorderOn (fun _ _ => compareAll_eq_lt_iff) fun _ _ => compareAll_eq_gt_iff

/-! ## Sorted rows -/

theorem isStableSort_sortRows (h : ∀ k ∈ keys, k.Uniform entity rows) :
    IsStableSort (BeforeByAll entity keys) rows (sortRows keys entity rows) := by
  refine isStableSort_mergeSort (weakOrderOn_beforeByAll h) fun a _ b _ => ?_
  rw [bne_iff_ne, ne_eq, compareAll_eq_gt_iff]

/-- Behind a single key there is nothing that could decide. -/
theorem beforeByAll_singleton (entity : String) (k : SortKey) : BeforeByAll entity [k] = k.Before entity := by
  funext a b
  simp [BeforeByAll, lexBefore]

/-- **The first key can be sorted by last**, since stable sorting keeps what the other keys made of tied rows. -/
theorem sortRows_cons (h : ∀ k' ∈ k :: keys, k'.Uniform entity rows) :
    sortRows (k :: keys) entity rows = sortRows [k] entity (sortRows keys entity rows) := by
  have hkeys := isStableSort_sortRows ((List.forall_mem_cons.mp h).2)
  have hk : IsStableSort (BeforeByAll entity [k]) (sortRows keys entity rows)
      (sortRows [k] entity (sortRows keys entity rows)) := by
    refine isStableSort_sortRows fun k' hk' => ?_
    obtain rfl := List.mem_singleton.mp hk'
    exact (h k' List.mem_cons_self).mono hkeys.perm.subset
  rw [beforeByAll_singleton] at hk
  have hboth := hkeys.lex hk (weakOrderOn_before (h k List.mem_cons_self))
  exact (isStableSort_sortRows h).eq hboth (weakOrderOn_beforeByAll h)

theorem sortRows_eq_foldr (h : ∀ k ∈ keys, k.Uniform entity rows) :
    sortRows keys entity rows = keys.foldr (fun k rows => sortRows [k] entity rows) rows := by
  induction keys with
  | nil => exact sortRows_nil entity rows
  | cons k rest ih => rw [sortRows_cons h, ih (List.forall_mem_cons.mp h).2, List.foldr_cons]

end SortKey

namespace Query

/-- **The rows of a result are sorted stably by all keys.** Each key has to see values of one kind, or null, in the
rows that pass the criteria. Then the comparison is a total preorder, and one permutation of the rows alone is in the
order of the keys and keeps tied rows in theirs: that of `SortKey.sortRows`, which the answer is made of. Sorting by one
key after the other, the last key first, gives it as well. -/
theorem rows_are_sorted_stably {q : Query} {records : List Record} {joined kept : List Row}
    (hname : q.entity.isEmpty = false) (hjoined : q.joinedRows records = .ok joined)
    (hkept : q.filterRows joined = .ok kept) (huniform : ∀ k ∈ q.sortKeys, k.Uniform q.entity kept) :
    PreorderOn (fun a b => SortKey.compareAll q.entity a b q.sortKeys) kept ∧
      (∀ out, IsStableSort (SortKey.BeforeByAll q.entity q.sortKeys) kept out ↔
        out = SortKey.sortRows q.sortKeys q.entity kept) ∧
      SortKey.sortRows q.sortKeys q.entity kept =
        q.sortKeys.foldr (fun k rows => SortKey.sortRows [k] q.entity rows) kept ∧
      q.answer records = .ok (q.paginate
        (({ q with sortKeys := [] } : Query).present (SortKey.sortRows q.sortKeys q.entity kept))) := by
  have hsorted := SortKey.isStableSort_sortRows huniform
  refine ⟨SortKey.orders_of_uniform huniform, fun out => ⟨fun hout => ?_, ?_⟩,
    SortKey.sortRows_eq_foldr huniform, ?_⟩
  · exact hout.eq hsorted (SortKey.weakOrderOn_beforeByAll huniform)
  · rintro rfl
    exact hsorted
  · rw [← present_eq_sorted]
    exact answer_eq_ok_iff.mpr ⟨hname, joined, kept, hjoined, hkept, rfl⟩

/-- Cities ascending and revenues descending, where a revenue is missing and where an integer and a double are one
number. -/
theorem rows_are_sorted_stably_accounts :
    let account (name city : String) (revenue : Json) : Record :=
      { logicalName := "account"
        attributes := .ofList [("city", .string city), ("name", .string name), ("revenue", revenue)] }
    let whole : Json := .number (.int 5 (by decide))
    let double : Json := .number (.float { negative := false, magnitude := 0x4014000000000000 })
    let more : Json := .number (.int 7 (by decide))
    let a := account "a" "Rome" whole
    let b := account "b" "Oslo" .null
    let c := account "c" "Oslo" more
    let d := account "d" "Rome" double
    let rows := [a, b, c, d].map (Row.single "account")
    let q : Query :=
      { entity := "account", columns := .all
        sortKeys := [{ attributeName := "city" }, { attributeName := "revenue", direction := .descending }] }
    q.joinedRows [a, b, c, d] = .ok rows ∧ q.filterRows rows = .ok rows ∧
      (∀ k ∈ q.sortKeys, k.Uniform "account" rows) ∧
      PreorderOn (fun a b => SortKey.compareAll "account" a b q.sortKeys) rows ∧
      IsStableSort (SortKey.BeforeByAll "account" q.sortKeys) rows ([c, b, a, d].map (Row.single "account")) ∧
      q.answer [a, b, c, d] = .ok { records := [c, b, a, d] } := by
  intro account whole double more a b c d rows q
  have hjoined : q.joinedRows [a, b, c, d] = .ok rows := rfl
  have hkept : q.filterRows rows = .ok rows := rfl
  have huniform : ∀ k ∈ q.sortKeys, k.Uniform "account" rows := by
    rintro k (_ | ⟨_, _ | ⟨_, ⟨⟩⟩⟩)
    · exact ⟨.string, by decide⟩
    · exact ⟨.number, by decide⟩
  obtain ⟨hpreorder, hunique, -, hanswer⟩ := rows_are_sorted_stably rfl hjoined hkept huniform
  have hsorted : SortKey.sortRows q.sortKeys "account" rows = [c, b, a, d].map (Row.single "account") := by
    have hab : SortKey.compareAll "account" (.single "account" a) (.single "account" b) q.sortKeys = .gt := by decide
    have had : SortKey.compareAll "account" (.single "account" a) (.single "account" d) q.sortKeys = .eq := by
      decide +kernel
    have hbc : SortKey.compareAll "account" (.single "account" b) (.single "account" c) q.sortKeys = .gt := by decide
    have hbd : SortKey.compareAll "account" (.single "account" b) (.single "account" d) q.sortKeys = .lt := by decide
    have hcd : SortKey.compareAll "account" (.single "account" c) (.single "account" d) q.sortKeys = .lt := by decide
    simp [SortKey.sortRows, rows, List.mergeSort, hab, had, hbc, hbd, hcd]
  have hproject : [c, b, a, d].map (q.project ∘ Row.single "account") = [c, b, a, d] := by
    refine List.map_id'' (fun r => ?_) _
    have hall : r.attributes.filter (fun name _ => q.columns.contains name) = r.attributes :=
      SortedMap.ext (List.filter_eq_self.mpr fun _ _ => rfl)
    rw [Function.comp_apply, project, Row.single_self]
    dsimp only
    rw [hall]
    rfl
  have hanswer' : q.answer [a, b, c, d] = .ok { records := [c, b, a, d] } := by
    rw [hanswer, hsorted, present, SortKey.sortRows_nil, List.map_map]
    exact congrArg (fun records => Except.ok ({ records } : Page)) hproject
  exact ⟨hjoined, hkept, huniform, hpreorder, (hunique _).mpr hsorted.symm, hanswer'⟩

end Query

end EntityQuery
