import EntityQuery.Proofs.Bounds.Matching
import EntityQuery.Proofs.Store.Results
import EntityQuery.Proofs.Store.Walks
import EntityQuery.Retrieval.Backend

/-!
# Answers without a breach

`Query.checkedAnswer` answers a query as a store does, with every read checked: the values of conditions, the characters
of patterns and texts, the number before that of the page, the part of the result that is the page, and the root record
of each row that is projected. A link may bind its scope over another binding but takes none away, so the entity is
bound in every row.

* `Link.checkedFollowAll_eq`: joins make no breach;
* `Query.isSome_of_mem_joinedRows`: every joined row binds the entity;
* `Paging.checkedCut_eq`: a page is cut out within the result, and its positions are below `2 ^ 64`;
* `answers_make_no_breach`: no query makes a breach on any store.
-/

namespace EntityQuery

/-! ## Joins -/

/-- The items that pass a test, in order. -/
def checkedKeepThat {α : Type} (test : α → Checked Bool) : List α → Checked (List α)
  | [] => return []
  | x :: xs => do
    let kept ← test x
    let rest ← checkedKeepThat test xs
    return if kept then x :: rest else rest

theorem checkedKeepThat_eq {α : Type} {test : α → Checked Bool} {plain : α → Except QueryError Bool}
    (h : ∀ x, test x = .of (plain x)) (xs : List α) : checkedKeepThat test xs = .of (keepThat plain xs) := by
  induction xs with
  | nil => rfl
  | cons x rest ih =>
    simp only [checkedKeepThat, h, ih, Checked.pure_eq_of, Checked.of_bind]
    rfl

namespace Link

/-- Whether a candidate alone passes the criteria of a link. -/
def checkedAdmits (l : Link) (scope : String) (candidate : Record) : Checked Bool :=
  match l.criteria with
  | none => return true
  | some criteria => criteria.checkedHolds (.single scope candidate) scope

/-- The rows that a row becomes. -/
def checkedExtendRow (records : List Record) (l : Link) (keys : JoinKeys) (parent scope : String) (row : Row) :
    Checked (List Row) := do
  let found ← checkedKeepThat (l.checkedAdmits scope)
    (candidates records keys (row.value parent keys.fromAttribute))
  return if found.isEmpty && l.kind == .leftOuter then [row] else found.map fun r => row.bind scope r

/-- The rows that the rows of a list become, in order. -/
def checkedExtendRows (records : List Record) (l : Link) (keys : JoinKeys) (parent scope : String) :
    List Row → Checked (List Row)
  | [] => return []
  | row :: rest => do
    let rows ← checkedExtendRow records l keys parent scope row
    let rest ← checkedExtendRows records l keys parent scope rest
    return rows ++ rest

mutual

/-- Follows a link and the links below it from every row. -/
def checkedFollow (records : List Record) (parent : String) : Link → List Row → Checked (List Row)
  | ⟨fromEntity, fromAttribute, toEntity, toAttribute, aliasName, kind, columns, criteria, links⟩, rows => do
    let l : Link :=
      { fromEntity, fromAttribute, toEntity, toAttribute, aliasName, kind, columns, criteria, links }
    let keys ← Checked.of l.keys
    let scope := l.scope?.getD keys.toEntity
    let rows ← checkedExtendRows records l keys parent scope rows
    checkedFollowAll records scope links rows

/-- Follows the links of a list one after the other. -/
def checkedFollowAll (records : List Record) (parent : String) : List Link → List Row → Checked (List Row)
  | [], rows => return rows
  | l :: rest, rows => do
    let rows ← checkedFollow records parent l rows
    checkedFollowAll records parent rest rows

end

section Joins

variable (records : List Record) (l : Link) (keys : JoinKeys) (parent scope : String)

theorem checkedAdmits_eq (candidate : Record) : l.checkedAdmits scope candidate = .of (l.admits scope candidate) := by
  unfold checkedAdmits admits
  cases l.criteria with
  | none => rfl
  | some criteria => exact criteria.checkedHolds_eq _ _

theorem checkedExtendRow_eq (row : Row) :
    checkedExtendRow records l keys parent scope row = .of (extendRow records l keys parent scope row) := by
  simp only [checkedExtendRow, checkedKeepThat_eq (checkedAdmits_eq l scope), Checked.pure_eq_of, Checked.of_bind]
  rfl

theorem checkedExtendRows_eq (rows : List Row) :
    checkedExtendRows records l keys parent scope rows = .of (extendRows records l keys parent scope rows) := by
  induction rows with
  | nil => rfl
  | cons row rest ih =>
    simp only [checkedExtendRows, checkedExtendRow_eq, ih, Checked.pure_eq_of, Checked.of_bind]
    rfl

end Joins

mutual

theorem checkedFollow_eq (records : List Record) : ∀ (parent : String) (l : Link) (rows : List Row),
    checkedFollow records parent l rows = .of (follow records parent l rows)
  | parent, ⟨fromEntity, fromAttribute, toEntity, toAttribute, aliasName, kind, columns, criteria, links⟩, rows => by
    simp only [checkedFollow, checkedExtendRows_eq, checkedFollowAll_eq records _ links, Checked.of_bind]
    rfl

/-- **Joins make no breach.** -/
theorem checkedFollowAll_eq (records : List Record) : ∀ (parent : String) (links : List Link) (rows : List Row),
    checkedFollowAll records parent links rows = .of (followAll records parent links rows)
  | _, [], _ => rfl
  | parent, l :: rest, rows => by
    simp only [checkedFollowAll, checkedFollow_eq records parent l, checkedFollowAll_eq records parent rest,
      Checked.of_bind]
    rfl

end

end Link

/-! ## Root records -/

section Roots

variable {records : List Record} {vs : List Visit} {row out : Row} {name : String}

/-- A choice takes no binding away. -/
theorem Row.isSome_choose (h : (row name).isSome = true) (scope : String) (choice : Option Nat) :
    (row.choose records scope choice name).isSome = true := by
  by_cases hname : name = scope
  · subst hname
    rw [Row.choose_self, Option.isSome_or, h, Bool.or_true]
  · rwa [Row.choose_of_ne hname]

theorem isSome_of_mem_rowsFrom (hout : out ∈ rowsFrom records vs row) (h : (row name).isSome = true) :
    (out name).isSome = true := by
  induction vs generalizing row with
  | nil =>
    obtain rfl : out = row := List.mem_singleton.mp hout
    exact h
  | cons v rest ih =>
    obtain ⟨choice, -, hout⟩ := List.mem_flatMap.mp hout
    exact ih hout (Row.isSome_choose h _ _)

/-- **Every joined row binds the entity.** -/
theorem Query.isSome_of_mem_joinedRows {q : Query} {joined : List Row} (h : q.joinedRows records = .ok joined)
    (hrow : row ∈ joined) : (row q.entity).isSome = true := by
  rw [Link.followAll_eq records q.entity q.links h] at hrow
  obtain ⟨start, hstart, hrow⟩ := List.mem_flatMap.mp hrow
  obtain ⟨root, -, rfl⟩ := List.mem_map.mp hstart
  refine isSome_of_mem_rowsFrom hrow ?_
  rw [Row.single_self]
  rfl

end Roots

/-! ## Pages -/

namespace Paging

/-- A number of at most 64 bits, the greatest one standing for those beyond. -/
def saturated (n : Nat) : Nat := min n (2 ^ 64 - 1)

/-- The part of a result between two positions; nothing is taken out when the first is not within the result. -/
def checkedPart (records : List Record) (start stop : Nat) : Except Breach (List Record) :=
  if start < records.length then slice records start stop else .ok []

/-- Cuts a page out of a result. -/
def checkedCut (p : Paging) (size : UInt32) (records : List Record) : Except Breach Page := do
  let before ← difference p.effectiveNumber 1
  let start := saturated (before * size.toNat)
  let stop := min (saturated (start + size.toNat)) records.length
  let found ← checkedPart records start stop
  let more := decide (stop < records.length)
  return {
    records := found
    more
    cookie := if more then some p.nextCookie else none
    total := if p.wantsTotal then some records.length else none }

theorem effectiveNumber_lt (p : Paging) : p.effectiveNumber < 2 ^ 32 := by
  have hlt := p.pageNumber.toNat_lt
  unfold effectiveNumber
  omega

/-- The positions of a page are numbers of at most 64 bits, also those after the last page. -/
theorem start_add_size_lt (p : Paging) (size : UInt32) : p.start size + size.toNat < 2 ^ 64 := by
  have hpage := p.effectiveNumber_lt
  have hsize := size.toNat_lt
  calc p.start size + size.toNat = p.effectiveNumber * size.toNat := p.start_add_size size
    _ ≤ (2 ^ 32 - 1) * (2 ^ 32 - 1) := Nat.mul_le_mul (by omega) (by omega)
    _ < 2 ^ 64 := by decide

theorem saturated_of_lt {n : Nat} (h : n < 2 ^ 64) : saturated n = n := by
  unfold saturated
  omega

/-- Where there are records on a page, their positions are in order and within the result. -/
theorem checkedPart_eq (p : Paging) (size : UInt32) (records : List Record) :
    checkedPart records (p.start size) (p.stop size records.length) = .ok (p.cut size records).records := by
  unfold checkedPart
  split_ifs with hstart
  · refine slice_of_le ?_ (Nat.min_le_right _ _)
    unfold stop
    omega
  · show _ = Except.ok ((records.take _).drop _)
    rw [List.drop_eq_nil_of_le]
    rw [List.length_take]
    omega

/-- **A page is cut out within the result.** -/
theorem checkedCut_eq (p : Paging) (size : UInt32) (records : List Record) :
    p.checkedCut size records = .ok (p.cut size records) := by
  have hlt := p.start_add_size_lt size
  have hstart : saturated ((p.effectiveNumber - 1) * size.toNat) = p.start size :=
    saturated_of_lt (Nat.lt_of_le_of_lt (Nat.le_add_right _ _) hlt)
  have hstop : min (saturated (p.start size + size.toNat)) records.length = p.stop size records.length := by
    rw [saturated_of_lt hlt, stop]
  have hfirst : difference p.effectiveNumber 1 = .ok (p.effectiveNumber - 1) := difference_of_le (Nat.le_max_right _ _)
  simp only [checkedCut, hfirst, bind, Except.bind, hstart, hstop, checkedPart_eq]
  rfl

end Paging

/-! ## Answers -/

namespace Query

/-- The rows that pass the criteria. -/
def checkedFilterRows (q : Query) (rows : List Row) : Checked (List Row) :=
  match q.criteria with
  | none => return rows
  | some criteria => checkedKeepThat (fun row => criteria.checkedHolds row q.entity) rows

/-- The result record of a row, which has to bind the entity. -/
def checkedProject (q : Query) (row : Row) : Except Breach Record :=
  if (row q.entity).isSome then .ok (q.project row) else .error .unboundRoot

/-- The result records of filtered rows. -/
def checkedPresent (q : Query) (rows : List Row) : Except Breach (List Record) := do
  let projected ← (SortKey.sortRows q.sortKeys q.entity rows).mapM q.checkedProject
  let unique := if q.distinct then Record.distinct projected else projected
  return match q.top with
    | none => unique
    | some top => unique.take top.toNat

/-- The page of a result that the query wants. -/
def checkedPaginate (q : Query) (records : List Record) : Except Breach Page :=
  match q.top, q.paging.pageSize with
  | none, some size => q.paging.checkedCut size records
  | _, _ => return q.paging.whole records

/-- The records of the whole result. -/
def checkedResult (q : Query) (records : List Record) : Checked (List Record) :=
  if q.entity.isEmpty then throw .noEntityName
  else do
    let joined ← Link.checkedFollowAll records q.entity q.links (q.rootRows records)
    let rows ← q.checkedFilterRows joined
    .reading (q.checkedPresent rows)

/-- The page that answers a query. -/
def checkedAnswer (q : Query) (records : List Record) : Checked Page := do
  let full ← q.checkedResult records
  .reading (q.checkedPaginate full)

section Answers

variable {q : Query} {records : List Record} {rows : List Row}

theorem checkedFilterRows_eq (q : Query) (rows : List Row) : q.checkedFilterRows rows = .of (q.filterRows rows) := by
  unfold checkedFilterRows filterRows
  cases q.criteria with
  | none => rfl
  | some criteria => exact checkedKeepThat_eq (fun row => criteria.checkedHolds_eq row q.entity) rows

/-- A step that succeeds on every item succeeds on the list. -/
theorem mapM_eq_ok {α β ε : Type} {f : α → Except ε β} {g : α → β} {xs : List α} (h : ∀ x ∈ xs, f x = .ok (g x)) :
    xs.mapM f = .ok (xs.map g) := by
  induction xs with
  | nil => rfl
  | cons x rest ih =>
    rw [List.mapM_cons, h x List.mem_cons_self, ih fun y hy => h y (List.mem_cons_of_mem x hy)]
    rfl

/-- Rows that bind the entity are projected and presented without a breach. -/
theorem checkedPresent_eq (h : ∀ row ∈ rows, (row q.entity).isSome = true) :
    q.checkedPresent rows = .ok (q.present rows) := by
  have hsorted : (SortKey.sortRows q.sortKeys q.entity rows).mapM q.checkedProject =
      .ok ((SortKey.sortRows q.sortKeys q.entity rows).map q.project) := by
    refine mapM_eq_ok fun row hrow => ?_
    rw [checkedProject, if_pos (h row (List.mem_mergeSort.mp hrow))]
  unfold checkedPresent present
  rw [hsorted]
  rfl

theorem checkedPaginate_eq (q : Query) (records : List Record) :
    q.checkedPaginate records = .ok (q.paginate records) := by
  unfold checkedPaginate paginate
  cases q.top with
  | some top => rfl
  | none =>
    cases q.paging.pageSize with
    | none => rfl
    | some size => exact q.paging.checkedCut_eq size records

/-- The rows that a result is made of bind the entity, so it is presented without a breach. -/
theorem checkedResult_eq (q : Query) (records : List Record) : q.checkedResult records = .of (q.result records) := by
  unfold checkedResult result
  split_ifs
  · rfl
  · rw [Link.checkedFollowAll_eq]
    refine Checked.of_bind_eq fun joined hjoined => ?_
    rw [checkedFilterRows_eq]
    refine Checked.of_bind_eq fun rows hrows => ?_
    have hbound : ∀ row ∈ rows, (row q.entity).isSome = true := fun row hrow =>
      isSome_of_mem_joinedRows hjoined (mem_of_mem_filterRows hrows hrow)
    rw [checkedPresent_eq hbound]
    rfl

end Answers

end Query

/-- **No query makes a breach on any store**: with every read checked, the evaluation comes to the same page, or to the
same failure, as without. -/
theorem answers_make_no_breach (q : Query) (s : Store) :
    q.checkedAnswer s.records = Checked.of (Store.backend q s).1 := by
  show (q.checkedResult s.records >>= _) = Checked.of (q.result s.records >>= fun full => .ok (q.paginate full))
  rw [Query.checkedResult_eq]
  refine Checked.of_bind_eq fun full _ => ?_
  rw [Query.checkedPaginate_eq]
  rfl

end EntityQuery
