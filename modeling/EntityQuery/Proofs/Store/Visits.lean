import EntityQuery.Proofs.Store.WellSized
import EntityQuery.Store.Answer
import Mathlib.Data.List.Basic
import Mathlib.Tactic.SplitIfs

/-!
# Links in pre-order, one row at a time

`Link.follow` takes all rows through a link before it goes on to the links below it. Each row goes its own way all
the same: the rows that it becomes are those of a walk along the visits of the tree, the links in pre-order, each
with the scope that it starts from. At a visit the walk branches over the positions of the records that the link
matches.

* `Link.Matches`: when a link joins a record to a source value;
* `Visit.choices`, `rowsFrom`: the branches at one visit, and the rows at the end of a walk;
* `Link.follow_eq`, `Link.followAll_eq`: links that are followed give the rows of the walks, row after row;
* `Link.follow_ok`, `Link.followAll_ok`: complete links with well-sized criteria can be followed.
-/

namespace EntityQuery

/-! ## Links by themselves -/

/-- The outcome of a test that may fail, a failure counting as a refusal. -/
def accepted {ε : Type} : Except ε Bool → Bool
  | .ok outcome => outcome
  | .error _ => false

namespace Link

/-- The name under which a link binds the record that it joins. -/
def scope (l : Link) : String := l.scope?.getD ""

/-- The four parts that a link cannot do without are there. -/
structure Complete (l : Link) : Prop where
  fromEntity : l.fromEntity.isSome = true
  fromAttribute : l.fromAttribute.isSome = true
  toEntity : l.toEntity.isSome = true
  toAttribute : l.toAttribute.isSome = true

/-- A link joins a record of its target entity to a source value that is not null, when the target attribute is
equivalent to it and the record alone passes the criteria. -/
structure Matches (l : Link) (source : Json) (r : Record) : Prop where
  entity : l.toEntity = some r.logicalName
  present : source.isNull = false
  equivalent : ∃ name, l.toAttribute = some name ∧ source.equivalent (r.value name) = true
  criteria : ∀ f, l.criteria = some f → f.holds (.single l.scope r) l.scope = .ok true

/-- The test that `Matches` describes. -/
def joins (l : Link) (source : Json) (r : Record) : Bool :=
  !source.isNull && (l.toEntity == some r.logicalName &&
    l.toAttribute.any fun name => source.equivalent (r.value name)) && accepted (l.admits l.scope r)

theorem accepted_admits_iff {l : Link} {r : Record} : accepted (l.admits l.scope r) = true ↔
    ∀ f, l.criteria = some f → f.holds (.single l.scope r) l.scope = .ok true := by
  unfold admits
  cases hcriteria : l.criteria with
  | none => simp [accepted]
  | some f => cases hholds : f.holds (.single l.scope r) l.scope <;> simp [accepted, hholds]

theorem joins_iff {l : Link} {source : Json} {r : Record} : l.joins source r = true ↔ l.Matches source r := by
  simp only [joins, Bool.and_eq_true, Bool.not_eq_true', beq_iff_eq, Option.any_eq_true, accepted_admits_iff]
  constructor
  · rintro ⟨⟨hpresent, hentity, hequivalent⟩, hcriteria⟩
    exact ⟨hentity, hpresent, hequivalent, hcriteria⟩
  · rintro ⟨hentity, hpresent, hequivalent, hcriteria⟩
    exact ⟨⟨hpresent, hentity, hequivalent⟩, hcriteria⟩

/-- What the parts of a link are when there are all of them. -/
theorem keys_eq_ok {l : Link} {keys : JoinKeys} (h : l.keys = .ok keys) : l.Complete ∧
    l.fromAttribute = some keys.fromAttribute ∧ l.toEntity = some keys.toEntity ∧
      l.toAttribute = some keys.toAttribute := by
  unfold Link.keys at h
  split at h <;> cases h
  rename_i h₁ h₂ h₃ h₄
  refine ⟨⟨?_, ?_, ?_, ?_⟩, h₂, h₃, h₄⟩ <;> simp [*]

theorem Complete.keys_ok {l : Link} (h : l.Complete) : ∃ keys, l.keys = .ok keys := by
  obtain ⟨e, he⟩ := Option.isSome_iff_exists.mp h.fromEntity
  obtain ⟨a, ha⟩ := Option.isSome_iff_exists.mp h.fromAttribute
  obtain ⟨e', he'⟩ := Option.isSome_iff_exists.mp h.toEntity
  obtain ⟨a', ha'⟩ := Option.isSome_iff_exists.mp h.toAttribute
  unfold Link.keys
  rw [he, ha, he', ha']
  exact ⟨_, rfl⟩

theorem scope_eq {l : Link} {keys : JoinKeys} (h : l.keys = .ok keys) :
    l.scope?.getD keys.toEntity = l.scope := by
  obtain ⟨-, -, htarget, -⟩ := keys_eq_ok h
  unfold scope scope?
  rw [htarget]
  cases l.aliasName <;> rfl

end Link

/-! ## Visits -/

/-- A link with the scope that it starts from. -/
structure Visit where
  parent : String
  link : Link

namespace Link

mutual

/-- The link and those below it, in pre-order. -/
def visits (parent : String) : Link → List Visit
  | ⟨fromEntity, fromAttribute, toEntity, toAttribute, aliasName, kind, columns, criteria, links⟩ =>
    let l : Link :=
      { fromEntity, fromAttribute, toEntity, toAttribute, aliasName, kind, columns, criteria, links }
    ⟨parent, l⟩ :: visitsOf l.scope links

/-- The links of a list, each with those below it. -/
def visitsOf (parent : String) : List Link → List Visit
  | [] => []
  | l :: rest => visits parent l ++ visitsOf parent rest

end

theorem visits_eq (parent : String) (l : Link) : l.visits parent = ⟨parent, l⟩ :: visitsOf l.scope l.links := by
  cases l
  rfl

theorem visitsOf_append (parent : String) (links more : List Link) :
    visitsOf parent (links ++ more) = visitsOf parent links ++ visitsOf parent more := by
  induction links with
  | nil => rfl
  | cons l rest ih => rw [List.cons_append, visitsOf, visitsOf, ih, List.append_assoc]

end Link

namespace Visit

/-- The value that a row has for the link, null if the scope or the attribute is not there. -/
def source (v : Visit) (row : Row) : Json := (v.link.fromAttribute.map (row.value v.parent)).getD .null

/-- What the link may be bound to from a row: the positions of the records that it joins, in order; if there is
none, nothing for a left outer link. -/
def choices (records : List Record) (v : Visit) (row : Row) : List (Option Nat) :=
  let found := records.findIdxs (v.link.joins (v.source row))
  if found.isEmpty && v.link.kind == .leftOuter then [none] else found.map some

end Visit

/-- Binds a scope to the record at a position, if there is one. -/
def Row.choose (records : List Record) (row : Row) (scope : String) (choice : Option Nat) : Row :=
  match choice.bind (records[·]?) with
  | some r => row.bind scope r
  | none => row

/-- The rows that a row becomes on the walks along visits. -/
def rowsFrom (records : List Record) : List Visit → Row → List Row
  | [], row => [row]
  | v :: rest, row =>
    (v.choices records row).flatMap fun choice => rowsFrom records rest (row.choose records v.link.scope choice)

theorem rowsFrom_append (records : List Record) (vs ws : List Visit) (row : Row) :
    rowsFrom records (vs ++ ws) row = (rowsFrom records vs row).flatMap (rowsFrom records ws) := by
  induction vs generalizing row with
  | nil => simp [rowsFrom]
  | cons v rest ih => simp only [List.cons_append, rowsFrom, ih, List.flatMap_assoc]

/-! ## One link -/

section Tests

variable {α β ε : Type} {test : α → Except ε Bool}

/-- Steps in a row succeed when each of them does. -/
theorem bind_eq_ok_iff {x : Except ε α} {f : α → Except ε β} {b : β} :
    (x >>= f) = .ok b ↔ ∃ a, x = .ok a ∧ f a = .ok b := by
  cases x with
  | error e => exact ⟨nofun, nofun⟩
  | ok a => exact ⟨fun h => ⟨a, rfl, h⟩, fun ⟨_, ha, h⟩ => Except.ok.inj ha ▸ h⟩

theorem keepThat_eq {xs kept : List α} (h : keepThat test xs = .ok kept) :
    kept = xs.filter fun x => accepted (test x) := by
  induction xs generalizing kept with
  | nil =>
    cases h
    rfl
  | cons x rest ih =>
    obtain ⟨outcome, hx, h⟩ := bind_eq_ok_iff.mp h
    obtain ⟨found, hrest, h⟩ := bind_eq_ok_iff.mp h
    cases h
    rw [ih hrest, List.filter_cons, hx]
    rfl

theorem keepThat_ok {xs : List α} (h : ∀ x ∈ xs, ∃ outcome, test x = .ok outcome) :
    ∃ kept, keepThat test xs = .ok kept := by
  induction xs with
  | nil => exact ⟨[], rfl⟩
  | cons x rest ih =>
    obtain ⟨outcome, hx⟩ := h x List.mem_cons_self
    obtain ⟨kept, hrest⟩ := ih fun y hy => h y (List.mem_cons_of_mem x hy)
    unfold keepThat
    rw [hx, hrest]
    exact ⟨_, rfl⟩

end Tests

/-- The items at the positions where a test holds are those that pass it. -/
theorem map_getElem?_findIdxs {α : Type} (xs : List α) (p : α → Bool) :
    (xs.findIdxs p).map (xs[·]?) = (xs.filter p).map some := by
  refine List.ext_getElem (by simp [List.countP_eq_length_filter]) fun i h _ => ?_
  rw [List.length_map] at h
  have hlt : (xs.findIdxs p)[i] < xs.length := by simpa using List.getElem_findIdxs_lt h
  have hfilter : i < (xs.filter p).length := by simpa [List.countP_eq_length_filter] using h
  rw [List.getElem_map, List.getElem_map, List.getElem?_eq_getElem hlt,
    List.getElem_filter_eq_getElem_getElem_findIdxs hfilter]

namespace Link

variable {records : List Record} {l : Link} {keys : JoinKeys}

theorem filter_candidates (h : l.keys = .ok keys) (parent : String) (row : Row) :
    ((candidates records keys (row.value parent keys.fromAttribute)).filter fun r => accepted (l.admits l.scope r)) =
      records.filter (l.joins ((⟨parent, l⟩ : Visit).source row)) := by
  obtain ⟨-, hattribute, hentity, htarget⟩ := keys_eq_ok h
  have hsource : (⟨parent, l⟩ : Visit).source row = row.value parent keys.fromAttribute := by
    unfold Visit.source
    rw [hattribute]
    rfl
  rw [hsource]
  unfold candidates
  split_ifs with hnull
  · rw [List.filter_nil, List.filter_eq_nil_iff.mpr]
    intro r _
    simp [joins, hnull]
  · rw [List.filter_filter]
    refine List.filter_congr fun r _ => ?_
    have hname : (some keys.toEntity == some r.logicalName) = (r.logicalName == keys.toEntity) := by
      rw [Option.some_beq_some, Bool.beq_comm]
    simp [joins, hnull, hentity, htarget, hname, Bool.and_comm]

theorem choose_some (records : List Record) (row : Row) (scope : String) (p : Record → Bool) :
    ((records.findIdxs p).map some).map (row.choose records scope) = (records.filter p).map (row.bind scope) := by
  let bindFound : Option Record → Row := fun found =>
    match found with
    | some r => row.bind scope r
    | none => row
  have hchoose : row.choose records scope ∘ some = bindFound ∘ (records[·]?) := rfl
  rw [List.map_map, hchoose, ← List.map_map, map_getElem?_findIdxs, List.map_map]
  rfl

/-- The rows that a row becomes at a link are those of the choices at the visit. -/
theorem extendRow_eq (h : l.keys = .ok keys) {parent : String} {row : Row} {rows : List Row}
    (hrows : extendRow records l keys parent l.scope row = .ok rows) :
    rows = ((⟨parent, l⟩ : Visit).choices records row).map (row.choose records l.scope) := by
  obtain ⟨found, hkept, h'⟩ := bind_eq_ok_iff.mp hrows
  cases h'
  rw [keepThat_eq hkept, filter_candidates h]
  unfold Visit.choices
  dsimp only
  set p := l.joins ((⟨parent, l⟩ : Visit).source row)
  have hempty : (records.findIdxs p).isEmpty = (records.filter p).isEmpty := by
    rw [Bool.eq_iff_iff, List.isEmpty_iff, List.isEmpty_iff, List.findIdxs_eq_nil_iff, List.filter_eq_nil_iff]
    simp
  rw [hempty]
  split_ifs
  · rfl
  · exact (choose_some records row l.scope p).symm

theorem extendRows_eq (h : l.keys = .ok keys) {parent : String} {rows joined : List Row}
    (hrows : extendRows records l keys parent l.scope rows = .ok joined) :
    joined = rows.flatMap fun row => ((⟨parent, l⟩ : Visit).choices records row).map (row.choose records l.scope) := by
  induction rows generalizing joined with
  | nil =>
    cases hrows
    rfl
  | cons row rest ih =>
    obtain ⟨first, hfirst, h'⟩ := bind_eq_ok_iff.mp hrows
    obtain ⟨others, hothers, h'⟩ := bind_eq_ok_iff.mp h'
    cases h'
    rw [List.flatMap_cons, ← extendRow_eq h hfirst, ← ih hothers]

/-! ## All links -/

theorem follow_of_error {e : QueryError} (h : l.keys = .error e) (parent : String) (rows : List Row) :
    follow records parent l rows = .error e := by
  cases l
  rw [follow, h]
  rfl

theorem follow_of_keys (h : l.keys = .ok keys) (parent : String) (rows : List Row) :
    follow records parent l rows =
      extendRows records l keys parent l.scope rows >>= followAll records l.scope l.links := by
  rw [← scope_eq h]
  cases l
  rw [follow, h]
  rfl

mutual

/-- **A link that is followed takes each row on its walks along the visits.** -/
theorem follow_eq (records : List Record) : ∀ (parent : String) (l : Link) {rows joined : List Row},
    follow records parent l rows = .ok joined → joined = rows.flatMap (rowsFrom records (l.visits parent))
  | parent, ⟨fromEntity, fromAttribute, toEntity, toAttribute, aliasName, kind, columns, criteria, links⟩, rows,
      joined, h => by
    set l : Link := { fromEntity, fromAttribute, toEntity, toAttribute, aliasName, kind, columns, criteria, links }
    cases hkeys : l.keys with
    | error e => rw [follow_of_error hkeys] at h; cases h
    | ok keys =>
      rw [follow_of_keys hkeys] at h
      obtain ⟨extended, hextended, hbelow⟩ := bind_eq_ok_iff.mp h
      rw [followAll_eq records l.scope links hbelow, extendRows_eq hkeys hextended, visits_eq, List.flatMap_assoc]
      refine List.flatMap_congr fun row _ => ?_
      rw [rowsFrom, List.flatMap_map]

theorem followAll_eq (records : List Record) : ∀ (parent : String) (links : List Link) {rows joined : List Row},
    followAll records parent links rows = .ok joined → joined = rows.flatMap (rowsFrom records (visitsOf parent links))
  | _, [], rows, joined, h => by
    cases h
    simp [visitsOf, rowsFrom]
  | parent, l :: rest, rows, joined, h => by
    obtain ⟨first, hfirst, hothers⟩ := bind_eq_ok_iff.mp h
    rw [followAll_eq records parent rest hothers, follow_eq records parent l hfirst, visitsOf, List.flatMap_assoc]
    refine List.flatMap_congr fun row _ => ?_
    rw [rowsFrom_append]

end

theorem admits_ok (hsized : ∀ f, l.criteria = some f → f.WellSized) (r : Record) :
    ∃ outcome, l.admits l.scope r = .ok outcome := by
  unfold admits
  cases hcriteria : l.criteria with
  | none => exact ⟨true, rfl⟩
  | some f => exact (hsized f hcriteria).holds_ok _ _

theorem extendRows_ok (records : List Record) (hsized : ∀ f, l.criteria = some f → f.WellSized) (keys : JoinKeys)
    (parent : String) (rows : List Row) : ∃ joined, extendRows records l keys parent l.scope rows = .ok joined := by
  induction rows with
  | nil => exact ⟨[], rfl⟩
  | cons row rest ih =>
    have hadmits : ∀ r ∈ candidates records keys (row.value parent keys.fromAttribute),
        ∃ outcome, l.admits l.scope r = .ok outcome := fun r _ => admits_ok hsized r
    obtain ⟨found, hfound⟩ := keepThat_ok hadmits
    obtain ⟨others, hothers⟩ := ih
    unfold extendRows extendRow
    rw [hfound, hothers]
    exact ⟨_, rfl⟩

mutual

/-- **Complete links with well-sized criteria can be followed.** -/
theorem follow_ok (records : List Record) : ∀ (parent : String) (l : Link) (rows : List Row),
    (∀ v ∈ l.visits parent, v.link.Complete) →
    (∀ v ∈ l.visits parent, ∀ f, v.link.criteria = some f → f.WellSized) →
    ∃ joined, follow records parent l rows = .ok joined
  | parent, ⟨fromEntity, fromAttribute, toEntity, toAttribute, aliasName, kind, columns, criteria, links⟩, rows,
      hcomplete, hsized => by
    set l : Link := { fromEntity, fromAttribute, toEntity, toAttribute, aliasName, kind, columns, criteria, links }
    rw [visits_eq, List.forall_mem_cons] at hcomplete hsized
    obtain ⟨keys, hkeys⟩ := hcomplete.1.keys_ok
    obtain ⟨extended, hextended⟩ := extendRows_ok records hsized.1 keys parent rows
    obtain ⟨joined, hjoined⟩ := followAll_ok records l.scope links extended hcomplete.2 hsized.2
    refine ⟨joined, ?_⟩
    rw [follow_of_keys hkeys, hextended]
    exact hjoined

theorem followAll_ok (records : List Record) : ∀ (parent : String) (links : List Link) (rows : List Row),
    (∀ v ∈ visitsOf parent links, v.link.Complete) →
    (∀ v ∈ visitsOf parent links, ∀ f, v.link.criteria = some f → f.WellSized) →
    ∃ joined, followAll records parent links rows = .ok joined
  | _, [], rows, _, _ => ⟨rows, rfl⟩
  | parent, l :: rest, rows, hcomplete, hsized => by
    rw [visitsOf, List.forall_mem_append] at hcomplete hsized
    obtain ⟨first, hfirst⟩ := follow_ok records parent l rows hcomplete.1 hsized.1
    obtain ⟨joined, hjoined⟩ := followAll_ok records parent rest first hcomplete.2 hsized.2
    refine ⟨joined, ?_⟩
    unfold followAll
    rw [hfirst]
    exact hjoined

end

end Link

end EntityQuery
