import EntityQuery.Proofs.SortedMap
import EntityQuery.Proofs.Store.Rejections

/-!
# What a projection holds

The attributes of all links go into one map, under names that begin with their scopes. The map is made by inserting
entry after entry, and an entry of a name that is there would go over the one before. As scopes have no dot and are not
shared, and as no attribute of the root record has a dot, that does not come up: a projection is made of the selected
attributes of the root record and of those of every bound link, and of nothing else.

* `Link.projected`, `Link.added`: the links that are projected, and what each of them adds from a row;
* `Link.projectAll_eq_insertAll`: a tree of links inserts what its links add, in pre-order;
* `Link.nodup_names_added`: links with scopes of their own add entries of different names;
* `Link.get?_projectAll_of_forall_ne`: links leave all names alone that do not begin with their scopes;
* `projection_is_disjoint_union`: the entries of a projection.
-/

namespace EntityQuery

/-! ## Qualified names -/

theorem toList_qualified (scope name : String) :
    (qualified scope name).toList = scope.toList ++ '.' :: name.toList := by
  rw [qualified, String.toList_append, String.toList_append, List.append_assoc]
  rfl

/-- The scope of a qualified name ends at the first dot. -/
theorem takeWhile_qualified {scope : String} (hdot : '.' ∉ scope.toList) (name : String) :
    (qualified scope name).toList.takeWhile (· != '.') = scope.toList := by
  have hdotless : ∀ c ∈ scope.toList, (c != '.') = true := fun c hc => bne_iff_ne.mpr fun heq => hdot (heq ▸ hc)
  rw [toList_qualified, List.takeWhile_append_of_pos hdotless, List.takeWhile_cons_of_neg (by decide),
    List.append_nil]

/-- Scopes without a dot never lead to the same name. -/
theorem qualified_ne {scope scope' : String} (hdot : '.' ∉ scope.toList) (hdot' : '.' ∉ scope'.toList)
    (hne : scope ≠ scope') (x y : String) : qualified scope x ≠ qualified scope' y := by
  intro heq
  refine hne (String.toList_inj.mp ?_)
  rw [← takeWhile_qualified hdot x, heq, takeWhile_qualified hdot' y]

theorem dot_mem_qualified (scope name : String) : '.' ∈ (qualified scope name).toList := by
  rw [toList_qualified]
  exact List.mem_append_right _ List.mem_cons_self

theorem qualified_injective (scope : String) : Function.Injective (qualified scope) := by
  intro x y h
  have htext := congrArg String.toList h
  rw [toList_qualified, toList_qualified] at htext
  exact String.toList_inj.mp (List.cons.inj (List.append_cancel_left htext)).2

/-! ## What is added -/

/-- The entries that a column set selects from a record. -/
def Record.selected (r : Record) (columns : Columns) : List (String × Json) :=
  r.attributes.entries.filter fun e => columns.contains e.1

theorem Record.nodup_names_selected (r : Record) (columns : Columns) : ((r.selected columns).map Prod.fst).Nodup :=
  r.attributes.nodup_names.sublist (List.filter_sublist.map Prod.fst)

namespace Link

/-- What a link adds from a row: the selected entries of the record that its scope is bound to, if it is. -/
def added (row : Row) (l : Link) : List (String × Json) :=
  match l.scope? with
  | none => []
  | some scope =>
    match row scope with
    | none => []
    | some linked => (linked.selected l.columns).map fun e => (qualified scope e.1, e.2)

mutual

/-- The link and those below it that are projected, in pre-order. A link without a scope hides those below it. -/
def projected : Link → List Link
  | ⟨fromEntity, fromAttribute, toEntity, toAttribute, aliasName, kind, columns, criteria, links⟩ =>
    let l : Link :=
      { fromEntity, fromAttribute, toEntity, toAttribute, aliasName, kind, columns, criteria, links }
    if l.scope?.isSome then l :: projectedOf links else []

/-- The links of a list that are projected, each with those below it. -/
def projectedOf : List Link → List Link
  | [] => []
  | l :: rest => projected l ++ projectedOf rest

end

theorem projected_eq (l : Link) : l.projected = if l.scope?.isSome then l :: projectedOf l.links else [] := by
  cases l
  rfl

theorem insertAll_added {l : Link} {scope : String} (h : l.scope? = some scope) (row : Row)
    (attributes : SortedMap Json) : addLinked row scope l.columns attributes = attributes.insertAll (l.added row) := by
  unfold addLinked added
  rw [h]
  dsimp only
  cases row scope <;> rfl

mutual

theorem project_eq_insertAll (row : Row) : ∀ (l : Link) (attributes : SortedMap Json),
    l.project row attributes = attributes.insertAll (l.projected.flatMap (added row))
  | ⟨fromEntity, fromAttribute, toEntity, toAttribute, aliasName, kind, columns, criteria, links⟩, attributes => by
    set l : Link := { fromEntity, fromAttribute, toEntity, toAttribute, aliasName, kind, columns, criteria, links }
    rw [projected_eq]
    cases hscope : l.scope? with
    | none =>
      have hnone : aliasName.or toEntity = none := hscope
      rw [Link.project, hnone]
      rfl
    | some scope =>
      have hsome : aliasName.or toEntity = some scope := hscope
      have hown : addLinked row scope columns attributes = attributes.insertAll (l.added row) :=
        insertAll_added hscope row attributes
      rw [Link.project, hsome, Option.isSome_some, if_pos rfl, List.flatMap_cons, SortedMap.insertAll_append, ← hown]
      exact projectAll_eq_insertAll row links _

/-- **A tree of links inserts what its links add**, in pre-order. -/
theorem projectAll_eq_insertAll (row : Row) : ∀ (links : List Link) (attributes : SortedMap Json),
    projectAll row links attributes = attributes.insertAll ((projectedOf links).flatMap (added row))
  | [], _ => rfl
  | l :: rest, attributes => by
    rw [projectAll, projectAll_eq_insertAll row rest, project_eq_insertAll row l, projectedOf, List.flatMap_append,
      SortedMap.insertAll_append]

end

/-! ### Links and visits -/

mutual

theorem projected_sublist : ∀ (l : Link) (parent : String),
    l.projected.Sublist ((l.visits parent).map Visit.link)
  | ⟨fromEntity, fromAttribute, toEntity, toAttribute, aliasName, kind, columns, criteria, links⟩, parent => by
    rw [projected_eq, visits_eq, List.map_cons]
    split_ifs
    · exact (projectedOf_sublist links _).cons_cons _
    · exact List.nil_sublist _

theorem projectedOf_sublist : ∀ (links : List Link) (parent : String),
    (projectedOf links).Sublist ((visitsOf parent links).map Visit.link)
  | [], _ => .slnil
  | l :: rest, parent => by
    rw [projectedOf, visitsOf, List.map_append]
    exact (projected_sublist l parent).append (projectedOf_sublist rest parent)

end

mutual

theorem projected_eq_visits : ∀ (l : Link) (parent : String), (∀ v ∈ l.visits parent, v.link.scope?.isSome = true) →
    l.projected = (l.visits parent).map Visit.link
  | ⟨fromEntity, fromAttribute, toEntity, toAttribute, aliasName, kind, columns, criteria, links⟩, parent, h => by
    rw [visits_eq, List.forall_mem_cons] at h
    rw [projected_eq, visits_eq, List.map_cons, if_pos h.1, projectedOf_eq_visits links _ h.2]

/-- Of links that all have a scope every one is projected, at any depth. -/
theorem projectedOf_eq_visits : ∀ (links : List Link) (parent : String),
    (∀ v ∈ visitsOf parent links, v.link.scope?.isSome = true) →
    projectedOf links = (visitsOf parent links).map Visit.link
  | [], _, _ => rfl
  | l :: rest, parent, h => by
    rw [visitsOf, List.forall_mem_append] at h
    rw [projectedOf, visitsOf, List.map_append, projected_eq_visits l parent h.1, projectedOf_eq_visits rest parent h.2]

end

theorem Complete.isSome_scope? {l : Link} (h : l.Complete) : l.scope?.isSome = true := by
  rw [scope?, Option.isSome_or, h.toEntity, Bool.or_true]

/-! ### Names -/

section Names

variable {row : Row} {l : Link} {links : List Link}

/-- A name that a link adds begins with its scope. -/
theorem exists_qualified_of_mem {name : String} (h : name ∈ (l.added row).map Prod.fst) :
    ∃ scope x, l.scope? = some scope ∧ name = qualified scope x := by
  unfold added at h
  split at h
  · exact absurd h List.not_mem_nil
  · rename_i scope hscope
    split at h
    · exact absurd h List.not_mem_nil
    · rw [List.map_map] at h
      obtain ⟨e, -, rfl⟩ := List.mem_map.mp h
      exact ⟨scope, e.1, hscope, rfl⟩

theorem exists_qualified_scope_of_mem {name : String} (h : name ∈ (l.added row).map Prod.fst) :
    ∃ x, name = qualified l.scope x := by
  obtain ⟨scope, x, hscope, rfl⟩ := exists_qualified_of_mem h
  rw [Link.scope, hscope]
  exact ⟨x, rfl⟩

theorem nodup_names_added (row : Row) (l : Link) : ((l.added row).map Prod.fst).Nodup := by
  unfold added
  split
  · exact List.nodup_nil
  · rename_i scope hscope
    split
    · exact List.nodup_nil
    · rename_i linked hlinked
      have hselected := linked.nodup_names_selected l.columns
      have hnames := hselected.map (qualified_injective scope)
      rwa [List.map_map] at hnames ⊢

/-- **Links with scopes of their own add entries of different names.** -/
theorem nodup_names_flatMap_added (row : Row) (hscopes : (links.filterMap Link.scope?).Nodup)
    (hdots : ∀ scope ∈ links.filterMap Link.scope?, '.' ∉ scope.toList) :
    ((links.flatMap (added row)).map Prod.fst).Nodup := by
  rw [List.map_flatMap, List.nodup_flatMap]
  refine ⟨fun l _ => nodup_names_added row l, ?_⟩
  have hapart := List.pairwise_filterMap.mp hscopes
  refine hapart.imp_of_mem fun {l m} hl hm hne => ?_
  intro name hname hname'
  obtain ⟨scope, x, hscope, rfl⟩ := exists_qualified_of_mem hname
  obtain ⟨scope', y, hscope', heq⟩ := exists_qualified_of_mem hname'
  exact qualified_ne (hdots scope (List.mem_filterMap.mpr ⟨l, hl, hscope⟩))
    (hdots scope' (List.mem_filterMap.mpr ⟨m, hm, hscope'⟩)) (hne scope hscope scope' hscope') x y heq

/-- Links add entries under their scopes only. -/
theorem get?_projectAll_of_forall_ne (row : Row) {name parent : String}
    (h : ∀ v ∈ visitsOf parent links, ∀ x, name ≠ qualified v.link.scope x) (attributes : SortedMap Json) :
    (projectAll row links attributes).get? name = attributes.get? name := by
  rw [projectAll_eq_insertAll]
  refine SortedMap.get?_insertAll_of_forall_ne (fun e he heq => ?_) attributes
  obtain ⟨l, hl, he⟩ := List.mem_flatMap.mp he
  obtain ⟨v, hv, rfl⟩ := List.mem_map.mp ((projectedOf_sublist links parent).subset hl)
  obtain ⟨x, hx⟩ := exists_qualified_scope_of_mem (List.mem_map_of_mem he)
  exact h v hv x (heq.trans hx)

end Names

end Link

/-! ## Projections -/

namespace Query

variable {q : Query} {row : Row} {root : Record}

theorem logicalName_project (h : row q.entity = some root) : (q.project row).logicalName = root.logicalName := by
  unfold project
  rw [h]

theorem id_project (h : row q.entity = some root) : (q.project row).id = root.id := by
  unfold project
  rw [h]

/-- The links whose columns a projection has. -/
def projectedLinks (q : Query) : List Link := Link.projectedOf q.links

/-- The names of the links at any depth. -/
def scopeNames (q : Query) : List String := (q.visits.map Visit.link).filterMap Link.scope?

theorem projectedLinks_eq (h : ∀ v ∈ q.visits, v.link.scope?.isSome = true) :
    q.projectedLinks = q.visits.map Visit.link :=
  Link.projectedOf_eq_visits q.links q.entity h

/-- What is joined has links with all their parts, so that none is without a scope. -/
theorem projectedLinks_of_joinedRows {records : List Record} {joined : List Row}
    (h : q.joinedRows records = .ok joined) : q.projectedLinks = q.visits.map Visit.link :=
  projectedLinks_eq fun v hv => (Link.complete_of_followAll records q.entity q.links h v hv).isSome_scope?

/-- The names of the selected entries of the root record and of all links are different. -/
theorem nodup_projected_names (row : Row) (hscopes : q.scopeNames.Nodup)
    (hdots : ∀ scope ∈ q.scopeNames, '.' ∉ scope.toList) (hplain : ∀ e ∈ root.attributes.entries, '.' ∉ e.1.toList) :
    ((root.selected q.columns ++ q.projectedLinks.flatMap (Link.added row)).map Prod.fst).Nodup := by
  have hsublist : (q.projectedLinks.filterMap Link.scope?).Sublist q.scopeNames :=
    (Link.projectedOf_sublist q.links q.entity).filterMap _
  rw [List.map_append, List.nodup_append']
  refine ⟨root.nodup_names_selected q.columns, Link.nodup_names_flatMap_added row (hscopes.sublist hsublist)
    fun scope hscope => hdots scope (hsublist.subset hscope), ?_⟩
  -- a name of the root record has no dot, and one of a link has
  intro name hroot hlinked
  obtain ⟨e, he, rfl⟩ := List.mem_map.mp hroot
  rw [List.map_flatMap] at hlinked
  obtain ⟨l, -, hl⟩ := List.mem_flatMap.mp hlinked
  obtain ⟨scope, x, -, heq⟩ := Link.exists_qualified_of_mem hl
  have hdot := dot_mem_qualified scope x
  rw [← heq] at hdot
  exact hplain e (List.mem_filter.mp he).1 hdot

end Query

/-- **A projection is the disjoint union of what is selected from the root record and what each bound link adds.** The
names of the links are different and have no dot, and no attribute of the root record has one. Then the selected entries
have different names, and the entries of the projection are just these. Links at any depth take part, also below one
that is not bound. Only a link without a name hides those below it, and in a query that can be joined there is none. -/
theorem projection_is_disjoint_union {q : Query} {row : Row} {root : Record} (hroot : row q.entity = some root)
    (hscopes : q.scopeNames.Nodup) (hdots : ∀ scope ∈ q.scopeNames, '.' ∉ scope.toList)
    (hplain : ∀ e ∈ root.attributes.entries, '.' ∉ e.1.toList) :
    (q.project row).logicalName = root.logicalName ∧ (q.project row).id = root.id ∧
      (q.project row).attributes.entries.Perm
        (root.selected q.columns ++ q.projectedLinks.flatMap (Link.added row)) ∧
      ((root.selected q.columns ++ q.projectedLinks.flatMap (Link.added row)).map Prod.fst).Nodup ∧
      ((∀ v ∈ q.visits, v.link.scope?.isSome = true) → q.projectedLinks = q.visits.map Visit.link) ∧
      ∀ records joined, q.joinedRows records = .ok joined → q.projectedLinks = q.visits.map Visit.link := by
  have hnames := Query.nodup_projected_names row hscopes hdots hplain
  refine ⟨Query.logicalName_project hroot, Query.id_project hroot, ?_, hnames, Query.projectedLinks_eq,
    fun _ _ => Query.projectedLinks_of_joinedRows⟩
  unfold Query.project
  rw [hroot]
  dsimp only
  rw [Link.projectAll_eq_insertAll]
  exact SortedMap.perm_entries_insertAll hnames

/-- The owner of an account, an office that is not bound, and its city that is. -/
theorem projection_is_disjoint_union_nested :
    let record (entity : String) (attributes : List (String × String)) : Record :=
      { logicalName := entity, attributes := .ofList (attributes.map fun e => (e.1, .string e.2)) }
    let account := record "account" [("name", "Acme"), ("owner", "7")]
    let contact := record "contact" [("mail", "ann@acme"), ("name", "Ann")]
    let city := record "city" [("name", "Oslo")]
    let row := ((Row.single "account" account).bind "owner" contact).bind "city" city
    let below : Link := { toEntity := some "city", columns := .all }
    let office : Link := { toEntity := some "office", columns := .all, links := [below] }
    let owner : Link :=
      { toEntity := some "contact", aliasName := some "owner", columns := .only (.ofList ["name"]), links := [office] }
    let q : Query := { entity := "account", columns := .only (.ofList ["name"]), links := [owner] }
    row q.entity = some account ∧ q.scopeNames = ["owner", "office", "city"] ∧
      (q.project row).attributes.entries.Perm
        [("name", .string "Acme"), ("owner.name", .string "Ann"), ("city.name", .string "Oslo")] := by
  intro record account contact city row below office owner q
  have hroot : row q.entity = some account := rfl
  have hnames : q.scopeNames = ["owner", "office", "city"] := rfl
  refine ⟨hroot, hnames, ?_⟩
  obtain ⟨-, -, hentries, -, -, -⟩ := projection_is_disjoint_union hroot (by rw [hnames]; decide)
    (by rw [hnames]; decide) (by decide)
  exact hentries

end EntityQuery
