import EntityQuery.Proofs.Record.Renamed
import EntityQuery.Proofs.Store.RenamedScopes
import EntityQuery.Proofs.Store.Scopes

/-!
# Aliases in results

A link that gets another alias binds the same records under another scope, and the names of the attributes that it adds
to a result begin with that. Nothing else changes: the root record is bound under its own name, so that rows are sorted
as they were, and as no two records are confused or told apart by the new names, repetitions are the same ones.

* `requalified`: the name of a linked attribute with another scope;
* `Link.added_withAlias`, `Query.project_withAlias`: what links add, and result records, with other names;
* `Query.present_withAlias`, `Query.answer_withAlias`: results and answers with other names;
* `aliases_are_bound_names`: a link can be given any alias that is not used.
-/

namespace EntityQuery

open Equiv (swap)

/-! ## Names -/

/-- The name of a linked attribute with another scope. Names that do not begin with the first scope stay. -/
def requalified (scope scope' name : String) : String :=
  match (qualified scope "").toList.isPrefixOf? name.toList with
  | some rest => qualified scope' (.ofList rest)
  | none => name

section Names

variable {scope scope' name : String}

theorem requalified_qualified (scope scope' x : String) :
    requalified scope scope' (qualified scope x) = qualified scope' x := by
  have hrest : (qualified scope "").toList.isPrefixOf? (qualified scope x).toList = some x.toList := by
    rw [List.isPrefixOf?_eq_some_iff_append_eq, toList_qualified, toList_qualified, List.append_assoc]
    rfl
  rw [requalified, hrest]
  exact congrArg (qualified scope') String.ofList_toList

theorem requalified_of_ne (h : ∀ x, name ≠ qualified scope x) (scope' : String) :
    requalified scope scope' name = name := by
  have hrest : (qualified scope "").toList.isPrefixOf? name.toList = none := by
    rw [Option.eq_none_iff_forall_ne_some]
    intro rest hsome
    rw [List.isPrefixOf?_eq_some_iff_append_eq, toList_qualified, List.append_assoc] at hsome
    refine h (.ofList rest) (String.toList_inj.mp ?_)
    rw [toList_qualified, String.toList_ofList, ← hsome]
    rfl
  rw [requalified, hrest]

theorem ne_qualified_of_plain (h : '.' ∉ name.toList) (scope x : String) : name ≠ qualified scope x := by
  rintro rfl
  exact h (dot_mem_qualified scope x)

/-- A scope that was put in front of no name before can be taken away again. -/
theorem requalified_requalified (h : ∀ x, name ≠ qualified scope' x) (scope : String) :
    requalified scope' scope (requalified scope scope' name) = name := by
  by_cases hscope : ∃ x, name = qualified scope x
  · obtain ⟨x, rfl⟩ := hscope
    rw [requalified_qualified, requalified_qualified]
  · rw [not_exists] at hscope
    rw [requalified_of_ne hscope, requalified_of_ne h]

/-- A name begins with the scope that takes the place of its own. -/
theorem qualified_swap {own : String} (hne : own ≠ name) (hdot : '.' ∉ own.toList) (hdot' : '.' ∉ scope.toList)
    (x : String) : qualified (swap scope name own) x = requalified scope name (qualified own x) := by
  by_cases hscope : own = scope
  · subst hscope
    rw [Equiv.swap_apply_left, requalified_qualified]
  · rw [Equiv.swap_apply_of_ne_of_ne hscope hne, requalified_of_ne fun y => qualified_ne hdot hdot' hscope x y]

end Names

/-- No attribute of the record has a dot in its name. -/
def Record.Plain (r : Record) : Prop := ∀ e ∈ r.attributes.entries, '.' ∉ e.1.toList

/-! ## What links add -/

namespace Link

variable {scope name : String} {l : Link}

theorem scope?_eq_some (h : l.scope?.isSome = true) : l.scope? = some l.scope := by
  obtain ⟨own, hown⟩ := Option.isSome_iff_exists.mp h
  rw [scope, hown]
  rfl

theorem scope?_withAlias (h : l.scope?.isSome = true) (hne : l.scope ≠ name) :
    (l.withAlias scope name).scope? = some (swap scope name l.scope) := by
  rw [withAlias_eq, scope?, Equiv.swap_apply_def, if_neg hne]
  split_ifs
  · rfl
  · exact scope?_eq_some h

/-- **A link with another alias adds the same values, under names that begin with it.** -/
theorem added_withAlias (h : l.scope?.isSome = true) (hne : l.scope ≠ name) (hdot : '.' ∉ l.scope.toList)
    (hdot' : '.' ∉ scope.toList) (row : Row) : (l.withAlias scope name).added (row.relabel (swap scope name)) =
      (l.added row).map (Prod.map (requalified scope name) id) := by
  have hcolumns : (l.withAlias scope name).columns = l.columns := by rw [withAlias_eq]
  unfold added
  rw [scope?_withAlias h hne, scope?_eq_some h, hcolumns]
  dsimp only
  rw [Row.relabel_apply]
  cases row l.scope with
  | none => rfl
  | some linked =>
    rw [List.map_map]
    exact List.map_congr_left fun e _ => Prod.ext (qualified_swap hne hdot hdot' e.1) rfl

mutual

theorem map_link_visits_withAlias (scope name : String) : ∀ (l : Link) (parent parent' : String),
    ((l.withAlias scope name).visits parent').map Visit.link =
      ((l.visits parent).map Visit.link).map (withAlias scope name)
  | ⟨fromEntity, fromAttribute, toEntity, toAttribute, aliasName, kind, columns, criteria, links⟩, parent, parent' => by
    set l : Link := { fromEntity, fromAttribute, toEntity, toAttribute, aliasName, kind, columns, criteria, links }
    have hlinks : (l.withAlias scope name).links = withAliasOf scope name links := by rw [withAlias_eq]
    rw [visits_eq, visits_eq, hlinks, List.map_cons, List.map_cons, List.map_cons,
      map_link_visitsOf_withAlias scope name links l.scope]

/-- The links of the tree are those that there were, one of them with another alias. -/
theorem map_link_visitsOf_withAlias (scope name : String) : ∀ (links : List Link) (parent parent' : String),
    (visitsOf parent' (withAliasOf scope name links)).map Visit.link =
      ((visitsOf parent links).map Visit.link).map (withAlias scope name)
  | [], _, _ => rfl
  | l :: rest, parent, parent' => by
    rw [withAliasOf, visitsOf, visitsOf, List.map_append, List.map_append, List.map_append,
      map_link_visits_withAlias scope name l parent, map_link_visitsOf_withAlias scope name rest parent]

end

end Link

/-! ## Result records -/

namespace Query

variable {q : Query} {scope name : String} {row : Row} {root : Record}

/-- The query has names of its own for all links, without dots, and another such name is to replace one of them. -/
structure Renames (q : Query) (scope name : String) : Prop where
  names : q.names.Nodup
  dots : ∀ v ∈ q.visits, '.' ∉ v.link.scope.toList
  mem : scope ∈ q.visits.map fun v => v.link.scope
  fresh : q.Fresh name
  dot : '.' ∉ name.toList

namespace Renames

theorem entity_ne (h : q.Renames scope name) : q.entity ≠ scope := by
  rintro rfl
  exact (List.nodup_cons.mp h.names).1 h.mem

theorem scope_dot (h : q.Renames scope name) : '.' ∉ scope.toList := by
  obtain ⟨v, hv, rfl⟩ := List.mem_map.mp h.mem
  exact h.dots v hv

/-- Rows keep what they bind to the entity. -/
theorem relabel_entity (h : q.Renames scope name) (row : Row) :
    row.relabel (swap scope name) q.entity = row q.entity := by
  have hentity := row.relabel_apply (swap scope name) q.entity
  rwa [swap_entity h.entity_ne h.fresh] at hentity

end Renames

/-- All links of the query have a scope. -/
def Scoped (q : Query) : Prop := ∀ v ∈ q.visits, v.link.scope?.isSome = true

/-- The selected entries of the root record and of all links. -/
def projectedEntries (q : Query) (row : Row) (root : Record) : List (String × Json) :=
  root.selected q.columns ++ q.projectedLinks.flatMap (Link.added row)

theorem project_eq (hroot : row q.entity = some root) : q.project row =
    { logicalName := root.logicalName, id := root.id, attributes := (q.project row).attributes } := by
  rw [← logicalName_project hroot, ← id_project hroot]

theorem perm_entries_project (hroot : row q.entity = some root)
    (hnames : ((q.projectedEntries row root).map Prod.fst).Nodup) :
    (q.project row).attributes.entries.Perm (q.projectedEntries row root) := by
  unfold project
  rw [hroot]
  dsimp only
  rw [Link.projectAll_eq_insertAll]
  exact SortedMap.perm_entries_insertAll hnames

theorem scopeNames_eq (hscoped : q.Scoped) : q.scopeNames = q.visits.map fun v => v.link.scope := by
  rw [scopeNames, List.filterMap_map, ← List.filterMap_eq_map]
  exact List.filterMap_congr fun v hv => Link.scope?_eq_some (hscoped v hv)

theorem nodup_names_projectedEntries (h : q.Renames scope name) (hscoped : q.Scoped) (hplain : root.Plain) (row : Row) :
    ((q.projectedEntries row root).map Prod.fst).Nodup := by
  have hscopes := scopeNames_eq hscoped
  refine nodup_projected_names row ?_ ?_ hplain
  · rw [hscopes]
    exact (List.nodup_cons.mp h.names).2
  · rw [hscopes]
    exact List.forall_mem_map.mpr h.dots

theorem projectedLinks_withAlias (h : q.Renames scope name) (hscoped : q.Scoped) :
    (q.withAlias scope name).projectedLinks = q.projectedLinks.map (Link.withAlias scope name) := by
  have hlinks : (q.withAlias scope name).visits.map Visit.link =
      (q.visits.map Visit.link).map (Link.withAlias scope name) :=
    Link.map_link_visitsOf_withAlias scope name q.links q.entity q.entity
  rw [projectedLinks_eq hscoped, projectedLinks_eq, hlinks]
  intro v hv
  have hmem := List.mem_map_of_mem (f := Visit.link) hv
  rw [hlinks, List.map_map] at hmem
  obtain ⟨w, hw, hlink⟩ := List.mem_map.mp hmem
  rw [← hlink]
  exact Option.isSome_iff_exists.mpr ⟨_, Link.scope?_withAlias (hscoped w hw) (h.fresh.links w hw).scope⟩

/-- What a row projects when a link has another alias has the same values. -/
theorem projectedEntries_withAlias (h : q.Renames scope name) (hscoped : q.Scoped) (hplain : root.Plain) (row : Row) :
    (q.withAlias scope name).projectedEntries (row.relabel (swap scope name)) root =
      (q.projectedEntries row root).map (Prod.map (requalified scope name) id) := by
  have hroot : (root.selected q.columns).map (Prod.map (requalified scope name) id) = root.selected q.columns := by
    refine (List.map_congr_left fun e he => ?_).trans (List.map_id _)
    have hself := requalified_of_ne (ne_qualified_of_plain (hplain e (List.mem_filter.mp he).1) scope) name
    exact Prod.ext hself rfl
  unfold projectedEntries
  rw [List.map_append, hroot, projectedLinks_withAlias h hscoped, List.flatMap_map, List.map_flatMap,
    projectedLinks_eq hscoped]
  refine congrArg _ (List.flatMap_congr fun l hl => ?_)
  obtain ⟨v, hv, rfl⟩ := List.mem_map.mp hl
  exact Link.added_withAlias (hscoped v hv) (h.fresh.links v hv).scope (h.dots v hv) h.scope_dot row

/-- The new names can be taken back, as no name began with the new scope. -/
theorem requalified_names (h : q.Renames scope name) (hplain : root.Plain) {x : String}
    (hx : x ∈ (q.projectedEntries row root).map Prod.fst) :
    requalified name scope (requalified scope name x) = x := by
  refine requalified_requalified (fun y => ?_) scope
  obtain ⟨e, he, rfl⟩ := List.mem_map.mp hx
  rcases List.mem_append.mp he with he | he
  · exact ne_qualified_of_plain (hplain e (List.mem_filter.mp he).1) name y
  · obtain ⟨l, hl, he⟩ := List.mem_flatMap.mp he
    obtain ⟨v, hv, rfl⟩ := List.mem_map.mp ((Link.projectedOf_sublist q.links q.entity).subset hl)
    obtain ⟨z, hz⟩ := Link.exists_qualified_scope_of_mem (List.mem_map_of_mem he)
    rw [hz]
    exact qualified_ne (h.dots v hv) h.dot (h.fresh.links v hv).scope z y

/-- **A link with another alias renames what it adds to a result record**, and nothing else. -/
theorem project_withAlias (h : q.Renames scope name) (hscoped : q.Scoped) (hroot : row q.entity = some root)
    (hplain : root.Plain) : (q.withAlias scope name).project (row.relabel (swap scope name)) =
      (q.project row).renamed (requalified scope name) := by
  set q' := q.withAlias scope name
  set row' := row.relabel (swap scope name)
  have hroot' : row' q'.entity = some root := (h.relabel_entity row).trans hroot
  have hnames := nodup_names_projectedEntries h hscoped hplain row
  have hentries := perm_entries_project hroot hnames
  have happart : (((q.projectedEntries row root).map Prod.fst).map (requalified scope name)).Nodup :=
    SortedMap.nodup_map_names hnames fun x hx => requalified_names h hplain hx
  have hrenamed : (q'.project row').attributes.entries.Perm
      ((q.projectedEntries row root).map (Prod.map (requalified scope name) id)) := by
    rw [← projectedEntries_withAlias h hscoped hplain row]
    refine perm_entries_project hroot' ?_
    rwa [projectedEntries_withAlias h hscoped hplain row, SortedMap.map_fst_map]
  have hmapped : ((q.project row).attributes.mapNames (requalified scope name)).entries.Perm
      ((q.projectedEntries row root).map (Prod.map (requalified scope name) id)) :=
    (SortedMap.perm_entries_mapNames (((hentries.map _).map _).nodup_iff.mpr happart)).trans (hentries.map _)
  have hattributes := SortedMap.eq_of_perm (hrenamed.trans hmapped.symm)
  rw [Record.renamed, logicalName_project hroot, id_project hroot, project_eq hroot', hattributes]

theorem undone_project (h : q.Renames scope name) (hscoped : q.Scoped) (hroot : row q.entity = some root)
    (hplain : root.Plain) :
    (q.project row).Undone (requalified name scope) (requalified scope name) := by
  intro x hx
  have hentries := perm_entries_project hroot (nodup_names_projectedEntries h hscoped hplain row)
  exact requalified_names h hplain ((hentries.map Prod.fst).mem_iff.mp hx)

end Query

/-! ## Results and answers -/

namespace SortKey

variable {entity : String} {keys : List SortKey} {change : Row → Row}

theorem compareAll_congr {a a' b b' : Row} (ha : a entity = a' entity) (hb : b entity = b' entity)
    (keys : List SortKey) : compareAll entity a b keys = compareAll entity a' b' keys := by
  induction keys with
  | nil => rfl
  | cons k rest ih => rw [compareAll, compareAll, compareRows, compareRows, Row.value_congr ha, Row.value_congr hb, ih]

/-- Rows that keep what they bind to the entity are sorted as they were. -/
theorem sortRows_map (h : ∀ row, change row entity = row entity) (rows : List Row) :
    sortRows keys entity (rows.map change) = (sortRows keys entity rows).map change := by
  refine (List.map_mergeSort fun a _ b _ => ?_).symm
  rw [compareAll_congr (h a) (h b)]

end SortKey

/-- The page with the attributes of its records under other names. -/
def Page.renamed (f : String → String) (page : Page) : Page :=
  { page with records := page.records.map (Record.renamed f) }

namespace Query

variable {q : Query} {scope name : String}

theorem paginate_map (q : Query) (f : String → String) (records : List Record) :
    q.paginate (records.map (Record.renamed f)) = (q.paginate records).renamed f := by
  unfold paginate
  split
  · unfold Paging.cut Page.renamed
    simp only [List.length_map, List.map_take, List.map_drop]
  · unfold Paging.whole Page.renamed
    rw [List.length_map]

/-- The result records of the relabelled rows are those that there were, with other names. -/
theorem present_withAlias (h : q.Renames scope name) (hscoped : q.Scoped) {rows : List Row}
    (hroots : ∀ row ∈ rows, ∃ root, row q.entity = some root ∧ root.Plain) :
    (q.withAlias scope name).present (rows.map (Row.relabel (swap scope name))) =
      (q.present rows).map (Record.renamed (requalified scope name)) := by
  set q' := q.withAlias scope name
  set f := requalified scope name
  set sorted := SortKey.sortRows q.sortKeys q.entity rows
  have hsorted : SortKey.sortRows q'.sortKeys q'.entity (rows.map (Row.relabel (swap scope name))) =
      sorted.map (Row.relabel (swap scope name)) :=
    SortKey.sortRows_map h.relabel_entity rows
  have hrows : ∀ row ∈ sorted, ∃ root, row q.entity = some root ∧ root.Plain :=
    fun row hrow => hroots row (List.mem_mergeSort.mp hrow)
  have hprojected : (sorted.map (Row.relabel (swap scope name))).map q'.project =
      (sorted.map q.project).map (Record.renamed f) := by
    rw [List.map_map, List.map_map]
    refine List.map_congr_left fun row hrow => ?_
    obtain ⟨root, hroot, hplain⟩ := hrows row hrow
    exact project_withAlias h hscoped hroot hplain
  have hundone : ∀ r ∈ sorted.map q.project, r.Undone (requalified name scope) f := by
    intro r hr
    obtain ⟨row, hrow, rfl⟩ := List.mem_map.mp hr
    obtain ⟨root, hroot, hplain⟩ := hrows row hrow
    exact undone_project h hscoped hroot hplain
  have hunique : (if q.distinct then Record.distinct ((sorted.map q.project).map (Record.renamed f))
      else (sorted.map q.project).map (Record.renamed f)) =
        (if q.distinct then Record.distinct (sorted.map q.project) else sorted.map q.project).map
          (Record.renamed f) := by
    split_ifs
    · exact Record.distinct_map_renamed hundone
    · rfl
  have hdistinct : q'.distinct = q.distinct := rfl
  have htop : q'.top = q.top := rfl
  unfold present
  dsimp only
  rw [hsorted, hprojected, hdistinct, htop, hunique]
  cases q.top with
  | none => rfl
  | some top => exact List.map_take.symm

/-- What a joined row binds to the entity is a root record. -/
theorem exists_root (hnames : q.names.Nodup) {records : List Record} {joined : List Row}
    (hjoined : q.joinedRows records = .ok joined) {row : Row} (hrow : row ∈ joined) :
    ∃ root ∈ records, root.logicalName = q.entity ∧ row q.entity = some root := by
  obtain ⟨i, root, choices, hderives⟩ := derives_of_mem hjoined hrow
  have hone : q.names.count q.entity = 1 := List.count_eq_one_of_mem hnames List.mem_cons_self
  exact ⟨root, List.mem_of_getElem? hderives.stored, hderives.named, hderives.denotes_root hone⟩

theorem scoped_of_joinedRows {records : List Record} {joined : List Row} (hjoined : q.joinedRows records = .ok joined) :
    q.Scoped := fun v hv => (Link.complete_of_followAll records q.entity q.links hjoined v hv).isSome_scope?

/-- **A query in which a link has another alias has the answer that it had**, with other names in its records. -/
theorem answer_withAlias (h : q.Renames scope name) {records : List Record}
    (hplain : ∀ r ∈ records, r.logicalName = q.entity → r.Plain) :
    (q.withAlias scope name).answer records =
      (q.answer records).map (Page.renamed (requalified scope name)) := by
  have hentity : (q.withAlias scope name).entity = q.entity := rfl
  unfold answer result
  rw [hentity, joinedRows_withAlias h.entity_ne h.fresh]
  split_ifs
  · rfl
  cases hjoined : q.joinedRows records with
  | error e => rfl
  | ok joined =>
    have hfilter := filterRows_withAlias h.entity_ne h.fresh joined
    show ((q.withAlias scope name).filterRows (joined.map _) >>= fun rows => _).map _ =
      ((q.filterRows joined >>= fun rows => _).map _).map _
    rw [hfilter]
    cases hrows : q.filterRows joined with
    | error e => rfl
    | ok rows =>
      have hroots : ∀ row ∈ rows, ∃ root, row q.entity = some root ∧ root.Plain := by
        intro row hrow
        obtain ⟨root, hmem, hname, hroot⟩ := exists_root h.names hjoined (mem_of_mem_filterRows hrows hrow)
        exact ⟨root, hroot, hplain root hmem hname⟩
      refine congrArg Except.ok ?_
      show (q.withAlias scope name).paginate ((q.withAlias scope name).present _) = _
      rw [present_withAlias h (scoped_of_joinedRows hjoined) hroots]
      exact paginate_map q _ _

/-- The new names of a record in a page stay apart, so that no value is lost. -/
theorem perm_entries_renamed (h : q.Renames scope name) {records : List Record}
    (hplain : ∀ r ∈ records, r.logicalName = q.entity → r.Plain) {page : Page} (hpage : q.answer records = .ok page)
    {r : Record} (hr : r ∈ page.records) : (r.renamed (requalified scope name)).attributes.entries.Perm
      (r.attributes.entries.map (Prod.map (requalified scope name) id)) := by
  obtain ⟨joined, hjoined, hprojected⟩ := mem_answer hpage
  obtain ⟨row, hrow, rfl⟩ := hprojected r hr
  obtain ⟨root, hmem, hname, hroot⟩ := exists_root h.names hjoined hrow
  have hundone := undone_project h (scoped_of_joinedRows hjoined) hroot (hplain root hmem hname)
  exact SortedMap.perm_entries_mapNames (SortedMap.nodup_map_names (q.project row).attributes.nodup_names hundone)

end Query

/-- **Aliases are bound names.** The entity and the scopes of a query are different names, scopes have no dots, and
neither have the attributes of root records. Then any link can be given an alias that has no dot and does not occur in
the query, with the conditions of the query and of the link that spoke of its old scope following. The answer is the one
that it was, be it a failure or a page, but for the names of the attributes that the link adds: they begin with the new
scope instead of the old one. -/
theorem aliases_are_bound_names {q : Query} {v : Visit} {name : String} (s : Store) (hnames : q.names.Nodup)
    (hdots : ∀ w ∈ q.visits, '.' ∉ w.link.scope.toList) (hv : v ∈ q.visits) (hfresh : q.Fresh name)
    (hdot : '.' ∉ name.toList) (hplain : ∀ r ∈ s.records, r.logicalName = q.entity → r.Plain) :
    (Store.backend (q.withAlias v.link.scope name) s).1 =
      (Store.backend q s).1.map (Page.renamed (requalified v.link.scope name)) ∧
    (∀ x, requalified v.link.scope name (qualified v.link.scope x) = qualified name x) ∧
    (∀ x, (∀ y, x ≠ qualified v.link.scope y) → requalified v.link.scope name x = x) ∧
    (∀ page, (Store.backend q s).1 = .ok page → ∀ r ∈ page.records,
      (r.renamed (requalified v.link.scope name)).attributes.entries.Perm
        (r.attributes.entries.map (Prod.map (requalified v.link.scope name) id))) := by
  have hrenames : q.Renames v.link.scope name := ⟨hnames, hdots, List.mem_map.mpr ⟨v, hv, rfl⟩, hfresh, hdot⟩
  exact ⟨Query.answer_withAlias hrenames hplain, requalified_qualified _ _, fun x hx => requalified_of_ne hx name,
    fun page hpage r hr => Query.perm_entries_renamed hrenames hplain hpage hr⟩

/-- The contacts of accounts under the alias `owner` in place of `c`, with a link below them and with criteria of the
query, of the link itself and of the link below that speak of `c`. -/
theorem aliases_are_bound_names_owner :
    let record (entity : String) (attributes : List (String × String)) : Record :=
      { logicalName := entity, attributes := .ofList (attributes.map fun e => (e.1, .string e.2)) }
    let account := record "account" [("contactid", "1"), ("name", "Acme")]
    let contact := record "contact" [("contactid", "1"), ("parentid", "7")]
    let holding := record "holding" [("holdingid", "7")]
    let s : Store := { records := [account, contact, record "account" [("contactid", "2")], holding] }
    let present (scope name : String) : Filter :=
      { conditions := [{ scope := some scope, attributeName := name, operator := .notNull }] }
    let absent (scope name : String) : Filter :=
      { conditions := [{ scope := some scope, attributeName := name, operator := .isNull }] }
    let below : Link :=
      { fromEntity := some "contact", fromAttribute := some "parentid", toEntity := some "holding",
        toAttribute := some "holdingid", columns := .all, criteria := some (absent "c" "parentid") }
    let link (scope : String) : Link :=
      { fromEntity := some "account", fromAttribute := some "contactid", toEntity := some "contact",
        toAttribute := some "contactid", aliasName := some scope, columns := .all,
        criteria := some (present scope "parentid"), links := [below] }
    let q (scope : String) : Query :=
      { entity := "account", columns := .all, criteria := some (present scope "contactid"), links := [link scope] }
    let v : Visit := ⟨"account", link "c"⟩
    let page (scope : String) : Page :=
      { records := [record "account" [("contactid", "1"), ("holding.holdingid", "7"), ("name", "Acme"),
          (scope ++ ".contactid", "1"), (scope ++ ".parentid", "7")]] }
    (q "c").names.Nodup ∧ (∀ w ∈ (q "c").visits, '.' ∉ w.link.scope.toList) ∧ v ∈ (q "c").visits ∧
      (q "c").Fresh "owner" ∧ (∀ r ∈ s.records, r.logicalName = "account" → r.Plain) ∧
      (q "c").withAlias v.link.scope "owner" = q "owner" ∧ (Store.backend (q "c") s).1 = .ok (page "c") ∧
      (Store.backend (q "owner") s).1 = .ok (page "owner") := by
  intro record account contact holding s present absent below link q v page
  have hvisits : (q "c").visits = [v, ⟨"c", below⟩] := rfl
  have hnames : (q "c").names.Nodup := by decide
  have hdots : ∀ w ∈ (q "c").visits, '.' ∉ w.link.scope.toList := by
    rw [hvisits]
    rintro w (_ | ⟨_, _ | ⟨_, ⟨⟩⟩⟩) <;> decide
  have hv : v ∈ (q "c").visits := List.mem_cons_self
  have havoids : ∀ c name, c ≠ "owner" → (present c name).Avoids "owner" ∧ (absent c name).Avoids "owner" := by
    intro c name hne
    have hscope : some c ≠ some "owner" := fun heq => hne (Option.some.inj heq)
    constructor <;> (rintro d (_ | ⟨_, ⟨⟩⟩); exact hscope)
  have hfresh : (q "c").Fresh "owner" := by
    refine ⟨by decide, ?_, ?_⟩
    · rintro f ⟨⟩
      exact (havoids "c" "contactid" (by decide)).1
    · rw [hvisits]
      rintro w (_ | ⟨_, _ | ⟨_, ⟨⟩⟩⟩)
      · exact ⟨by decide, by rintro f ⟨⟩; exact (havoids "c" "parentid" (by decide)).1⟩
      · exact ⟨by decide, by rintro f ⟨⟩; exact (havoids "c" "parentid" (by decide)).2⟩
  have hplain : ∀ r ∈ s.records, r.logicalName = "account" → r.Plain := by
    rintro r (_ | ⟨_, _ | ⟨_, _ | ⟨_, _ | ⟨_, ⟨⟩⟩⟩⟩⟩) - <;> (unfold Record.Plain; decide)
  have hquery : (q "c").withAlias v.link.scope "owner" = q "owner" := rfl
  have hjoined : (q "c").joinedRows s.records =
      .ok [((Row.single "account" account).bind "c" contact).bind "holding" holding] := rfl
  have hanswer : (Store.backend (q "c") s).1 = .ok (page "c") := by
    refine Query.answer_eq_ok_iff.mpr ⟨rfl, _, _, hjoined, rfl, ?_⟩
    rw [Query.present_eq_map rfl rfl rfl]
    rfl
  have hpage : (page "c").renamed (requalified "c" "owner") = page "owner" := by
    refine congrArg (fun attributes : SortedMap Json =>
      ({ records := [{ logicalName := "account", attributes }] } : Page)) (SortedMap.ext ?_)
    rfl
  obtain ⟨hsame, -, -, -⟩ := aliases_are_bound_names s hnames hdots hv hfresh (by decide) hplain
  rw [hquery, hanswer] at hsame
  exact ⟨hnames, hdots, hv, hfresh, hplain, hquery, hanswer, hsame.trans (congrArg Except.ok hpage)⟩

end EntityQuery
