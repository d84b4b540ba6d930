import EntityQuery.Proofs.Store.Results
import EntityQuery.Proofs.Store.Walks
import EntityQuery.Retrieval.Backend

/-!
# Records that have no influence

A query looks at the records of its entity and, link by link, at those of the target entities. Each time it picks them
out by their entity before it compares or evaluates anything. So two lists of records that agree on these entities, each
on its own and in order, give one answer, or one failure; records of other entities can come and go.

* `Query.entities`: the entities that a query looks at;
* `AgreeOn`: lists that have the same records of some entities;
* `Supplemented`: lists of which one has more records than the other;
* `Link.followAll_congr`, `Query.answer_congr`: what a query sees of the records;
* `unrelated_records_have_no_influence`: records of other entities can be removed and inserted.
-/

namespace EntityQuery

/-! ## Lists that agree -/

/-- For each of some entities, both lists have the same records in the same order. -/
def AgreeOn (entities : List String) (records records' : List Record) : Prop :=
  ∀ entity ∈ entities,
    (records.filter fun r => r.logicalName == entity) = records'.filter fun r => r.logicalName == entity

/-- The second list has all records of the first one, in order, and between them any others that have a property. -/
inductive Supplemented (p : Record → Prop) : List Record → List Record → Prop where
  | nil : Supplemented p [] []
  | keep (r : Record) {records more : List Record} (h : Supplemented p records more) :
    Supplemented p (r :: records) (r :: more)
  | insert {r : Record} (hr : p r) {records more : List Record} (h : Supplemented p records more) :
    Supplemented p records (r :: more)

theorem AgreeOn.mono {entities fewer : List String} {records records' : List Record}
    (h : AgreeOn entities records records') (hsub : fewer ⊆ entities) : AgreeOn fewer records records' :=
  fun entity hentity => h entity (hsub hentity)

/-- Other records make no difference for the entities. -/
theorem Supplemented.agreeOn {entities : List String} {records more : List Record}
    (h : Supplemented (fun r => r.logicalName ∉ entities) records more) : AgreeOn entities records more := by
  intro entity hentity
  induction h with
  | nil => rfl
  | keep r _ ih => rw [List.filter_cons, List.filter_cons, ih]
  | @insert r hr _ _ _ ih =>
    have hne : (r.logicalName == entity) = false := by
      rw [beq_eq_false_iff_ne]
      rintro rfl
      exact hr hentity
    rw [List.filter_cons, hne, ih]
    rfl

theorem agreeOn_filter (entities : List String) (records : List Record) :
    AgreeOn entities (records.filter fun r => decide (r.logicalName ∈ entities)) records := by
  intro entity hentity
  rw [List.filter_filter]
  refine List.filter_congr fun r _ => ?_
  by_cases hname : r.logicalName = entity
  · simp [hname, hentity]
  · simp [hname]

/-! ## What links see -/

/-- The entities that the links of visits join, in order. -/
def Visit.targets (vs : List Visit) : List String := vs.filterMap fun v => v.link.toEntity

namespace Link

variable {records records' : List Record} {l : Link} {keys : JoinKeys}

/-- Candidates are picked out of the records of the target entity. -/
theorem candidates_congr (h : AgreeOn [keys.toEntity] records records') (source : Json) :
    candidates records keys source = candidates records' keys source := by
  unfold candidates
  split_ifs
  · rfl
  · have hequivalent := congrArg (List.filter fun r => source.equivalent (r.value keys.toAttribute))
      (h keys.toEntity List.mem_cons_self)
    rw [List.filter_filter, List.filter_filter] at hequivalent
    simpa only [Bool.and_comm] using hequivalent

theorem extendRows_congr (h : AgreeOn [keys.toEntity] records records') (l : Link) (parent scope : String)
    (rows : List Row) : extendRows records l keys parent scope rows = extendRows records' l keys parent scope rows := by
  induction rows with
  | nil => rfl
  | cons row rest ih => rw [extendRows, extendRows, extendRow, extendRow, candidates_congr h, ih]

mutual

/-- **A link that is followed sees the records of its target entity, and so do the links below it.** -/
theorem follow_congr : ∀ (l : Link) (parent : String), AgreeOn (Visit.targets (l.visits parent)) records records' →
    ∀ rows, follow records parent l rows = follow records' parent l rows
  | ⟨fromEntity, fromAttribute, toEntity, toAttribute, aliasName, kind, columns, criteria, links⟩, parent, h, rows => by
    set l : Link := { fromEntity, fromAttribute, toEntity, toAttribute, aliasName, kind, columns, criteria, links }
    cases hkeys : l.keys with
    | error e => rw [follow_of_error hkeys, follow_of_error hkeys]
    | ok keys =>
      obtain ⟨-, -, htarget, -⟩ := keys_eq_ok hkeys
      have htargets : Visit.targets (l.visits parent) = keys.toEntity :: Visit.targets (visitsOf l.scope links) := by
        rw [visits_eq]
        exact List.filterMap_cons_some htarget
      rw [htargets] at h
      have hbelow := followAll_congr links l.scope (h.mono (List.subset_cons_self _ _))
      rw [follow_of_keys hkeys, follow_of_keys hkeys, extendRows_congr (h.mono (by simp)), funext hbelow]

theorem followAll_congr : ∀ (links : List Link) (parent : String),
    AgreeOn (Visit.targets (visitsOf parent links)) records records' →
    ∀ rows, followAll records parent links rows = followAll records' parent links rows
  | [], _, _, _ => rfl
  | l :: rest, parent, h, rows => by
    rw [visitsOf, Visit.targets, List.filterMap_append] at h
    rw [followAll, followAll, follow_congr l parent (h.mono (List.subset_append_left _ _)),
      funext (followAll_congr rest parent (h.mono (List.subset_append_right _ _)))]

end

end Link

/-! ## What queries see -/

namespace Query

variable {q : Query} {records records' : List Record}

/-- The entities that a query looks at: its own, and the targets of its links at any depth. -/
def entities (q : Query) : List String := q.entity :: Visit.targets q.visits

theorem joinedRows_congr (h : AgreeOn q.entities records records') : q.joinedRows records = q.joinedRows records' := by
  have hroot : q.rootRows records = q.rootRows records' := by
    rw [rootRows, rootRows, h q.entity List.mem_cons_self]
  rw [joinedRows, joinedRows, hroot]
  exact Link.followAll_congr q.links q.entity (h.mono (List.subset_cons_self _ _)) _

/-- **A query sees the records of its entities alone.** -/
theorem answer_congr (h : AgreeOn q.entities records records') : q.answer records = q.answer records' := by
  rw [answer, answer, result, result, joinedRows_congr h]

end Query

/-- **Unrelated records have no influence.** Removing all records whose entity is neither that of the query nor the
target of a link, at any depth, leaves the answer as it was, be it a page or a failure. So does inserting such records
at any positions; and stores that agree on every entity that counts have the same answer. -/
theorem unrelated_records_have_no_influence (q : Query) (s : Store) :
    (Store.backend q { s with records := s.records.filter fun r => decide (r.logicalName ∈ q.entities) }).1 =
      (Store.backend q s).1 ∧
    (∀ more, Supplemented (fun r => r.logicalName ∉ q.entities) s.records more →
      (Store.backend q { s with records := more }).1 = (Store.backend q s).1) ∧
    (∀ s' : Store, AgreeOn q.entities s.records s'.records → (Store.backend q s').1 = (Store.backend q s).1) := by
  refine ⟨?_, fun more h => ?_, fun s' h => ?_⟩
  · exact Query.answer_congr (agreeOn_filter q.entities s.records)
  · exact (Query.answer_congr h.agreeOn).symm
  · exact (Query.answer_congr h).symm

/-- Contacts of accounts, between them notes that a link would join if it looked at them. -/
theorem unrelated_records_have_no_influence_notes :
    let record (entity : String) (name : String) : Record :=
      { logicalName := entity, attributes := .ofList [("name", .string name)] }
    let holding : Link :=
      { fromEntity := some "contact", fromAttribute := some "name", toEntity := some "holding",
        toAttribute := some "name", kind := .leftOuter, columns := .all }
    let contact : Link :=
      { fromEntity := some "account", fromAttribute := some "name", toEntity := some "contact",
        toAttribute := some "name", columns := .all, links := [holding] }
    let q : Query := { entity := "account", links := [contact] }
    let s : Store := { records := [record "account" "Acme", record "contact" "Acme", record "holding" "Acme"] }
    let more := [record "note" "Acme", record "account" "Acme", record "contact" "Acme", record "note" "Acme",
      record "holding" "Acme", record "lead" "Mills"]
    q.entities = ["account", "contact", "holding"] ∧
      Supplemented (fun r => r.logicalName ∉ q.entities) s.records more ∧
      AgreeOn q.entities s.records more ∧
      (Store.backend q { s with records := more }).1 =
        .ok { records := [{ logicalName := "account", attributes := .ofList [("contact.name", .string "Acme"),
          ("holding.name", .string "Acme")] }] } := by
  intro record holding contact q s more
  have hjoined : q.joinedRows s.records =
      .ok [((Row.single "account" (record "account" "Acme")).bind "contact" (record "contact" "Acme")).bind "holding"
        (record "holding" "Acme")] := rfl
  have hanswer := Query.answer_eq (Query.result_of_joinedRows rfl hjoined rfl rfl rfl rfl)
  have hmore : Supplemented (fun r => r.logicalName ∉ q.entities) s.records more :=
    .insert (by decide) (.keep _ (.keep _ (.insert (by decide) (.keep _ (.insert (by decide) .nil)))))
  obtain ⟨-, hinserted, -⟩ := unrelated_records_have_no_influence q s
  exact ⟨rfl, hmore, hmore.agreeOn, (hinserted more hmore).trans hanswer⟩

end EntityQuery
