import EntityQuery.Proofs.Store.Conjunction
import EntityQuery.Proofs.Store.Walks

/-!
# Link criteria at the root of a query

Criteria of a link are evaluated on a candidate alone, those of the query on finished rows. Criteria that speak of
nothing but the scope of their link have the same outcome on both, because no later link binds the scope again. A link
that is not a left outer one binds its scope in every row that it leaves, and so its criteria can as well be added to
those of the query: the rows that the link would not have made are dropped at the end, and the others keep their order.

* `Filter.holds_scopedTo`, `Filter.holds_congr`: what an outcome depends on;
* `Link.withoutCriteria`: a tree of links in which one link has lost its criteria;
* `rowsFrom_withoutCriteria`: dropping rows at the end of the walks makes up for the criteria;
* `Query.moved_criteria_keep_answer`: the answers of both queries are the same.
-/

namespace EntityQuery

/-! ## What an outcome depends on -/

/-- Lets a condition speak of a scope if it names none. -/
def Condition.scopedTo (scope : String) (c : Condition) : Condition := { c with scope := some (c.scope.getD scope) }

theorem Condition.holds_scopedTo (c : Condition) (scope owner : String) (row : Row) :
    (c.scopedTo scope).holds row owner = c.holds row scope := rfl

theorem Condition.holds_congr {c : Condition} {scope : String} {row row' : Row}
    (h : row (c.scope.getD scope) = row' (c.scope.getD scope)) : c.holds row scope = c.holds row' scope := by
  unfold Condition.holds
  rw [Row.value_congr h]

namespace Filter

mutual

/-- Lets all conditions of a filter speak of a scope that name none. -/
def scopedTo (scope : String) : Filter → Filter
  | ⟨junction, conditions, filters⟩ =>
    { junction, conditions := conditions.map (Condition.scopedTo scope), filters := scopedToAll scope filters }

/-- Lets all conditions of the filters of a list speak of a scope that name none. -/
def scopedToAll (scope : String) : List Filter → List Filter
  | [] => []
  | f :: rest => scopedTo scope f :: scopedToAll scope rest

end

variable {scope : String} {row row' : Row}

theorem conditionOutcomes_scopedTo (scope owner : String) (row : Row) (conditions : List Condition) :
    conditionOutcomes row owner (conditions.map (Condition.scopedTo scope)) =
      conditionOutcomes row scope conditions := by
  induction conditions with
  | nil => rfl
  | cons c rest ih => rw [List.map_cons, conditionOutcomes, conditionOutcomes, c.holds_scopedTo, ih]

mutual

theorem holds_scopedTo (scope owner : String) (row : Row) : ∀ f : Filter,
    (f.scopedTo scope).holds row owner = f.holds row scope
  | ⟨junction, conditions, filters⟩ => by
    rw [scopedTo, holds, holds, conditionOutcomes_scopedTo, outcomes_scopedToAll scope owner row filters]

theorem outcomes_scopedToAll (scope owner : String) (row : Row) : ∀ fs : List Filter,
    outcomes (scopedToAll scope fs) row owner = outcomes fs row scope
  | [] => rfl
  | f :: rest => by
    rw [scopedToAll, outcomes, outcomes, holds_scopedTo scope owner row f, outcomes_scopedToAll scope owner row rest]

end

theorem conditionOutcomes_congr {conditions : List Condition}
    (h : ∀ c ∈ conditions, row (c.scope.getD scope) = row' (c.scope.getD scope)) :
    conditionOutcomes row scope conditions = conditionOutcomes row' scope conditions := by
  induction conditions with
  | nil => rfl
  | cons c rest ih =>
    rw [List.forall_mem_cons] at h
    rw [conditionOutcomes, conditionOutcomes, Condition.holds_congr h.1, ih h.2]

mutual

/-- The outcome of a filter depends on the scopes that its conditions speak of. -/
theorem holds_congr : ∀ f : Filter, (∀ c ∈ f.allConditions, row (c.scope.getD scope) = row' (c.scope.getD scope)) →
    f.holds row scope = f.holds row' scope
  | ⟨junction, conditions, filters⟩, h => by
    rw [allConditions, List.forall_mem_append] at h
    rw [holds, holds, conditionOutcomes_congr h.1, outcomes_congr filters h.2]

theorem outcomes_congr : ∀ fs : List Filter,
    (∀ c ∈ allConditionsOf fs, row (c.scope.getD scope) = row' (c.scope.getD scope)) →
    outcomes fs row scope = outcomes fs row' scope
  | [], _ => rfl
  | f :: rest, h => by
    rw [allConditionsOf, List.forall_mem_append] at h
    rw [outcomes, outcomes, holds_congr f h.1, outcomes_congr rest h.2]

end

/-- Every condition speaks of the scope, by name or by default. -/
def SpeaksOf (scope : String) (f : Filter) : Prop := ∀ c ∈ f.allConditions, c.scope = none ∨ c.scope = some scope

/-- Criteria of a scope have the same outcome on all rows that bind it to one record. -/
theorem SpeaksOf.holds_eq {f : Filter} (h : f.SpeaksOf scope) {r : Record} (hrow : row scope = some r) :
    f.holds row scope = f.holds (.single scope r) scope := by
  refine f.holds_congr fun c hc => ?_
  have hscope : c.scope.getD scope = scope := by
    rcases h c hc with hnone | hsome
    · rw [hnone, Option.getD_none]
    · rw [hsome, Option.getD_some]
  rw [hscope, hrow, Row.single_self]

end Filter

/-! ## Links without criteria -/

namespace Link

mutual

/-- The tree of a link where the link with a scope has no criteria. -/
def withoutCriteria (scope : String) : Link → Link
  | ⟨fromEntity, fromAttribute, toEntity, toAttribute, aliasName, kind, columns, criteria, links⟩ =>
    let l : Link :=
      { fromEntity, fromAttribute, toEntity, toAttribute, aliasName, kind, columns, criteria, links }
    { l with criteria := if l.scope = scope then none else criteria, links := withoutCriteriaOf scope links }

/-- The trees of the links of a list where the link with a scope has no criteria. -/
def withoutCriteriaOf (scope : String) : List Link → List Link
  | [] => []
  | l :: rest => withoutCriteria scope l :: withoutCriteriaOf scope rest

end

variable {scope : String} {l : Link}

theorem withoutCriteria_eq (scope : String) (l : Link) : l.withoutCriteria scope =
    { l with
      criteria := if l.scope = scope then none else l.criteria
      links := withoutCriteriaOf scope l.links } := by
  cases l
  rfl

@[simp] theorem scope_withoutCriteria (scope : String) (l : Link) : (l.withoutCriteria scope).scope = l.scope := by
  rw [withoutCriteria_eq]
  rfl

@[simp] theorem kind_withoutCriteria (scope : String) (l : Link) : (l.withoutCriteria scope).kind = l.kind := by
  rw [withoutCriteria_eq]

@[simp] theorem fromAttribute_withoutCriteria (scope : String) (l : Link) :
    (l.withoutCriteria scope).fromAttribute = l.fromAttribute := by
  rw [withoutCriteria_eq]

theorem Complete.withoutCriteria (h : l.Complete) (scope : String) : (l.withoutCriteria scope).Complete := by
  rw [withoutCriteria_eq]
  exact ⟨h.fromEntity, h.fromAttribute, h.toEntity, h.toAttribute⟩

theorem criteria_withoutCriteria {f : Filter} (h : (l.withoutCriteria scope).criteria = some f) :
    l.criteria = some f := by
  rw [withoutCriteria_eq] at h
  dsimp only at h
  split_ifs at h
  exact h

/-- Another link joins what it did. -/
theorem joins_withoutCriteria_of_ne (h : l.scope ≠ scope) (source : Json) (r : Record) :
    (l.withoutCriteria scope).joins source r = l.joins source r := by
  rw [withoutCriteria_eq, if_neg h]
  rfl

/-- The link itself joined what it joins without criteria if that passed them. -/
theorem joins_eq_withoutCriteria {f : Filter} (hcriteria : l.criteria = some f) (source : Json) (r : Record) :
    l.joins source r =
      ((l.withoutCriteria l.scope).joins source r && accepted (f.holds (.single l.scope r) l.scope)) := by
  rw [withoutCriteria_eq, if_pos rfl]
  have hadmits : l.admits l.scope r = f.holds (.single l.scope r) l.scope := by
    unfold admits
    rw [hcriteria]
  unfold joins
  rw [hadmits]
  simp [admits, accepted]

mutual

/-- Criteria do not count for what is selected from a row. -/
theorem project_withoutCriteria (scope : String) (row : Row) : ∀ (l : Link) (attributes : SortedMap Json),
    (l.withoutCriteria scope).project row attributes = l.project row attributes
  | ⟨fromEntity, fromAttribute, toEntity, toAttribute, aliasName, kind, columns, criteria, links⟩, attributes => by
    rw [withoutCriteria, project, project]
    cases aliasName.or toEntity with
    | none => rfl
    | some name => exact projectAll_withoutCriteriaOf scope row links _

theorem projectAll_withoutCriteriaOf (scope : String) (row : Row) :
    ∀ (links : List Link) (attributes : SortedMap Json),
      projectAll row (withoutCriteriaOf scope links) attributes = projectAll row links attributes
  | [], _ => rfl
  | l :: rest, attributes => by
    rw [withoutCriteriaOf, projectAll, projectAll, project_withoutCriteria scope row l,
      projectAll_withoutCriteriaOf scope row rest]

end

end Link

/-! ## Walks without criteria -/

/-- The visit of a link where the link with a scope has no criteria. -/
def Visit.withoutCriteria (scope : String) (v : Visit) : Visit := ⟨v.parent, v.link.withoutCriteria scope⟩

mutual

theorem Link.visits_withoutCriteria (scope : String) : ∀ (l : Link) (parent : String),
    (l.withoutCriteria scope).visits parent = (l.visits parent).map (Visit.withoutCriteria scope)
  | ⟨fromEntity, fromAttribute, toEntity, toAttribute, aliasName, kind, columns, criteria, links⟩, parent => by
    rw [visits_eq, visits_eq, List.map_cons, scope_withoutCriteria, ← visitsOf_withoutCriteria scope links]
    rfl

theorem Link.visitsOf_withoutCriteria (scope : String) : ∀ (links : List Link) (parent : String),
    visitsOf parent (withoutCriteriaOf scope links) = (visitsOf parent links).map (Visit.withoutCriteria scope)
  | [], _ => rfl
  | l :: rest, parent => by
    rw [withoutCriteriaOf, visitsOf, visitsOf, List.map_append, visits_withoutCriteria scope l,
      visitsOf_withoutCriteria scope rest]

end

section Walks

variable {records : List Record} {vs : List Visit} {scope : String}

theorem Visit.source_withoutCriteria (scope : String) (v : Visit) (row : Row) :
    (v.withoutCriteria scope).source row = v.source row := by
  unfold Visit.source Visit.withoutCriteria
  rw [Link.fromAttribute_withoutCriteria]

theorem Visit.choices_withoutCriteria_of_ne {v : Visit} (h : v.link.scope ≠ scope) (records : List Record)
    (row : Row) : (v.withoutCriteria scope).choices records row = v.choices records row := by
  have hjoins : (v.withoutCriteria scope).link.joins (v.source row) = v.link.joins (v.source row) := by
    funext r
    exact Link.joins_withoutCriteria_of_ne h _ r
  have hkind : (v.withoutCriteria scope).link.kind = v.link.kind := Link.kind_withoutCriteria scope v.link
  unfold Visit.choices
  rw [Visit.source_withoutCriteria, hjoins, hkind]

/-- The walks along other links are the same. -/
theorem rowsFrom_withoutCriteria_of_not_mem (h : scope ∉ vs.map fun v => v.link.scope) (row : Row) :
    rowsFrom records (vs.map (Visit.withoutCriteria scope)) row = rowsFrom records vs row := by
  induction vs generalizing row with
  | nil => rfl
  | cons v rest ih =>
    rw [List.map_cons, List.mem_cons, not_or] at h
    have hscope : (v.withoutCriteria scope).link.scope = v.link.scope := Link.scope_withoutCriteria scope v.link
    simp only [List.map_cons, rowsFrom, Visit.choices_withoutCriteria_of_ne (Ne.symm h.1), hscope, ih h.2]

/-- A link that is not left outer binds its scope to one record after the other that it joins. -/
theorem rowsFrom_cons_of_ne {v : Visit} (h : v.link.kind ≠ .leftOuter) (records : List Record) (rest : List Visit)
    (row : Row) : rowsFrom records (v :: rest) row =
      (records.filter (v.link.joins (v.source row))).flatMap fun r =>
        rowsFrom records rest (row.bind v.link.scope r) := by
  have hchoices : v.choices records row = (records.findIdxs (v.link.joins (v.source row))).map some := by
    unfold Visit.choices
    rw [if_neg]
    simp [h]
  rw [rowsFrom, hchoices, ← List.flatMap_map, Link.choose_some, List.flatMap_map]

theorem flatMap_ite {α β : Type} (xs : List α) (p : α → Bool) (f : α → List β) :
    (xs.flatMap fun x => if p x then f x else []) = (xs.filter p).flatMap f := by
  induction xs with
  | nil => rfl
  | cons x rest ih => by_cases h : p x = true <;> simp [h, ih]

/-- **Criteria that are evaluated at the end of the walks make up for those of the link.** -/
theorem rowsFrom_withoutCriteria {v : Visit} {f : Filter} (hv : v ∈ vs)
    (hnames : (vs.map fun v => v.link.scope).Nodup) (hkind : v.link.kind ≠ .leftOuter)
    (hcriteria : v.link.criteria = some f) (hspeaks : f.SpeaksOf v.link.scope) (row : Row) :
    ((rowsFrom records (vs.map (Visit.withoutCriteria v.link.scope)) row).filter fun out =>
      accepted (f.holds out v.link.scope)) = rowsFrom records vs row := by
  induction vs generalizing row with
  | nil => cases hv
  | cons w rest ih =>
    rw [List.map_cons, List.nodup_cons] at hnames
    have hscope : (w.withoutCriteria v.link.scope).link.scope = w.link.scope := Link.scope_withoutCriteria _ _
    rcases List.mem_cons.mp hv with rfl | hv
    · have hwithout : (v.withoutCriteria v.link.scope).link.kind ≠ .leftOuter := by
        rwa [Visit.withoutCriteria, Link.kind_withoutCriteria]
      -- the rows of one record are kept or dropped together, as the scope stays bound to it
      have hrecord : ∀ r, ((rowsFrom records rest (row.bind v.link.scope r)).filter fun out =>
          accepted (f.holds out v.link.scope)) =
            if accepted (f.holds (.single v.link.scope r) v.link.scope) then
              rowsFrom records rest (row.bind v.link.scope r)
            else [] := by
        intro r
        have hsame : ∀ out ∈ rowsFrom records rest (row.bind v.link.scope r),
            f.holds out v.link.scope = f.holds (.single v.link.scope r) v.link.scope := by
          intro out hout
          refine hspeaks.holds_eq ?_
          rw [eq_of_mem_rowsFrom hout hnames.1, Row.bind_self]
        split_ifs with haccepted
        · exact List.filter_eq_self.mpr fun out hout => by rw [hsame out hout, haccepted]
        · exact List.filter_eq_nil_iff.mpr fun out hout => by rwa [hsame out hout]
      have hjoins : v.link.joins (v.source row) = fun r => accepted (f.holds (.single v.link.scope r) v.link.scope) &&
          (v.withoutCriteria v.link.scope).link.joins (v.source row) r := by
        funext r
        rw [Link.joins_eq_withoutCriteria hcriteria, Bool.and_comm]
        rfl
      rw [List.map_cons, rowsFrom_cons_of_ne hwithout, rowsFrom_cons_of_ne hkind, Visit.source_withoutCriteria, hscope,
        List.filter_flatMap, hjoins]
      simp only [rowsFrom_withoutCriteria_of_not_mem hnames.1, hrecord, flatMap_ite, List.filter_filter]
    · have hne : w.link.scope ≠ v.link.scope := by
        intro heq
        exact hnames.1 (heq ▸ List.mem_map_of_mem hv)
      simp only [List.map_cons, rowsFrom, Visit.choices_withoutCriteria_of_ne hne, hscope, List.filter_flatMap,
        ih hv hnames.2]

end Walks

/-! ## Queries -/

namespace Query

variable {q : Query} {records : List Record} {scope : String}

/-- The query where the link with a scope has no criteria. -/
def withoutCriteria (q : Query) (scope : String) : Query :=
  { q with links := Link.withoutCriteriaOf scope q.links }

/-- Takes criteria from the link with a scope and adds them to those of the query, for the records of that scope. -/
def moveCriteria (q : Query) (scope : String) (f : Filter) : Query :=
  (q.withoutCriteria scope).restrict (f.scopedTo scope)

theorem visits_withoutCriteria (q : Query) (scope : String) :
    (q.withoutCriteria scope).visits = q.visits.map (Visit.withoutCriteria scope) :=
  Link.visitsOf_withoutCriteria scope q.links q.entity

theorem present_withoutCriteria (q : Query) (scope : String) (rows : List Row) :
    (q.withoutCriteria scope).present rows = q.present rows := by
  have hproject : (q.withoutCriteria scope).project = q.project := by
    funext row
    unfold project withoutCriteria
    simp only [Link.projectAll_withoutCriteriaOf]
  unfold present
  rw [hproject]
  rfl

/-- The joined rows without the criteria, of which those with the criteria are the ones that pass them. -/
theorem joinedRows_withoutCriteria (records : List Record) (hcomplete : ∀ v ∈ q.visits, v.link.Complete)
    (hsized : ∀ v ∈ q.visits, ∀ f, v.link.criteria = some f → f.WellSized) (hnames : q.names.Nodup) {v : Visit}
    {f : Filter} (hv : v ∈ q.visits) (hkind : v.link.kind ≠ .leftOuter) (hcriteria : v.link.criteria = some f)
    (hspeaks : f.SpeaksOf v.link.scope) : ∃ joined, (q.withoutCriteria v.link.scope).joinedRows records = .ok joined ∧
      q.joinedRows records = .ok (joined.filter fun row => accepted (f.holds row v.link.scope)) := by
  have hwithout : ∀ w ∈ (q.withoutCriteria v.link.scope).visits,
      ∃ w₀ ∈ q.visits, w₀.withoutCriteria v.link.scope = w := by
    intro w hw
    rw [visits_withoutCriteria] at hw
    exact List.mem_map.mp hw
  have hjoined := joinedRows_ok (q := q.withoutCriteria v.link.scope) records
    (by
      intro w hw
      obtain ⟨w₀, hw₀, rfl⟩ := hwithout w hw
      exact (hcomplete w₀ hw₀).withoutCriteria _)
    (by
      intro w hw g hg
      obtain ⟨w₀, hw₀, rfl⟩ := hwithout w hw
      exact hsized w₀ hw₀ g (Link.criteria_withoutCriteria hg))
  refine ⟨_, hjoined, ?_⟩
  rw [joinedRows_ok records hcomplete hsized, List.filter_flatMap, visits_withoutCriteria]
  have hrows : (fun row => (rowsFrom records (q.visits.map (Visit.withoutCriteria v.link.scope)) row).filter fun out =>
      accepted (f.holds out v.link.scope)) = rowsFrom records q.visits := by
    funext row
    exact rowsFrom_withoutCriteria hv (List.nodup_cons.mp hnames).2 hkind hcriteria hspeaks row
  rw [hrows]
  rfl

theorem filterRows_moveCriteria {f : Filter} (hroot : ∀ g, q.criteria = some g → g.WellSized) (hsized : f.WellSized)
    (scope : String) (rows : List Row) : (q.moveCriteria scope f).filterRows rows =
      .ok ((rows.filter fun row => accepted (f.holds row scope)).filter fun row =>
        accepted (q.outcome row q.entity)) := by
  have hmoved : ∀ row, (f.scopedTo scope).holds row q.entity = f.holds row scope :=
    fun row => f.holds_scopedTo scope q.entity row
  have houtcome : ∀ row, (q.moveCriteria scope f).outcome row q.entity =
      both (q.outcome row q.entity) (f.holds row scope) := by
    intro row
    rw [← hmoved row]
    exact outcome_restrict (q.withoutCriteria scope) (f.scopedTo scope) row q.entity
  have hok : ∀ row, ¬ Failed (f.holds row scope) := fun row => not_failed_iff.mpr (hsized.holds_ok row scope)
  refine filterRows_eq_ok_iff.mpr ⟨fun row _ => ?_, ?_⟩
  · show ¬ Failed ((q.moveCriteria scope f).outcome row q.entity)
    rw [houtcome, failed_both_iff, not_or]
    exact ⟨not_failed_outcome hroot row q.entity, hok row⟩
  · rw [List.filter_filter]
    refine List.filter_congr fun row _ => ?_
    show _ = accepted ((q.moveCriteria scope f).outcome row q.entity)
    rw [houtcome, accepted_both]

/-- The same rows are kept, when there is an entity to join from. -/
theorem keptRows_moveCriteria (records : List Record) (hname : q.entity.isEmpty = false)
    (hcomplete : ∀ v ∈ q.visits, v.link.Complete)
    (hsized : ∀ v ∈ q.visits, ∀ f, v.link.criteria = some f → f.WellSized)
    (hroot : ∀ f, q.criteria = some f → f.WellSized) (hnames : q.names.Nodup) {v : Visit} {f : Filter}
    (hv : v ∈ q.visits) (hkind : v.link.kind ≠ .leftOuter) (hcriteria : v.link.criteria = some f)
    (hspeaks : f.SpeaksOf v.link.scope) :
    ∃ kept, (q.moveCriteria v.link.scope f).keptRows records = .ok kept ∧ q.keptRows records = .ok kept := by
  obtain ⟨joined, hwithout, hjoined⟩ :=
    joinedRows_withoutCriteria records hcomplete hsized hnames hv hkind hcriteria hspeaks
  have hmoved := filterRows_moveCriteria hroot (hsized v hv f hcriteria) v.link.scope joined
  set passed := joined.filter fun row => accepted (f.holds row v.link.scope)
  have hfiltered : q.filterRows passed = .ok (passed.filter fun row => accepted (q.outcome row q.entity)) :=
    filterRows_eq_ok_iff.mpr ⟨fun row _ => not_failed_outcome hroot row q.entity, rfl⟩
  exact ⟨_, keptRows_eq_ok_iff.mpr ⟨hname, joined, hwithout, hmoved⟩,
    keptRows_eq_ok_iff.mpr ⟨hname, passed, hjoined, hfiltered⟩⟩

/-- Only the rows that are kept count for the answer. -/
theorem answerBy_moveCriteria {f : Filter}
    (h : (q.moveCriteria scope f).keptRows records = q.keptRows records)
    (sort : (Row → Row → Ordering) → List Row → Option (List Row)) :
    (q.moveCriteria scope f).answerBy sort records = q.answerBy sort records := by
  have hpresent : ({ q.moveCriteria scope f with sortKeys := [] } : Query).present =
      ({ q with sortKeys := [] } : Query).present :=
    funext fun rows => present_withoutCriteria { q with sortKeys := [] } scope rows
  unfold answerBy
  rw [h, hpresent]
  rfl

/-- **The criteria of a link that is not left outer can be moved to the root of the query.** Every link has to be
complete, the criteria well sized, and the names distinct. Then the query that has the criteria of one link among its
own, for the records of that scope, and not in the link has the same answer, by whatever function the rows are sorted.
There is one for sure when the query has an entity and its sort keys order the rows that are kept. -/
theorem moved_criteria_keep_answer (records : List Record) (hcomplete : ∀ v ∈ q.visits, v.link.Complete)
    (hsized : ∀ v ∈ q.visits, ∀ f, v.link.criteria = some f → f.WellSized)
    (hroot : ∀ f, q.criteria = some f → f.WellSized) (hnames : q.names.Nodup) {v : Visit} {f : Filter}
    (hv : v ∈ q.visits) (hkind : v.link.kind ≠ .leftOuter) (hcriteria : v.link.criteria = some f)
    (hspeaks : f.SpeaksOf v.link.scope) :
    (q.moveCriteria v.link.scope f).answer records = q.answer records ∧
      (∀ sort, (q.moveCriteria v.link.scope f).answerBy sort records = q.answerBy sort records) ∧
      (q.entity.isEmpty = false → ∃ kept, q.keptRows records = .ok kept ∧
        (SortKey.Orders q.sortKeys q.entity kept → ∃ page, q.IsAnswer records page)) := by
  have hsame : ∀ sort, (q.moveCriteria v.link.scope f).answerBy sort records = q.answerBy sort records := by
    refine answerBy_moveCriteria ?_
    cases hname : q.entity.isEmpty with
    | true =>
      rw [keptRows, keptRows, if_pos hname]
      exact if_pos hname
    | false =>
      obtain ⟨kept, hmoved, hkept⟩ := keptRows_moveCriteria records hname hcomplete hsized hroot hnames hv hkind
        hcriteria hspeaks
      rw [hmoved, hkept]
  refine ⟨?_, hsame, fun hname => ?_⟩
  · have hmerge := hsame fun cmp rows => some (rows.mergeSort fun a b => cmp a b != .gt)
    rw [answerBy_mergeSort, answerBy_mergeSort] at hmerge
    exact Option.some.inj hmerge
  · obtain ⟨kept, -, hkept⟩ := keptRows_moveCriteria records hname hcomplete hsized hroot hnames hv hkind hcriteria
      hspeaks
    exact ⟨kept, hkept, fun horders => ⟨_, (isAnswer_iff hkept).mpr ⟨horders, rfl⟩⟩⟩

/-- The holding of a contact that an account may have: the criteria are those of an inner link below a left outer
one. -/
theorem moved_criteria_keep_answer_holding :
    let record (entity : String) (attributes : List (String × String)) : Record :=
      { logicalName := entity, attributes := .ofList (attributes.map fun e => (e.1, .string e.2)) }
    let records := [record "account" [("contactid", "1")], record "account" [("contactid", "2")], record "account" [],
      record "contact" [("contactid", "1"), ("parentid", "7")],
      record "contact" [("contactid", "2"), ("parentid", "8")],
      record "holding" [("holdingid", "7")], record "holding" [("holdingid", "8"), ("name", "Mills")]]
    let named : Filter :=
      { conditions := [{ attributeName := "name", operator := .notNull }]
        filters := [{ conditions := [{ scope := some "h", attributeName := "holdingid", operator := .notNull }] }] }
    let holding : Link :=
      { fromEntity := some "contact", fromAttribute := some "parentid", toEntity := some "holding",
        toAttribute := some "holdingid", aliasName := some "h", kind := .natural, columns := .all,
        criteria := some named }
    let contact : Link :=
      { fromEntity := some "account", fromAttribute := some "contactid", toEntity := some "contact",
        toAttribute := some "contactid", kind := .leftOuter, links := [holding] }
    let q : Query := { entity := "account", links := [contact] }
    let v : Visit := ⟨"contact", holding⟩
    (∀ v ∈ q.visits, v.link.Complete) ∧ (∀ v ∈ q.visits, ∀ f, v.link.criteria = some f → f.WellSized) ∧
      (∀ f, q.criteria = some f → f.WellSized) ∧ q.names.Nodup ∧ v ∈ q.visits ∧ v.link.kind ≠ .leftOuter ∧
      v.link.criteria = some named ∧ named.SpeaksOf "h" ∧
      q.answer records = .ok { records := [record "account" [("h.holdingid", "8"), ("h.name", "Mills")]] } ∧
      (q.moveCriteria "h" named).answer records = q.answer records := by
  intro record records named holding contact q v
  have hvisits : q.visits = [⟨"account", contact⟩, v] := rfl
  have hcomplete : ∀ v ∈ q.visits, v.link.Complete := by
    rw [hvisits]
    rintro v (_ | ⟨_, _ | ⟨_, ⟨⟩⟩⟩) <;> exact ⟨rfl, rfl, rfl, rfl⟩
  have hspeaks : named.SpeaksOf "h" := by
    rintro c (_ | ⟨_, _ | ⟨_, ⟨⟩⟩⟩)
    · exact .inl rfl
    · exact .inr rfl
  have hnamed : named.WellSized := by
    rintro c (_ | ⟨_, _ | ⟨_, ⟨⟩⟩⟩) n hn <;> (cases hn; rfl)
  have hsized : ∀ v ∈ q.visits, ∀ f, v.link.criteria = some f → f.WellSized := by
    rw [hvisits]
    rintro v (_ | ⟨_, _ | ⟨_, ⟨⟩⟩⟩) f hf
    · cases hf
    · cases hf
      exact hnamed
  have hnames : q.names.Nodup := by decide
  have hv : v ∈ q.visits := List.mem_cons_of_mem _ List.mem_cons_self
  have hkind : v.link.kind ≠ .leftOuter := nofun
  have hjoined : q.joinedRows records =
      .ok [((Row.single "account" (record "account" [("contactid", "2")])).bind "contact"
        (record "contact" [("contactid", "2"), ("parentid", "8")])).bind "h"
        (record "holding" [("holdingid", "8"), ("name", "Mills")])] := rfl
  have hanswer := answer_eq (result_of_joinedRows rfl hjoined rfl rfl rfl rfl)
  obtain ⟨hsame, -⟩ := moved_criteria_keep_answer records hcomplete hsized nofun hnames hv hkind rfl hspeaks
  exact ⟨hcomplete, hsized, nofun, hnames, hv, hkind, rfl, hspeaks, hanswer, hsame⟩

end Query

end EntityQuery
