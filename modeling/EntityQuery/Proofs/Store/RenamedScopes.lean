import EntityQuery.Proofs.Store.Conjunction
import EntityQuery.Proofs.Store.Walks
import Mathlib.Logic.Equiv.Basic

/-!
# Links with another alias

A link binds its records under a scope, and conditions and the links below it speak of the scope by name. When the link
gets another alias, and conditions that speak of its scope follow, the same records are bound under other names: a row
has under the new name what it had under the old one. Exchanging the two names is a permutation of the scopes, and what
rows do is the same up to it; a name that the query does not use has nothing to lose.

* `Row.relabel`: the row with its scopes permuted;
* `Filter.mapConditions`, `Filter.holds_mapConditions`: filters with changed conditions;
* `Condition.rescoped`, `Filter.rescoped`: criteria that speak of one scope instead of another;
* `Link.withAlias`, `Query.withAlias`: the tree of links in which the link with a scope has another alias;
* `Link.Fresh`, `Query.Fresh`: names that neither bindings nor conditions use;
* `Link.followAll_withAlias`, `Query.joinedRows_withAlias`: links with another alias make the relabelled rows;
* `Query.filterRows_withAlias`: criteria that follow keep the relabelled rows.
-/

namespace EntityQuery

open Equiv (swap)

/-! ## Rows -/

namespace Row

variable {row : Row} {scope : String} (σ : Equiv.Perm String)

/-- The row that has under the image of a scope what it had under the scope. -/
def relabel (row : Row) : Row := fun scope => row (σ.symm scope)

@[simp] theorem relabel_apply (row : Row) (scope : String) : row.relabel σ (σ scope) = row scope := by
  rw [relabel, σ.symm_apply_apply]

@[simp] theorem value_relabel (row : Row) (scope : String) : (row.relabel σ).value (σ scope) = row.value scope := by
  funext name
  rw [value, value, relabel_apply]

theorem relabel_bind (row : Row) (scope : String) (r : Record) :
    (row.bind scope r).relabel σ = (row.relabel σ).bind (σ scope) r := by
  funext name
  simp only [relabel, bind, σ.symm_apply_eq]

theorem relabel_single (scope : String) (r : Record) : (single scope r).relabel σ = single (σ scope) r := by
  funext name
  simp only [relabel, single, σ.symm_apply_eq]

end Row

/-! ## Criteria -/

/-- Lets a condition that speaks of one scope speak of another. -/
def Condition.rescoped (scope name : String) (c : Condition) : Condition :=
  { c with scope := c.scope.map fun own => if own = scope then name else own }

theorem Condition.holds_rescoped {c : Condition} {scope name : String} (h : c.scope ≠ some name) (row : Row)
    (owner : String) : (c.rescoped scope name).holds (row.relabel (swap scope name)) (swap scope name owner) =
      c.holds row owner := by
  have hscope : (c.rescoped scope name).scope.getD (swap scope name owner) =
      swap scope name (c.scope.getD owner) := by
    unfold rescoped
    cases hown : c.scope with
    | none => rfl
    | some own =>
      rw [hown] at h
      have hne : own ≠ name := fun heq => h (congrArg some heq)
      simp [Equiv.swap_apply_def, hne]
  unfold holds
  rw [hscope, Row.value_relabel]
  rfl

namespace Filter

section Conditions

variable {change : Condition → Condition} {row row' : Row} {owner owner' : String}

mutual

/-- Changes the conditions of a filter, at any depth. -/
def mapConditions (change : Condition → Condition) : Filter → Filter
  | ⟨junction, conditions, filters⟩ =>
    { junction, conditions := conditions.map change, filters := mapConditionsOf change filters }

/-- Changes the conditions of the filters of a list. -/
def mapConditionsOf (change : Condition → Condition) : List Filter → List Filter
  | [] => []
  | f :: rest => mapConditions change f :: mapConditionsOf change rest

end

theorem conditionOutcomes_map {conditions : List Condition}
    (h : ∀ c ∈ conditions, (change c).holds row' owner' = c.holds row owner) :
    conditionOutcomes row' owner' (conditions.map change) = conditionOutcomes row owner conditions := by
  induction conditions with
  | nil => rfl
  | cons c rest ih =>
    rw [List.forall_mem_cons] at h
    rw [List.map_cons, conditionOutcomes, conditionOutcomes, h.1, ih h.2]

mutual

/-- A filter whose conditions keep their outcomes, be it on another row, keeps its own. -/
theorem holds_mapConditions : ∀ {f : Filter},
    (∀ c ∈ f.allConditions, (change c).holds row' owner' = c.holds row owner) →
    (f.mapConditions change).holds row' owner' = f.holds row owner
  | ⟨junction, conditions, filters⟩, h => by
    rw [allConditions, List.forall_mem_append] at h
    rw [mapConditions, holds, holds, conditionOutcomes_map h.1, outcomes_mapConditionsOf h.2]

theorem outcomes_mapConditionsOf : ∀ {fs : List Filter},
    (∀ c ∈ allConditionsOf fs, (change c).holds row' owner' = c.holds row owner) →
    outcomes (mapConditionsOf change fs) row' owner' = outcomes fs row owner
  | [], _ => rfl
  | f :: rest, h => by
    rw [allConditionsOf, List.forall_mem_append] at h
    rw [mapConditionsOf, outcomes, outcomes, holds_mapConditions (f := f) h.1, outcomes_mapConditionsOf h.2]

end

end Conditions

/-- Lets the conditions of a filter that speak of one scope speak of another. -/
def rescoped (scope name : String) : Filter → Filter := mapConditions (Condition.rescoped scope name)

/-- No condition speaks of the name. -/
def Avoids (name : String) (f : Filter) : Prop := ∀ c ∈ f.allConditions, c.scope ≠ some name

/-- **A filter that follows to another scope has the outcome it had**, on the row where the two scopes are exchanged. -/
theorem holds_rescoped {scope name : String} {f : Filter} (h : f.Avoids name) (row : Row) (owner : String) :
    (f.rescoped scope name).holds (row.relabel (swap scope name)) (swap scope name owner) = f.holds row owner :=
  holds_mapConditions fun c hc => Condition.holds_rescoped (h c hc) row owner

end Filter

/-! ## Links -/

namespace Link

mutual

/-- The tree of a link where the link with a scope has another alias, with its criteria following. -/
def withAlias (scope name : String) : Link → Link
  | ⟨fromEntity, fromAttribute, toEntity, toAttribute, aliasName, kind, columns, criteria, links⟩ =>
    let l : Link :=
      { fromEntity, fromAttribute, toEntity, toAttribute, aliasName, kind, columns, criteria, links }
    let below := withAliasOf scope name links
    if l.scope = scope then
      { l with aliasName := some name, criteria := criteria.map (Filter.rescoped scope name), links := below }
    else { l with links := below }

/-- The trees of the links of a list where the link with a scope has another alias. -/
def withAliasOf (scope name : String) : List Link → List Link
  | [] => []
  | l :: rest => withAlias scope name l :: withAliasOf scope name rest

end

/-- Neither the scope of the link is the name nor do its criteria speak of it. -/
structure Fresh (name : String) (l : Link) : Prop where
  scope : l.scope ≠ name
  criteria : ∀ f, l.criteria = some f → f.Avoids name

variable {scope name : String} {l : Link}

theorem withAlias_eq (scope name : String) (l : Link) : l.withAlias scope name =
    { l with
      aliasName := if l.scope = scope then some name else l.aliasName
      criteria := if l.scope = scope then l.criteria.map (Filter.rescoped scope name) else l.criteria
      links := withAliasOf scope name l.links } := by
  cases l
  rw [withAlias]
  split_ifs <;> rfl

theorem keys_withAlias (scope name : String) (l : Link) : (l.withAlias scope name).keys = l.keys := by
  rw [withAlias_eq]
  rfl

theorem scope_withAlias (h : l.scope ≠ name) : (l.withAlias scope name).scope = swap scope name l.scope := by
  rw [withAlias_eq, Equiv.swap_apply_def, if_neg h]
  split_ifs <;> rfl

theorem criteria_withAlias (scope name : String) (l : Link) : (l.withAlias scope name).criteria =
    if l.scope = scope then l.criteria.map (Filter.rescoped scope name) else l.criteria := by
  rw [withAlias_eq]

theorem admits_withAlias (h : l.Fresh name) (r : Record) :
    (l.withAlias scope name).admits (swap scope name l.scope) r = l.admits l.scope r := by
  unfold admits
  rw [criteria_withAlias]
  split_ifs with hscope
  · cases hcriteria : l.criteria with
    | none => rfl
    | some f =>
      show (f.rescoped scope name).holds _ _ = f.holds _ _
      rw [← Row.relabel_single, Filter.holds_rescoped (h.criteria f hcriteria)]
  · rw [Equiv.swap_apply_of_ne_of_ne hscope h.scope]

/-! ### Rows -/

section Rows

variable {records : List Record} {keys : JoinKeys} {parent : String}

theorem extendRow_withAlias (h : l.Fresh name) (row : Row) :
    extendRow records (l.withAlias scope name) keys (swap scope name parent) (swap scope name l.scope)
      (row.relabel (swap scope name)) =
    (extendRow records l keys parent l.scope row).map (List.map (Row.relabel (swap scope name))) := by
  have hkind : (l.withAlias scope name).kind = l.kind := by rw [withAlias_eq]
  unfold extendRow
  rw [Row.value_relabel, funext (admits_withAlias h), hkind]
  cases keepThat (l.admits l.scope) (candidates records keys (row.value parent keys.fromAttribute)) with
  | error e => rfl
  | ok found =>
    refine congrArg Except.ok ?_
    split_ifs
    · rfl
    · simp only [List.map_map, Function.comp_def, Row.relabel_bind]

theorem extendRows_withAlias (h : l.Fresh name) (rows : List Row) :
    extendRows records (l.withAlias scope name) keys (swap scope name parent) (swap scope name l.scope)
      (rows.map (Row.relabel (swap scope name))) =
    (extendRows records l keys parent l.scope rows).map (List.map (Row.relabel (swap scope name))) := by
  induction rows with
  | nil => rfl
  | cons row rest ih =>
    rw [List.map_cons, extendRows, extendRows, extendRow_withAlias h, ih]
    cases extendRow records l keys parent l.scope row with
    | error e => rfl
    | ok first =>
      cases extendRows records l keys parent l.scope rest with
      | error e => rfl
      | ok others => exact congrArg Except.ok List.map_append.symm

mutual

/-- **A link that has another alias makes the relabelled rows.** -/
theorem follow_withAlias : ∀ (l : Link) (parent : String), (∀ v ∈ l.visits parent, v.link.Fresh name) →
    ∀ rows : List Row, follow records (swap scope name parent) (l.withAlias scope name)
      (rows.map (Row.relabel (swap scope name))) =
    (follow records parent l rows).map (List.map (Row.relabel (swap scope name)))
  | ⟨fromEntity, fromAttribute, toEntity, toAttribute, aliasName, kind, columns, criteria, links⟩, parent, h, rows => by
    set l : Link := { fromEntity, fromAttribute, toEntity, toAttribute, aliasName, kind, columns, criteria, links }
    have hkeys' := keys_withAlias scope name l
    rw [visits_eq, List.forall_mem_cons] at h
    cases hkeys : l.keys with
    | error e =>
      rw [hkeys] at hkeys'
      rw [follow_of_error hkeys, follow_of_error hkeys']
      rfl
    | ok keys =>
      rw [hkeys] at hkeys'
      have hlinks : (l.withAlias scope name).links = withAliasOf scope name links := by rw [withAlias_eq]
      rw [follow_of_keys hkeys, follow_of_keys hkeys', scope_withAlias h.1.scope, extendRows_withAlias h.1, hlinks]
      cases extendRows records l keys parent l.scope rows with
      | error e => rfl
      | ok extended => exact followAll_withAlias links l.scope h.2 extended

theorem followAll_withAlias : ∀ (links : List Link) (parent : String),
    (∀ v ∈ visitsOf parent links, v.link.Fresh name) → ∀ rows : List Row,
    followAll records (swap scope name parent) (withAliasOf scope name links)
      (rows.map (Row.relabel (swap scope name))) =
    (followAll records parent links rows).map (List.map (Row.relabel (swap scope name)))
  | [], _, _, _ => rfl
  | l :: rest, parent, h, rows => by
    rw [visitsOf, List.forall_mem_append] at h
    rw [withAliasOf, followAll, followAll, follow_withAlias l parent h.1]
    cases follow records parent l rows with
    | error e => rfl
    | ok first => exact followAll_withAlias rest parent h.2 first

end

end Rows

end Link

/-! ## Queries -/

theorem keepThat_map {α β ε : Type} (test : β → Except ε Bool) (f : α → β) (xs : List α) :
    keepThat test (xs.map f) = (keepThat (fun x => test (f x)) xs).map (List.map f) := by
  induction xs with
  | nil => rfl
  | cons x rest ih =>
    rw [List.map_cons, keepThat, keepThat, ih]
    cases test (f x) with
    | error e => rfl
    | ok outcome =>
      cases keepThat (fun x => test (f x)) rest with
      | error e => rfl
      | ok kept => cases outcome <;> rfl

namespace Query

variable {q : Query} {scope name : String} {records : List Record}

/-- The query where the link with a scope has another alias. The conditions of the query and of the link follow. -/
def withAlias (q : Query) (scope name : String) : Query :=
  { q with
    criteria := q.criteria.map (Filter.rescoped scope name)
    links := Link.withAliasOf scope name q.links }

/-- The query uses the name neither for its entity nor for a scope, and none of its conditions speaks of it. -/
structure Fresh (name : String) (q : Query) : Prop where
  entity : q.entity ≠ name
  criteria : ∀ f, q.criteria = some f → f.Avoids name
  links : ∀ v ∈ q.visits, v.link.Fresh name

/-- The name of the entity is not exchanged. -/
theorem swap_entity (hentity : q.entity ≠ scope) (h : q.Fresh name) : swap scope name q.entity = q.entity :=
  Equiv.swap_apply_of_ne_of_ne hentity h.entity

theorem joinedRows_withAlias (hentity : q.entity ≠ scope) (h : q.Fresh name) (records : List Record) :
    (q.withAlias scope name).joinedRows records =
      (q.joinedRows records).map (List.map (Row.relabel (swap scope name))) := by
  have hroot : (q.withAlias scope name).rootRows records =
      (q.rootRows records).map (Row.relabel (swap scope name)) := by
    unfold rootRows
    rw [List.map_map]
    refine List.map_congr_left fun r _ => ?_
    rw [Function.comp_apply, Row.relabel_single, swap_entity hentity h]
    rfl
  rw [joinedRows, joinedRows, hroot, ← Link.followAll_withAlias q.links q.entity h.links, swap_entity hentity h]
  rfl

theorem filterRows_withAlias (hentity : q.entity ≠ scope) (h : q.Fresh name) (rows : List Row) :
    (q.withAlias scope name).filterRows (rows.map (Row.relabel (swap scope name))) =
      (q.filterRows rows).map (List.map (Row.relabel (swap scope name))) := by
  unfold filterRows withAlias
  cases hcriteria : q.criteria with
  | none => rfl
  | some f =>
    have hholds : ∀ row : Row, (f.rescoped scope name).holds (row.relabel (swap scope name)) q.entity =
        f.holds row q.entity := by
      intro row
      rw [← Filter.holds_rescoped (h.criteria f hcriteria) row q.entity, swap_entity hentity h]
    show keepThat (fun row => (f.rescoped scope name).holds row q.entity) _ = _
    rw [keepThat_map, funext hholds]

end Query

end EntityQuery
