import EntityQuery.Proofs.Building.Rearrangements

/-!
# Scripts of queries

Every query can be built from an empty one. Its script is read off it: for each part the steps that give the part its
content, with the scripts of the conditions, filters, links and sort keys below. As every step works on one part, the
script is right when it is right for each part by itself.

* `Partwise.part_flatMap`: a script can be looked at part by part;
* `Filter.ofSteps_script`, `Link.ofSteps_script`, `Query.build_script`: scripts build what they were read off;
* `FilterStep.depth_ofSteps`: a filter is as deep as the steps that build it are nested;
* `every_query_has_a_script`: all of this for queries, and that scripts can be rearranged.
-/

namespace EntityQuery

/-! ## Scripts by parts -/

section Parts

variable {σ ι κ : Type} {γ : κ → Type} [DecidableEq κ] {apply : σ → ι → σ} {part : (p : κ) → σ → γ p}
  {addresses : ι → κ} {replaces : ι → Bool} {script : κ → List ι} {parts : List κ} {p : κ}

/-- Of a script made part by part, the steps that address a part are those made for it. -/
theorem filter_flatMap_script (haddresses : ∀ p, ∀ step ∈ script p, addresses step = p) (hnodup : parts.Nodup)
    (hp : p ∈ parts) : (parts.flatMap script).filter (addresses · = p) = script p := by
  have hfilter : ∀ q, (script q).filter (addresses · = p) = if q = p then script p else [] := by
    intro q
    split_ifs with hq
    · subst hq
      exact List.filter_eq_self.mpr fun step hstep => decide_eq_true (haddresses q step hstep)
    · refine List.filter_eq_nil_iff.mpr fun step hstep => ?_
      rw [haddresses q step hstep, decide_eq_true_eq]
      exact hq
  induction parts with
  | nil => cases hp
  | cons q rest ih =>
    rw [List.flatMap_cons, List.filter_append, hfilter]
    obtain ⟨hq, hrest⟩ := List.nodup_cons.mp hnodup
    by_cases hqp : q = p
    · subst hqp
      have hnone : (rest.flatMap script).filter (addresses · = q) = [] := by
        refine List.filter_eq_nil_iff.mpr fun step hstep => ?_
        obtain ⟨r, hr, hstep⟩ := List.mem_flatMap.mp hstep
        rw [haddresses r step hstep, decide_eq_true_eq]
        rintro rfl
        exact hq hr
      rw [if_pos rfl, hnone, List.append_nil]
    · rw [if_neg hqp, List.nil_append]
      exact ih hrest ((List.mem_cons.mp hp).resolve_left fun h => hqp h.symm)

/-- **A script made part by part can be looked at part by part.** -/
theorem Partwise.part_flatMap (h : Partwise apply part addresses)
    (haddresses : ∀ p, ∀ step ∈ script p, addresses step = p) (hnodup : parts.Nodup) (hp : p ∈ parts) (s : σ) :
    part p ((parts.flatMap script).foldl apply s) = part p ((script p).foldl apply s) := by
  rw [h.part_foldl_filter, filter_flatMap_script haddresses hnodup hp]

/-- A script made part by part sets what it sets once, when it does so for each part. -/
theorem setsOnce_flatMap (haddresses : ∀ p, ∀ step ∈ script p, addresses step = p) (hnodup : parts.Nodup)
    (honce : ∀ p, ∀ step ∈ script p, replaces step = true → (script p).length = 1) :
    SetsOnce addresses replaces (parts.flatMap script) := by
  intro step hstep hreplaces
  obtain ⟨p, hp, hmem⟩ := List.mem_flatMap.mp hstep
  obtain rfl : addresses step = p := haddresses p step hmem
  rw [filter_flatMap_script haddresses hnodup hp]
  exact honce _ step hmem hreplaces

/-- Steps that append an item each append their items in order. -/
theorem foldl_appends {α : Type} (items : σ → List α) {step : α → ι} {xs : List α}
    (h : ∀ s, ∀ x ∈ xs, items (apply s (step x)) = items s ++ [x]) (s : σ) :
    items ((xs.map step).foldl apply s) = items s ++ xs := by
  induction xs generalizing s with
  | nil => simp
  | cons x rest ih =>
    have hrest := ih (fun s y hy => h s y (List.mem_cons_of_mem x hy)) (apply s (step x))
    rw [List.map_cons, List.foldl_cons, hrest, h s x List.mem_cons_self, List.append_assoc, List.singleton_append]

end Parts

/-! ## Conditions and sort keys -/

/-- The steps that build a condition. -/
def Condition.script (c : Condition) : List ConditionStep :=
  (c.scope.map .scope).toList ++ [.attributeName c.attributeName, .operator c.operator, .values c.values]

theorem Condition.ofSteps_script (c : Condition) : ofSteps c.script = c := by
  obtain ⟨scope, attributeName, operator, values⟩ := c
  cases scope <;> rfl

/-- The steps that build a sort key. -/
def SortKey.script (k : SortKey) : List SortStep := [.attributeName k.attributeName, .direction k.direction]

theorem SortKey.ofSteps_script (k : SortKey) : ofSteps k.script = k := rfl

/-! ## Filters -/

/-- Every part of a filter. -/
def FilterPart.all : List FilterPart := [.conditions, .filters, .junction]

namespace Filter

/-- The steps that give a part of a filter its content, with those for the nested filters. -/
def scriptFor (f : Filter) (nested : List FilterStep) : FilterPart → List FilterStep
  | .conditions => f.conditions.map fun c => .condition c.script
  | .filters => nested
  | .junction => [.junction f.junction]

mutual

/-- The steps that build a filter. -/
def script : Filter → List FilterStep
  | ⟨junction, conditions, filters⟩ =>
    FilterPart.all.flatMap (scriptFor ⟨junction, conditions, filters⟩ (scriptOfAll filters))

/-- The steps that append the filters of a list. -/
def scriptOfAll : List Filter → List FilterStep
  | [] => []
  | f :: rest => .filter (script f) :: scriptOfAll rest

end

theorem scriptOfAll_eq_map (filters : List Filter) : scriptOfAll filters = filters.map fun f => .filter f.script := by
  induction filters with
  | nil => rfl
  | cons f rest ih => rw [scriptOfAll, ih, List.map_cons]

theorem script_eq (f : Filter) :
    f.script = FilterPart.all.flatMap (f.scriptFor (f.filters.map fun g => .filter g.script)) := by
  cases f
  rw [script, scriptOfAll_eq_map]

theorem addresses_scriptFor (f : Filter) (p : FilterPart) :
    ∀ step ∈ f.scriptFor (f.filters.map fun g => .filter g.script) p, step.addresses = p := by
  intro step hstep
  cases p with
  | junction =>
    obtain rfl := List.mem_singleton.mp hstep
    rfl
  | conditions | filters =>
    obtain ⟨_, -, rfl⟩ := List.mem_map.mp hstep
    rfl

/-- What a filter is built of is set once. -/
theorem setsOnce_script (f : Filter) : SetsOnce FilterStep.addresses FilterStep.replaces f.script := by
  rw [script_eq]
  refine setsOnce_flatMap f.addresses_scriptFor (by decide) fun p step hstep hreplaces => ?_
  cases p with
  | junction => rfl
  | conditions | filters =>
    obtain ⟨_, -, rfl⟩ := List.mem_map.mp hstep
    cases hreplaces

mutual

/-- **The script of a filter builds the filter.** -/
theorem ofSteps_script : ∀ f : Filter, ofSteps f.script = f
  | ⟨junction, conditions, filters⟩ => by
    refine eq_of_parts fun p => ?_
    rw [ofSteps, FilterStep.applyAll_eq_foldl, script_eq, FilterStep.partwise.part_flatMap (addresses_scriptFor _)
      (by decide) (by cases p <;> decide)]
    cases p with
    | junction => rfl
    | conditions =>
      exact foldl_appends Filter.conditions (fun f c _ => congrArg (f.conditions ++ [·]) c.ofSteps_script) _
    | filters =>
      exact foldl_appends Filter.filters
        (fun f g hg => congrArg (f.filters ++ [·]) (ofSteps_script_of_mem filters g hg)) _

theorem ofSteps_script_of_mem : ∀ filters : List Filter, ∀ f ∈ filters, ofSteps f.script = f
  | f :: rest, g, hg => by
    rcases List.mem_cons.mp hg with heq | hg
    · exact heq ▸ ofSteps_script f
    · exact ofSteps_script_of_mem rest g hg

end

end Filter

/-! ## Links -/

/-- The step that gives a link its columns. -/
def LinkStep.ofColumns : Columns → LinkStep
  | .all => .allColumns
  | .only set => .columns set.names

theorem LinkStep.addresses_ofColumns (c : Columns) : (ofColumns c).addresses = .columns := by
  cases c <;> rfl

/-- Every part of a link. -/
def LinkPart.all : List LinkPart :=
  [.key .fromEntity, .key .fromAttribute, .key .toEntity, .key .toAttribute, .aliasName, .kind, .columns, .criteria,
    .links]

namespace Link

/-- The steps that give a part of a link its content, with those for the nested links. -/
def scriptFor (l : Link) (nested : List LinkStep) : LinkPart → List LinkStep
  | .key k => ((l.key? k).map (.key k)).toList
  | .aliasName => (l.aliasName.map .aliasName).toList
  | .kind => [.kind l.kind]
  | .columns => [.ofColumns l.columns]
  | .criteria => (l.criteria.map fun f => .criteria f.script).toList
  | .links => nested

mutual

/-- The steps that build a link. -/
def script : Link → List LinkStep
  | ⟨fromEntity, fromAttribute, toEntity, toAttribute, aliasName, kind, columns, criteria, links⟩ =>
    LinkPart.all.flatMap
      (scriptFor ⟨fromEntity, fromAttribute, toEntity, toAttribute, aliasName, kind, columns, criteria, links⟩
        (scriptOfAll links))

/-- The steps that append the links of a list. -/
def scriptOfAll : List Link → List LinkStep
  | [] => []
  | l :: rest => .link (script l) :: scriptOfAll rest

end

theorem scriptOfAll_eq_map (links : List Link) : scriptOfAll links = links.map fun l => .link l.script := by
  induction links with
  | nil => rfl
  | cons l rest ih => rw [scriptOfAll, ih, List.map_cons]

theorem script_eq (l : Link) :
    l.script = LinkPart.all.flatMap (l.scriptFor (l.links.map fun m => .link m.script)) := by
  cases l
  rw [script, scriptOfAll_eq_map]

theorem addresses_scriptFor (l : Link) (p : LinkPart) :
    ∀ step ∈ l.scriptFor (l.links.map fun m => .link m.script) p, step.addresses = p := by
  intro step hstep
  cases p with
  | key k | aliasName | criteria =>
    obtain ⟨_, -, rfl⟩ := Option.map_eq_some_iff.mp (Option.mem_toList.mp hstep)
    rfl
  | kind =>
    obtain rfl := List.mem_singleton.mp hstep
    rfl
  | columns =>
    obtain rfl := List.mem_singleton.mp hstep
    exact LinkStep.addresses_ofColumns l.columns
  | links =>
    obtain ⟨_, -, rfl⟩ := List.mem_map.mp hstep
    rfl

/-- What a link is built of is set once. -/
theorem setsOnce_script (l : Link) : SetsOnce LinkStep.addresses LinkStep.replaces l.script := by
  rw [script_eq]
  refine setsOnce_flatMap l.addresses_scriptFor (by decide) fun p step hstep hreplaces => ?_
  cases p with
  | key k | aliasName | criteria =>
    obtain ⟨_, hsome, -⟩ := Option.map_eq_some_iff.mp (Option.mem_toList.mp hstep)
    rw [scriptFor, hsome]
    rfl
  | kind | columns => rfl
  | links =>
    obtain ⟨_, -, rfl⟩ := List.mem_map.mp hstep
    cases hreplaces

/-- The steps for a part that a link joins by set it to its name, or leave it unset. -/
theorem key?_foldl (k : JoinKey) (name : Option String) :
    ((name.map (LinkStep.key k)).toList.foldl (fun l step => LinkStep.apply step l) {}).key? k = name := by
  cases name with
  | none => cases k <;> rfl
  | some name => exact LinkStep.key?_setKey {} k name

mutual

/-- **The script of a link builds the link.** -/
theorem ofSteps_script : ∀ l : Link, ofSteps l.script = l
  | ⟨fromEntity, fromAttribute, toEntity, toAttribute, aliasName, kind, columns, criteria, links⟩ => by
    refine eq_of_parts fun p => ?_
    rw [ofSteps, LinkStep.applyAll_eq_foldl, script_eq, LinkStep.partwise.part_flatMap (addresses_scriptFor _)
      (by decide) (by rcases p with ⟨⟨⟩⟩ | _ <;> decide)]
    cases p with
    | key k => exact key?_foldl k _
    | aliasName => cases aliasName <;> rfl
    | kind => rfl
    | columns =>
      cases columns with
      | all => rfl
      | only set => exact congrArg Columns.only set.ofList_names
    | criteria =>
      cases criteria with
      | none => rfl
      | some f => exact congrArg some f.ofSteps_script
    | links =>
      exact foldl_appends Link.links
        (fun l m hm => congrArg (l.links ++ [·]) (ofSteps_script_of_mem links m hm)) _

theorem ofSteps_script_of_mem : ∀ links : List Link, ∀ l ∈ links, ofSteps l.script = l
  | l :: rest, m, hm => by
    rcases List.mem_cons.mp hm with heq | hm
    · exact heq ▸ ofSteps_script l
    · exact ofSteps_script_of_mem rest m hm

end

end Link

/-! ## Queries -/

/-- The step that gives a query its columns. -/
def QueryStep.ofColumns : Columns → QueryStep
  | .all => .allColumns
  | .only set => .columns set.names

theorem QueryStep.addresses_ofColumns (c : Columns) : (ofColumns c).addresses = .columns := by
  cases c <;> rfl

/-- Every part of a query. -/
def QueryPart.all : List QueryPart := [.columns, .criteria, .links, .sortKeys, .paging, .top, .lock, .distinct]

namespace Query

/-- The steps that give a part of a query its content. -/
def scriptFor (q : Query) : QueryPart → List QueryStep
  | .columns => [.ofColumns q.columns]
  | .criteria => (q.criteria.map fun f => .criteria f.script).toList
  | .links => q.links.map fun l => .link l.script
  | .sortKeys => q.sortKeys.map fun k => .sortKey k.script
  | .paging => [.paging q.paging]
  | .top => [.top q.top]
  | .lock => [.lock !q.noLock]
  | .distinct => [.distinct q.distinct]

/-- The steps that build a query. -/
def script (q : Query) : List QueryStep := QueryPart.all.flatMap q.scriptFor

theorem addresses_scriptFor (q : Query) (p : QueryPart) : ∀ step ∈ q.scriptFor p, step.addresses = p := by
  intro step hstep
  cases p with
  | columns =>
    obtain rfl := List.mem_singleton.mp hstep
    exact QueryStep.addresses_ofColumns q.columns
  | criteria =>
    obtain ⟨_, -, rfl⟩ := Option.map_eq_some_iff.mp (Option.mem_toList.mp hstep)
    rfl
  | links | sortKeys =>
    obtain ⟨_, -, rfl⟩ := List.mem_map.mp hstep
    rfl
  | paging | top | lock | distinct =>
    obtain rfl := List.mem_singleton.mp hstep
    rfl

/-- **The script of a query builds the query** from an empty one for its entity. -/
theorem build_script (q : Query) : ({ entity := q.entity } : Query).build q.script = q := by
  obtain ⟨entity, columns, criteria, links, sortKeys, paging, top, distinct, noLock⟩ := q
  refine eq_of_parts (entity_build _ _) fun p => ?_
  rw [build, script, partwise.part_flatMap (addresses_scriptFor _) (by decide) (by cases p <;> decide)]
  cases p with
  | columns =>
    cases columns with
    | all => rfl
    | only set => exact congrArg Columns.only set.ofList_names
  | criteria =>
    cases criteria with
    | none => rfl
    | some f => exact congrArg some f.ofSteps_script
  | links => exact foldl_appends Query.links (fun q l _ => congrArg (q.links ++ [·]) l.ofSteps_script) _
  | sortKeys =>
    exact foldl_appends Query.sortKeys (fun q k _ => congrArg (q.sortKeys ++ [·]) k.ofSteps_script) _
  | paging | top | distinct => rfl
  | lock => exact Bool.not_not noLock

end Query

/-! ## The depth of filters -/

namespace Filter

theorem depthOfAll_append (fs gs : List Filter) : depthOfAll (fs ++ gs) = max (depthOfAll fs) (depthOfAll gs) := by
  induction fs with
  | nil => exact (Nat.zero_max _).symm
  | cons f rest ih => rw [List.cons_append, depthOfAll, depthOfAll, ih, Nat.max_assoc]

theorem depth_eq (f : Filter) : f.depth = depthOfAll f.filters + 1 := by
  cases f
  rfl

end Filter

namespace FilterStep

mutual

/-- How deep the filters of a step are nested. -/
def nesting : FilterStep → Nat
  | .condition _ => 0
  | .filter steps => nestingOfAll steps + 1
  | .junction _ => 0

/-- How deep the filters of the steps of a list are nested. -/
def nestingOfAll : List FilterStep → Nat
  | [] => 0
  | step :: rest => max (nesting step) (nestingOfAll rest)

end

mutual

theorem depthOfAll_apply : ∀ (step : FilterStep) (f : Filter),
    Filter.depthOfAll (step.apply f).filters = max (Filter.depthOfAll f.filters) step.nesting
  | .condition steps, f => (Nat.max_zero _).symm
  | .filter steps, f => by
    rw [apply, Filter.addNested, Filter.depthOfAll_append, Filter.depthOfAll, Filter.depthOfAll, Filter.depth_eq,
      depthOfAll_applyAll steps, nesting]
    simp [Filter.depthOfAll]
  | .junction j, f => (Nat.max_zero _).symm

theorem depthOfAll_applyAll : ∀ (steps : List FilterStep) (f : Filter),
    Filter.depthOfAll (applyAll steps f).filters = max (Filter.depthOfAll f.filters) (nestingOfAll steps)
  | [], f => (Nat.max_zero _).symm
  | step :: rest, f => by
    rw [applyAll, depthOfAll_applyAll rest, depthOfAll_apply step, nestingOfAll, Nat.max_assoc]

end

/-- **A filter is as deep as the steps that build it are nested.** -/
theorem depth_ofSteps (steps : List FilterStep) : (Filter.ofSteps steps).depth = (FilterStep.filter steps).nesting := by
  rw [Filter.depth_eq, Filter.ofSteps, depthOfAll_applyAll, nesting]
  simp [Filter.depthOfAll]

end FilterStep

/-! ## Scripts -/

/-- **Every query has a script that builds it**, and so has every filter and every link, at any depth. The steps of a
filter or of a link can be made in any other order in which conditions, nested filters and nested links stand as they did;
nothing in a script is set twice, so none of its steps is undone by that. The depth of a filter is that to which its
steps are nested. -/
theorem every_query_has_a_script :
    (∀ q : Query, ({ entity := q.entity } : Query).build q.script = q ∧
      ∀ steps, QueryStep.Rearranged q.script steps → ({ entity := q.entity } : Query).build steps = q) ∧
    (∀ f : Filter, Filter.ofSteps f.script = f ∧ SetsOnce FilterStep.addresses FilterStep.replaces f.script) ∧
    (∀ l : Link, Link.ofSteps l.script = l ∧ SetsOnce LinkStep.addresses LinkStep.replaces l.script) ∧
    (∀ steps steps', FilterStep.Rearranged steps steps' → Filter.ofSteps steps = Filter.ofSteps steps') ∧
    (∀ steps steps', LinkStep.Rearranged steps steps' → Link.ofSteps steps = Link.ofSteps steps') ∧
    (∀ steps, (Filter.ofSteps steps).depth = (FilterStep.filter steps).nesting) := by
  refine ⟨fun q => ⟨q.build_script, fun steps h => ?_⟩, fun f => ⟨f.ofSteps_script, f.setsOnce_script⟩,
    fun l => ⟨l.ofSteps_script, l.setsOnce_script⟩, fun _ _ h => h.ofSteps_eq, fun _ _ h => h.ofSteps_eq,
    FilterStep.depth_ofSteps⟩
  rw [← h.build_eq, q.build_script]

/-- The criteria of a query, a filter below them and a link, built in another order. -/
theorem every_query_has_a_script_reordered :
    let named : Condition := { attributeName := "name", operator := .notNull }
    let oslo : Condition := { scope := some "contact", attributeName := "city", values := [.string "Oslo"] }
    let below : Filter := { junction := .or, conditions := [oslo] }
    let f : Filter := { junction := .or, conditions := [named, oslo], filters := [below] }
    let l : Link :=
      { fromEntity := some "account", toEntity := some "contact", aliasName := some "c", columns := .all,
        criteria := some below, links := [{ kind := .leftOuter }] }
    let q : Query := { entity := "account", criteria := some f, links := [l], top := some 5, noLock := false }
    let below' : List FilterStep := below.script.reverse
    let f' : List FilterStep := [.filter below', .junction .or, .condition named.script, .condition oslo.script]
    let steps : List QueryStep :=
      [.columns [], .criteria f', .link l.script.reverse, .paging {}, .top (some 5), .lock true, .distinct false]
    QueryStep.Rearranged q.script steps ∧ ({ entity := "account" } : Query).build steps = q ∧
      FilterStep.Rearranged f.script f' ∧ Filter.ofSteps f' = f ∧ f.depth = 2 ∧
      LinkStep.Rearranged l.script l.script.reverse ∧ Link.ofSteps l.script.reverse = l := by
  intro named oslo below f l q below' f' steps
  have hbelow : FilterStep.Rearranged below.script below' := by
    refine .reordered ⟨below.setsOnce_script, (List.reverse_perm _).symm, fun p hp => ?_⟩
    cases p <;> rfl
  have hf : FilterStep.Rearranged f.script f' := by
    have houter : FilterStep.Rearranged f.script
        [.filter below.script, .junction .or, .condition named.script, .condition oslo.script] := by
      have hperm := List.perm_append_comm_assoc [FilterStep.condition named.script, .condition oslo.script]
        [.filter below.script, .junction .or] []
      refine .reordered ⟨f.setsOnce_script, hperm, fun p hp => ?_⟩
      cases p <;> rfl
    exact houter.trans (.filter hbelow [] _)
  have hl : LinkStep.Rearranged l.script l.script.reverse := by
    refine .reordered ⟨l.setsOnce_script, (List.reverse_perm _).symm, fun p hp => ?_⟩
    obtain rfl : p = .links := hp
    rfl
  have hsteps : QueryStep.Rearranged q.script steps :=
    .trans (.criteria hf [.columns []] _) (.link hl [.columns [], .criteria f'] _)
  obtain ⟨hquery, hfilter, hlink, hfilters, hlinks, hdepth⟩ := every_query_has_a_script
  refine ⟨hsteps, (hquery q).2 steps hsteps, hf, (hfilters _ _ hf).symm.trans (hfilter f).1, ?_, hl,
    (hlinks _ _ hl).symm.trans (hlink l).1⟩
  rw [← (hfilter f).1, hdepth]
  rfl

end EntityQuery
