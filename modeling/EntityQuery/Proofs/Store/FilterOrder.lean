import EntityQuery.Proofs.Store.AlikeCriteria
import EntityQuery.Proofs.Store.Rejections

/-!
# The order of the children of filters

A node evaluates all its conditions and nested filters before it joins their outcomes, so nothing is passed over: a
filter has an outcome when all conditions of its tree are well sized and fails otherwise, on every row. Junctions do not
see the order of outcomes. So the children of nodes can be put in any order, at any depth; at most another condition is
the first one of a wrong size.

* `Filter.Reordered`, `Filter.Permuted`: trees that differ in the order of children;
* `Filter.failed_holds_iff`: when a filter fails;
* `Filter.Reordered.perm_accepted`, `Filter.Permuted.alike`: reordered trees have the same outcomes;
* `filter_order_does_not_count`: all of this, and what it means for answers.
-/

namespace EntityQuery

/-! ## Reordered trees -/

/-- A junction does not see the order of the outcomes. -/
theorem Junction.combine_perm (j : Junction) {xs ys : List Bool} (h : xs.Perm ys) : j.combine xs = j.combine ys := by
  cases j with
  | and => exact h.all_eq
  | or =>
    show (xs.isEmpty || xs.any id) = (ys.isEmpty || ys.any id)
    rw [h.any_eq, h.isEmpty_eq]

namespace Filter

/-- The filters of one list are those of the other in some order, each with its conditions in some order and with its
nested filters reordered. -/
inductive Reordered : List Filter → List Filter → Prop where
  | nil : Reordered [] []
  | cons (f : Filter) {conditions : List Condition} {below rest rest' : List Filter}
    (hconditions : f.conditions.Perm conditions) (hbelow : Reordered f.filters below) (hrest : Reordered rest rest') :
    Reordered (f :: rest) ({ f with conditions, filters := below } :: rest')
  | swap (f g : Filter) (rest : List Filter) : Reordered (f :: g :: rest) (g :: f :: rest)
  | trans {fs gs ks : List Filter} (h : Reordered fs gs) (h' : Reordered gs ks) : Reordered fs ks

/-- The second tree is the first one with the children of some nodes in another order. -/
structure Permuted (f g : Filter) : Prop where
  junction : g.junction = f.junction
  conditions : f.conditions.Perm g.conditions
  filters : Reordered f.filters g.filters

theorem Permuted.reordered {f g : Filter} (h : f.Permuted g) : Reordered [f] [g] := by
  obtain ⟨junction, conditions, filters⟩ := g
  obtain ⟨rfl, hconditions, hfilters⟩ := h
  exact .cons f hconditions hfilters .nil

theorem Reordered.refl : ∀ fs : List Filter, Reordered fs fs
  | [] => .nil
  | ⟨junction, conditions, filters⟩ :: rest =>
    .cons ⟨junction, conditions, filters⟩ (.refl _) (refl filters) (refl rest)

/-- Any order of a list will do. -/
theorem Reordered.of_perm {fs gs : List Filter} (h : fs.Perm gs) : Reordered fs gs := by
  induction h with
  | nil => exact .nil
  | cons f _ ih =>
    cases f
    exact .cons _ (.refl _) (.refl _) ih
  | swap f g rest => exact .swap g f rest
  | trans _ _ ih ih' => exact ih.trans ih'

theorem allConditions_eq (f : Filter) : f.allConditions = f.conditions ++ allConditionsOf f.filters := by
  cases f
  rfl

/-- **Reordered trees have the same conditions.** -/
theorem Reordered.perm_allConditions {fs gs : List Filter} (h : Reordered fs gs) :
    (allConditionsOf fs).Perm (allConditionsOf gs) := by
  induction h with
  | nil => exact .nil
  | cons f hconditions _ _ ihbelow ihrest =>
    rw [allConditionsOf, allConditionsOf, allConditions_eq, allConditions_eq]
    exact (hconditions.append ihbelow).append ihrest
  | swap f g rest =>
    simp only [allConditionsOf, ← List.append_assoc]
    exact List.perm_append_comm.append_right _
  | trans _ _ ih ih' => exact ih.trans ih'

theorem Permuted.wellSized_iff {f g : Filter} (h : f.Permuted g) : f.WellSized ↔ g.WellSized := by
  have hperm := h.reordered.perm_allConditions
  simp only [allConditionsOf, List.append_nil] at hperm
  unfold WellSized
  simp only [hperm.mem_iff]

/-! ## Outcomes -/

/-- A filter fails when it is not well sized, whatever the row. -/
theorem failed_holds_iff {f : Filter} {row : Row} {scope : String} : Failed (f.holds row scope) ↔ ¬ f.WellSized := by
  constructor
  · intro h hsized
    exact not_failed_iff.mpr (hsized.holds_ok row scope) h
  · intro h
    obtain ⟨c, hc⟩ := FirstWrong.exists_of_not_wellSized h
    exact ⟨c.fault, f.holds_of_firstWrong hc row scope⟩

theorem conditionOutcomes_eq_ok {conditions : List Condition} (h : ∀ c ∈ conditions, c.WellSized) (row : Row)
    (scope : String) :
    conditionOutcomes row scope conditions = .ok (conditions.map fun c => accepted (c.holds row scope)) := by
  induction conditions with
  | nil => rfl
  | cons c rest ih =>
    rw [List.forall_mem_cons] at h
    obtain ⟨outcome, hc⟩ := h.1.holds_ok row scope
    rw [conditionOutcomes, hc, ih h.2, List.map_cons, hc]
    rfl

theorem outcomes_eq_ok {fs : List Filter} (h : ∀ c ∈ allConditionsOf fs, c.WellSized) (row : Row) (scope : String) :
    outcomes fs row scope = .ok (fs.map fun f => accepted (f.holds row scope)) := by
  induction fs with
  | nil => rfl
  | cons f rest ih =>
    rw [allConditionsOf, List.forall_mem_append] at h
    obtain ⟨outcome, hf⟩ := WellSized.holds_ok (f := f) h.1 row scope
    rw [outcomes, hf, ih h.2, List.map_cons, hf]
    rfl

/-- A well-sized node joins what its children accept. -/
theorem WellSized.holds_eq {f : Filter} (h : f.WellSized) (row : Row) (scope : String) : f.holds row scope =
    .ok (f.junction.combine ((f.conditions.map fun c => accepted (c.holds row scope)) ++
      f.filters.map fun g => accepted (g.holds row scope))) := by
  obtain ⟨junction, conditions, filters⟩ := f
  rw [WellSized, allConditions, List.forall_mem_append] at h
  rw [holds, conditionOutcomes_eq_ok h.1, outcomes_eq_ok h.2]
  rfl

/-- **Of reordered lists of well-sized filters as many accept a row.** -/
theorem Reordered.perm_accepted {fs gs : List Filter} (h : Reordered fs gs)
    (hsized : ∀ c ∈ allConditionsOf fs, c.WellSized) (row : Row) (scope : String) :
    (fs.map fun f => accepted (f.holds row scope)).Perm (gs.map fun g => accepted (g.holds row scope)) := by
  induction h with
  | nil => exact .nil
  | @cons f conditions below rest rest' hconditions hbelow _ ihbelow ihrest =>
    set g : Filter := { f with conditions, filters := below }
    have hpermuted : f.Permuted g := ⟨rfl, hconditions, hbelow⟩
    rw [allConditionsOf, List.forall_mem_append] at hsized
    have hf : f.WellSized := hsized.1
    have hg : g.WellSized := hpermuted.wellSized_iff.mp hf
    have hnested : ∀ c ∈ allConditionsOf f.filters, c.WellSized := by
      intro c hc
      rw [WellSized, allConditions_eq] at hf
      exact hf c (List.mem_append_right _ hc)
    have hsame : f.holds row scope = g.holds row scope := by
      rw [hf.holds_eq, hg.holds_eq]
      exact congrArg Except.ok (f.junction.combine_perm ((hconditions.map _).append (ihbelow hnested)))
    rw [List.map_cons, List.map_cons, hsame]
    exact (ihrest hsized.2).cons _
  | swap f g rest => exact .swap _ _ _
  | trans h _ ih ih' =>
    exact (ih hsized).trans (ih' fun c hc => hsized c (h.perm_allConditions.mem_iff.mpr hc))

/-- **Reordered filters end alike on every row.** -/
theorem Permuted.alike {f g : Filter} (h : f.Permuted g) : f.Alike g := by
  intro row scope outcome
  by_cases hf : f.WellSized
  · have hsized : ∀ c ∈ allConditionsOf [f], c.WellSized := by
      rwa [allConditionsOf, allConditionsOf, List.append_nil]
    have haccepted : accepted (f.holds row scope) = accepted (g.holds row scope) :=
      List.singleton_perm_singleton.mp (h.reordered.perm_accepted hsized row scope)
    obtain ⟨first, hfirst⟩ := hf.holds_ok row scope
    obtain ⟨second, hsecond⟩ := (h.wellSized_iff.mp hf).holds_ok row scope
    rw [hfirst, hsecond] at haccepted ⊢
    obtain rfl : first = second := haccepted
    exact .rfl
  · obtain ⟨e, he⟩ := failed_holds_iff.mpr hf
    obtain ⟨e', he'⟩ := failed_holds_iff.mpr (mt h.wellSized_iff.mpr hf)
    rw [he, he']
    exact ⟨nofun, nofun⟩

end Filter

/-! ## Answers -/

/-- **The order of the children of filters does not count.** A filter whose conditions and nested filters are put in
another order, at any depth, accepts and refuses the same rows and fails on the same rows; these are all rows or none.
So queries that differ in the order of the children of their criteria, of those of links among them, have the same
answer or fail both. -/
theorem filter_order_does_not_count :
    (∀ f g : Filter, f.Permuted g → ∀ (row : Row) (scope : String),
      (f.holds row scope = .ok true ↔ g.holds row scope = .ok true) ∧
      (f.holds row scope = .ok false ↔ g.holds row scope = .ok false) ∧
      (Failed (f.holds row scope) ↔ Failed (g.holds row scope))) ∧
    (∀ (f : Filter) (row row' : Row) (scope scope' : String),
      Failed (f.holds row scope) ↔ Failed (f.holds row' scope')) ∧
    (∀ q q' : Query, q.CriteriaRelated Filter.Permuted q' → ∀ s : Store,
      (∃ page, (Store.backend q s).1 = .ok page ∧ (Store.backend q' s).1 = .ok page) ∨
        (Failed (Store.backend q s).1 ∧ Failed (Store.backend q' s).1)) := by
  refine ⟨fun f g h row scope => ?_, fun f row row' scope scope' => ?_, fun q q' h s => ?_⟩
  · have halike := h.alike row scope
    exact ⟨halike true, halike false, halike.failed_iff⟩
  · rw [Filter.failed_holds_iff, Filter.failed_holds_iff]
  · exact (h.answer_alike (fun f g hpermuted => hpermuted.alike) s.records).cases

/-- Criteria of an account and of its contact, both with their children in another order at two depths, and an `or` that
has a condition with a wrong number of values. -/
theorem filter_order_does_not_count_nested :
    let named : Condition := { attributeName := "name", operator := .notNull }
    let oslo : Condition := { attributeName := "city", values := [.string "Oslo"] }
    let rome : Condition := { attributeName := "city", values := [.string "Rome"] }
    let range : Condition := { attributeName := "revenue", operator := .between, values := [.null] }
    let cities : Filter := { junction := .or, conditions := [oslo, rome] }
    let cities' : Filter := { junction := .or, conditions := [rome, oslo] }
    let others : Filter := { conditions := [named] }
    let f : Filter := { conditions := [named, oslo], filters := [cities, others] }
    let g : Filter := { conditions := [oslo, named], filters := [others, cities'] }
    let wrong : Filter := { junction := .or, conditions := [named, range] }
    let wrong' : Filter := { junction := .or, conditions := [range, named] }
    let record (entity : String) : Record :=
      { logicalName := entity, attributes := .ofList [("city", .string "Oslo"), ("name", .string "Acme")] }
    let row : Row := .single "account" (record "account")
    let contact (criteria : Filter) : Link :=
      { fromEntity := some "account", fromAttribute := some "name", toEntity := some "contact",
        toAttribute := some "name", criteria := some criteria }
    let query (root criteria : Filter) : Query :=
      { entity := "account", criteria := some root, links := [contact criteria] }
    let s : Store := { records := [record "account", record "contact"] }
    f.Permuted g ∧ f.holds row "account" = .ok true ∧ g.holds row "account" = .ok true ∧
      wrong.Permuted wrong' ∧ Failed (wrong.holds row "account") ∧ Failed (wrong'.holds row "account") ∧
      (query f f).CriteriaRelated Filter.Permuted (query g g) ∧
      ∃ page, (Store.backend (query f f) s).1 = .ok page ∧ (Store.backend (query g g) s).1 = .ok page := by
  intro named oslo rome range cities cities' others f g wrong wrong' record row contact query s
  have hpermuted : f.Permuted g := by
    refine ⟨rfl, .swap _ _ _, ?_⟩
    exact .trans (.of_perm (.swap others cities []))
      (.cons others (.refl _) .nil (.cons cities (.swap _ _ _) .nil .nil))
  have hwrong : wrong.Permuted wrong' := ⟨rfl, .swap _ _ _, .nil⟩
  have hrelated : (query f f).CriteriaRelated Filter.Permuted (query g g) :=
    ⟨rfl, .some hpermuted, .cons (contact f) (.some hpermuted) .nil .nil⟩
  have htrue : f.holds row "account" = .ok true := rfl
  have hfailed : Failed (wrong.holds row "account") := ⟨_, rfl⟩
  have hanswer : ∃ page, (query f f).answer s.records = .ok page :=
    ⟨_, Query.answer_eq_ok_iff.mpr ⟨rfl, _, _, rfl, rfl, rfl⟩⟩
  obtain ⟨hfilters, -, hqueries⟩ := filter_order_does_not_count
  refine ⟨hpermuted, htrue, (hfilters f g hpermuted row "account").1.mp htrue, hwrong, hfailed,
    (hfilters wrong wrong' hwrong row "account").2.2.mp hfailed, hrelated, ?_⟩
  exact (hqueries _ _ hrelated s).resolve_right fun h => not_failed_iff.mpr hanswer h.1

end EntityQuery
