import EntityQuery.Proofs.Building.Parts
import EntityQuery.Proofs.NameSet

/-!
# Rearranged steps

The steps that build a filter or a link address parts of it, as those of a query do. A step replaces the content of its
part, or it appends to it; naming columns adds to it in any order. So steps can be made in another order, when none is
replaced by another one and those that append to a part keep their order, in every filter and link of a query.

* `Reordered.part_foldl`: the parts do not change when steps are reordered;
* `FilterStep.Rearranged`, `LinkStep.Rearranged`, `QueryStep.Rearranged`: steps that are reordered at any depth;
* `FilterStep.Rearranged.ofSteps_eq`, `LinkStep.Rearranged.ofSteps_eq`, `QueryStep.Rearranged.build_eq`: they build
  the same.
-/

namespace EntityQuery

/-! ## Reordered steps -/

section Reordered

variable {σ ι κ : Type} {γ : κ → Type} [DecidableEq κ] {apply : σ → ι → σ} {part : (p : κ) → σ → γ p}
  {addresses : ι → κ} {replaces : ι → Bool} {ordered : κ → Prop} {p : κ} {step : ι} {steps steps' : List ι}

/-- A step that replaces what it addresses is the only one of the list to address it. -/
def SetsOnce (addresses : ι → κ) (replaces : ι → Bool) (steps : List ι) : Prop :=
  ∀ step ∈ steps, replaces step = true → (steps.filter (addresses · = addresses step)).length = 1

/-- The second list has the steps of the first one in another order. What is set is set once, and parts whose order counts
get their steps in the same order. -/
structure Reordered (addresses : ι → κ) (replaces : ι → Bool) (ordered : κ → Prop) (steps steps' : List ι) : Prop where
  once : SetsOnce addresses replaces steps
  perm : steps.Perm steps'
  order (p : κ) (hp : ordered p) : steps.filter (addresses · = p) = steps'.filter (addresses · = p)

/-- The only step that addresses a part is so in every order. -/
theorem SetsOnce.filter_eq (h : SetsOnce addresses replaces steps) (hperm : steps.Perm steps') (hstep : step ∈ steps)
    (hreplaces : replaces step = true) :
    steps.filter (addresses · = addresses step) = steps'.filter (addresses · = addresses step) := by
  obtain ⟨only, honly⟩ := List.length_eq_one_iff.mp (h step hstep hreplaces)
  have hfilter := hperm.filter (addresses · = addresses step)
  rw [honly] at hfilter
  rw [honly, List.perm_singleton.mp hfilter.symm]

/-- **A part does not change when steps are reordered**, if those that add to it in any order commute. -/
theorem Reordered.part_foldl (h : Reordered addresses replaces ordered steps steps')
    (hpart : Partwise apply part addresses)
    (hcomm : ∀ a b, replaces a = false → replaces b = false → addresses a = p → addresses b = p → ¬ ordered p →
      ∀ s, apply (apply s a) b = apply (apply s b) a) (s : σ) :
    part p (steps.foldl apply s) = part p (steps'.foldl apply s) := by
  by_cases hordered : ordered p
  · exact hpart.part_foldl rfl (h.order p hordered)
  · by_cases hset : ∃ step ∈ steps, addresses step = p ∧ replaces step = true
    · obtain ⟨step, hstep, rfl, hreplaces⟩ := hset
      exact hpart.part_foldl rfl (h.once.filter_eq h.perm hstep hreplaces)
    · have hadds : ∀ a ∈ steps, addresses a = p → replaces a = false := by
        intro a ha hp
        exact Bool.eq_false_iff.mpr fun hreplaces => hset ⟨a, ha, hp, hreplaces⟩
      exact hpart.part_foldl_of_perm h.perm
        (fun a ha b hb hpa hpb => hcomm a b (hadds a ha hpa) (hadds b hb hpb) hpa hpb hordered) s

end Reordered

/-! ## Filters -/

/-- The parts of a filter that steps address. -/
inductive FilterPart where
  | junction
  | conditions
  | filters
deriving DecidableEq

/-- What a part holds. -/
def FilterPart.Content : FilterPart → Type
  | .junction => Junction
  | .conditions => List Condition
  | .filters => List Filter

/-- Whether the order of the steps that address a part counts. -/
def FilterPart.IsOrdered : FilterPart → Prop
  | .junction => False
  | .conditions => True
  | .filters => True

/-- A part of a filter. -/
def Filter.part : (p : FilterPart) → Filter → p.Content
  | .junction, f => f.junction
  | .conditions, f => f.conditions
  | .filters, f => f.filters

namespace FilterStep

/-- The part that a step addresses. -/
def addresses : FilterStep → FilterPart
  | .condition _ => .conditions
  | .filter _ => .filters
  | .junction _ => .junction

/-- Whether a step replaces what it addresses. -/
def replaces : FilterStep → Bool
  | .condition _ => false
  | .filter _ => false
  | .junction _ => true

theorem applyAll_eq_foldl (steps : List FilterStep) (f : Filter) :
    applyAll steps f = steps.foldl (fun f step => step.apply f) f := by
  induction steps generalizing f with
  | nil => rfl
  | cons step rest ih => rw [applyAll, ih, List.foldl_cons]

theorem applyAll_append (steps more : List FilterStep) (f : Filter) :
    applyAll (steps ++ more) f = applyAll more (applyAll steps f) := by
  rw [applyAll_eq_foldl, applyAll_eq_foldl, applyAll_eq_foldl, List.foldl_append]

/-- **Every step in building a filter works on one part of it.** -/
theorem partwise : Partwise (fun f step => FilterStep.apply step f) Filter.part addresses where
  own := by
    intro f g step h
    cases step with
    | condition steps => exact congrArg (· ++ [Condition.ofSteps steps]) h
    | filter steps => exact congrArg (· ++ [Filter.ofSteps steps]) h
    | junction j => rfl
  other := by
    intro f step p h
    cases step <;> cases p <;> first | rfl | exact absurd rfl h

end FilterStep

/-- Filters with equal parts are equal. -/
theorem Filter.eq_of_parts {f g : Filter} (h : ∀ p, f.part p = g.part p) : f = g := by
  cases f
  cases g
  exact (Filter.mk.injEq ..).mpr ⟨h .junction, h .conditions, h .filters⟩

namespace FilterStep

/-- The steps of a list are reordered, those of a nested filter are rearranged, or both is done one after the other. -/
inductive Rearranged : List FilterStep → List FilterStep → Prop where
  | reordered {steps steps' : List FilterStep}
    (h : Reordered addresses replaces FilterPart.IsOrdered steps steps') : Rearranged steps steps'
  | filter {inner inner' : List FilterStep} (h : Rearranged inner inner') (before after : List FilterStep) :
    Rearranged (before ++ .filter inner :: after) (before ++ .filter inner' :: after)
  | trans {steps steps' steps'' : List FilterStep} (h : Rearranged steps steps') (h' : Rearranged steps' steps'') :
    Rearranged steps steps''

/-- **Rearranged steps build one filter.** -/
theorem Rearranged.ofSteps_eq {steps steps' : List FilterStep} (h : Rearranged steps steps') :
    Filter.ofSteps steps = Filter.ofSteps steps' := by
  induction h with
  | @reordered steps steps' h =>
    rw [Filter.ofSteps, Filter.ofSteps, applyAll_eq_foldl, applyAll_eq_foldl]
    refine Filter.eq_of_parts fun p => h.part_foldl partwise (fun a b ha hb hpa hpb hordered => ?_) _
    -- what does not replace appends to a part whose order counts
    cases a with
    | condition _ => exact absurd (hpa ▸ trivial) hordered
    | filter _ => exact absurd (hpa ▸ trivial) hordered
    | junction _ => cases ha
  | filter _ before after ih =>
    rw [Filter.ofSteps, Filter.ofSteps, applyAll_append, applyAll_append, applyAll, applyAll, apply, apply]
    rw [Filter.ofSteps, Filter.ofSteps] at ih
    rw [ih]
  | trans _ _ ih ih' => exact ih.trans ih'

end FilterStep

/-! ## Links -/

/-- The parts of a link that steps address. -/
inductive LinkPart where
  | key (k : JoinKey)
  | columns
  | criteria
  | links
  | aliasName
  | kind
deriving DecidableEq

/-- What a part holds. -/
def LinkPart.Content : LinkPart → Type
  | .key _ => Option String
  | .columns => Columns
  | .criteria => Option Filter
  | .links => List Link
  | .aliasName => Option String
  | .kind => JoinKind

/-- Whether the order of the steps that address a part counts. Columns are named in any order. -/
def LinkPart.IsOrdered (p : LinkPart) : Prop := p = .links

/-- One of the parts that a link joins by, if it is set. -/
def Link.key? (l : Link) : JoinKey → Option String
  | .fromEntity => l.fromEntity
  | .fromAttribute => l.fromAttribute
  | .toEntity => l.toEntity
  | .toAttribute => l.toAttribute

/-- A part of a link. -/
def Link.part : (p : LinkPart) → Link → p.Content
  | .key k, l => l.key? k
  | .columns, l => l.columns
  | .criteria, l => l.criteria
  | .links, l => l.links
  | .aliasName, l => l.aliasName
  | .kind, l => l.kind

/-- Links with equal parts are equal. -/
theorem Link.eq_of_parts {l m : Link} (h : ∀ p, l.part p = m.part p) : l = m := by
  cases l
  cases m
  exact (Link.mk.injEq ..).mpr ⟨h (.key .fromEntity), h (.key .fromAttribute), h (.key .toEntity), h (.key .toAttribute),
    h .aliasName, h .kind, h .columns, h .criteria, h .links⟩

namespace LinkStep

/-- The part that a step addresses. -/
def addresses : LinkStep → LinkPart
  | .key k _ => .key k
  | .columns _ => .columns
  | .allColumns => .columns
  | .criteria _ => .criteria
  | .link _ => .links
  | .aliasName _ => .aliasName
  | .kind _ => .kind

/-- Whether a step replaces what it addresses. -/
def replaces : LinkStep → Bool
  | .columns _ => false
  | .link _ => false
  | _ => true

theorem applyAll_eq_foldl (steps : List LinkStep) (l : Link) :
    applyAll steps l = steps.foldl (fun l step => step.apply l) l := by
  induction steps generalizing l with
  | nil => rfl
  | cons step rest ih => rw [applyAll, ih, List.foldl_cons]

theorem applyAll_append (steps more : List LinkStep) (l : Link) :
    applyAll (steps ++ more) l = applyAll more (applyAll steps l) := by
  rw [applyAll_eq_foldl, applyAll_eq_foldl, applyAll_eq_foldl, List.foldl_append]

theorem key?_setKey (l : Link) (k : JoinKey) (name : String) : (l.setKey k name).key? k = some name := by
  cases k <;> rfl

theorem part_setKey_of_ne (l : Link) {k : JoinKey} (name : String) {p : LinkPart} (h : .key k ≠ p) :
    (l.setKey k name).part p = l.part p := by
  cases p with
  | key k' =>
    cases k <;> cases k' <;> first | rfl | exact absurd rfl h
  | _ => cases k <;> rfl

/-- **Every step in building a link works on one part of it.** -/
theorem partwise : Partwise (fun l step => LinkStep.apply step l) Link.part addresses where
  own := by
    intro l m step h
    cases step with
    | key k name => exact (key?_setKey l k name).trans (key?_setKey m k name).symm
    | columns names => exact congrArg (Columns.add · names) h
    | allColumns => rfl
    | criteria steps => rfl
    | link steps => exact congrArg (· ++ [Link.ofSteps steps]) h
    | aliasName name => rfl
    | kind k => rfl
  other := by
    intro l step p h
    cases step with
    | key k name => exact part_setKey_of_ne l name h
    | _ => cases p <;> first | rfl | exact absurd rfl h

/-- The steps of a list are reordered, those of criteria or of a nested link are rearranged, or more than one of this is
done one after the other. -/
inductive Rearranged : List LinkStep → List LinkStep → Prop where
  | reordered {steps steps' : List LinkStep}
    (h : Reordered addresses replaces LinkPart.IsOrdered steps steps') : Rearranged steps steps'
  | criteria {inner inner' : List FilterStep} (h : FilterStep.Rearranged inner inner') (before after : List LinkStep) :
    Rearranged (before ++ .criteria inner :: after) (before ++ .criteria inner' :: after)
  | link {inner inner' : List LinkStep} (h : Rearranged inner inner') (before after : List LinkStep) :
    Rearranged (before ++ .link inner :: after) (before ++ .link inner' :: after)
  | trans {steps steps' steps'' : List LinkStep} (h : Rearranged steps steps') (h' : Rearranged steps' steps'') :
    Rearranged steps steps''

/-- **Rearranged steps build one link.** -/
theorem Rearranged.ofSteps_eq {steps steps' : List LinkStep} (h : Rearranged steps steps') :
    Link.ofSteps steps = Link.ofSteps steps' := by
  induction h with
  | @reordered steps steps' h =>
    rw [Link.ofSteps, Link.ofSteps, applyAll_eq_foldl, applyAll_eq_foldl]
    refine Link.eq_of_parts fun p => h.part_foldl partwise (fun a b ha hb hpa hpb hordered l => ?_) _
    -- of the steps that do not replace, only those that name columns may change places
    cases a with
    | columns names =>
      cases b with
      | columns more => exact congrArg (fun c => { l with columns := c }) (l.columns.add_comm names more)
      | link _ => exact absurd hpb.symm hordered
      | _ => cases hb
    | link _ => exact absurd hpa.symm hordered
    | _ => cases ha
  | criteria h before after =>
    rw [Link.ofSteps, Link.ofSteps, applyAll_append, applyAll_append, applyAll, applyAll, apply, apply, h.ofSteps_eq]
  | link _ before after ih =>
    rw [Link.ofSteps, Link.ofSteps, applyAll_append, applyAll_append, applyAll, applyAll, apply, apply]
    rw [Link.ofSteps, Link.ofSteps] at ih
    rw [ih]
  | trans _ _ ih ih' => exact ih.trans ih'

end LinkStep

/-! ## Queries -/

namespace QueryStep

/-- The steps of filters and links that are part of the steps of a list are rearranged. -/
inductive Rearranged : List QueryStep → List QueryStep → Prop where
  | refl (steps : List QueryStep) : Rearranged steps steps
  | criteria {inner inner' : List FilterStep} (h : FilterStep.Rearranged inner inner') (before after : List QueryStep) :
    Rearranged (before ++ .criteria inner :: after) (before ++ .criteria inner' :: after)
  | restrict {inner inner' : List FilterStep} (h : FilterStep.Rearranged inner inner') (before after : List QueryStep) :
    Rearranged (before ++ .restrict inner :: after) (before ++ .restrict inner' :: after)
  | link {inner inner' : List LinkStep} (h : LinkStep.Rearranged inner inner') (before after : List QueryStep) :
    Rearranged (before ++ .link inner :: after) (before ++ .link inner' :: after)
  | trans {steps steps' steps'' : List QueryStep} (h : Rearranged steps steps') (h' : Rearranged steps' steps'') :
    Rearranged steps steps''

/-- **Rearranged steps build one query.** -/
theorem Rearranged.build_eq {steps steps' : List QueryStep} (h : Rearranged steps steps') (q : Query) :
    q.build steps = q.build steps' := by
  induction h with
  | refl steps => rfl
  | criteria h before after | restrict h before after | link h before after =>
    rw [Query.build, Query.build, List.foldl_append, List.foldl_append, List.foldl_cons, List.foldl_cons, apply, apply,
      h.ofSteps_eq]
  | trans _ _ ih ih' => exact ih.trans ih'

end QueryStep

end EntityQuery
