import EntityQuery.Query.Fingerprint
import EntityQuery.Query.Steps

/-!
# Parts of queries and the steps that address them

Every step in building a query addresses one part of it. What the step makes of its part depends on this part alone, and
all other parts stay as they are. So each part of the built query comes from the steps that address it, in their order,
and steps that address different parts can be interleaved in any way.

* `Partwise`: steps that work on one part each;
* `Partwise.part_foldl`: a part depends on where it started and on the steps that address it;
* `Partwise.part_foldl_of_perm`: the order of steps that commute does not count;
* `Query.interleaved_steps_build_alike`: what this says of queries, their fingerprints and cache keys.
-/

namespace EntityQuery

/-! ## Steps on parts -/

/-- Each step addresses one part of a state. -/
structure Partwise {σ ι κ : Type} {γ : κ → Type} (apply : σ → ι → σ) (part : (p : κ) → σ → γ p) (addresses : ι → κ) :
    Prop where
  /-- What a step makes of its part depends on this part alone. -/
  own {s t : σ} (step : ι) (h : part (addresses step) s = part (addresses step) t) :
    part (addresses step) (apply s step) = part (addresses step) (apply t step)
  /-- The other parts stay as they are. -/
  other (s : σ) {step : ι} {p : κ} (h : addresses step ≠ p) : part p (apply s step) = part p s

namespace Partwise

variable {σ ι κ : Type} {γ : κ → Type} [DecidableEq κ] {apply : σ → ι → σ} {part : (p : κ) → σ → γ p}
  {addresses : ι → κ} {s t : σ} {p : κ} {steps steps' : List ι}

theorem part_apply_congr (h : Partwise apply part addresses) (step : ι) (hpart : part p s = part p t) :
    part p (apply s step) = part p (apply t step) := by
  by_cases hp : addresses step = p
  · subst hp
    exact h.own step hpart
  · rw [h.other s hp, h.other t hp, hpart]

theorem part_foldl_congr (h : Partwise apply part addresses) (steps : List ι) (hpart : part p s = part p t) :
    part p (steps.foldl apply s) = part p (steps.foldl apply t) := by
  induction steps generalizing s t with
  | nil => exact hpart
  | cons step rest ih => exact ih (h.part_apply_congr step hpart)

/-- Steps that address other parts can be left out. -/
theorem part_foldl_filter (h : Partwise apply part addresses) (p : κ) (steps : List ι) (s : σ) :
    part p (steps.foldl apply s) = part p ((steps.filter (addresses · = p)).foldl apply s) := by
  induction steps generalizing s with
  | nil => rfl
  | cons step rest ih =>
    rw [List.foldl_cons, List.filter_cons]
    by_cases hp : addresses step = p
    · rw [if_pos (decide_eq_true hp), List.foldl_cons]
      exact ih (apply s step)
    · rw [if_neg (by simpa using hp), ← ih s]
      exact h.part_foldl_congr rest (h.other s hp)

/-- **A part depends on where it started and on the steps that address it.** -/
theorem part_foldl (h : Partwise apply part addresses) (hpart : part p s = part p t)
    (hsteps : steps.filter (addresses · = p) = steps'.filter (addresses · = p)) :
    part p (steps.foldl apply s) = part p (steps'.foldl apply t) := by
  rw [h.part_foldl_filter, h.part_foldl_filter p steps', hsteps]
  exact h.part_foldl_congr _ hpart

/-- **The order of steps that commute does not count.** -/
theorem part_foldl_of_perm (h : Partwise apply part addresses) (hperm : steps.Perm steps')
    (hcomm : ∀ a ∈ steps, ∀ b ∈ steps, addresses a = p → addresses b = p →
      ∀ s, apply (apply s a) b = apply (apply s b) a) (s : σ) :
    part p (steps.foldl apply s) = part p (steps'.foldl apply s) := by
  rw [h.part_foldl_filter, h.part_foldl_filter p steps']
  refine congrArg (part p) ((hperm.filter _).foldl_eq' (fun a ha b hb s => ?_) s)
  obtain ⟨ha, hpa⟩ := List.mem_filter.mp ha
  obtain ⟨hb, hpb⟩ := List.mem_filter.mp hb
  exact hcomm a ha b hb (of_decide_eq_true hpa) (of_decide_eq_true hpb) s

end Partwise

/-! ## Parts of queries -/

/-- The parts of a query that steps address. -/
inductive QueryPart where
  | columns
  | criteria
  | links
  | sortKeys
  | paging
  | top
  | lock
  | distinct
deriving DecidableEq

/-- What a part holds. -/
def QueryPart.Content : QueryPart → Type
  | .columns => Columns
  | .criteria => Option Filter
  | .links => List Link
  | .sortKeys => List SortKey
  | .paging => Paging
  | .top => Option UInt32
  | .lock => Bool
  | .distinct => Bool

/-- The part that a step addresses. -/
def QueryStep.addresses : QueryStep → QueryPart
  | .columns _ => .columns
  | .allColumns => .columns
  | .criteria _ => .criteria
  | .restrict _ => .criteria
  | .link _ => .links
  | .sortKey _ => .sortKeys
  | .top _ => .top
  | .lock _ => .lock
  | .distinct _ => .distinct
  | .buildPaging _ => .paging
  | .paging _ => .paging
  | .wantsTotal _ => .paging

namespace Query

/-- A part of a query. -/
def part : (p : QueryPart) → Query → p.Content
  | .columns, q => q.columns
  | .criteria, q => q.criteria
  | .links, q => q.links
  | .sortKeys, q => q.sortKeys
  | .paging, q => q.paging
  | .top, q => q.top
  | .lock, q => q.noLock
  | .distinct, q => q.distinct

variable {q r : Query}

/-- Queries for one entity with equal parts are equal. -/
theorem eq_of_parts (hentity : q.entity = r.entity) (h : ∀ p, q.part p = r.part p) : q = r := by
  cases q
  cases r
  exact (Query.mk.injEq ..).mpr ⟨hentity, h .columns, h .criteria, h .links, h .sortKeys, h .paging, h .top, h .distinct,
    h .lock⟩

theorem criteria_restrict_congr (added : Filter) (h : q.criteria = r.criteria) :
    (q.restrict added).criteria = (r.restrict added).criteria := by
  unfold restrict
  rw [h]

/-- **Every step in building a query works on one part of it.** -/
theorem partwise : Partwise QueryStep.apply part QueryStep.addresses where
  own := by
    intro q r step h
    cases step with
    | columns names => exact congrArg (Columns.add · names) h
    | allColumns => rfl
    | criteria steps => rfl
    | restrict steps => exact criteria_restrict_congr (Filter.ofSteps steps) h
    | link steps => exact congrArg (· ++ [Link.ofSteps steps]) h
    | sortKey steps => exact congrArg (· ++ [SortKey.ofSteps steps]) h
    | top count => rfl
    | lock locked => rfl
    | distinct once => rfl
    | buildPaging steps => rfl
    | paging p => rfl
    | wantsTotal wanted => exact congrArg (fun p : Paging => { p with wantsTotal := wanted }) h
  other := by
    intro q step p h
    cases step <;> cases p <;> first | rfl | exact absurd rfl h

theorem entity_apply (q : Query) (step : QueryStep) : (step.apply q).entity = q.entity := by
  cases step <;> rfl

theorem entity_build (q : Query) (steps : List QueryStep) : (q.build steps).entity = q.entity := by
  induction steps generalizing q with
  | nil => rfl
  | cons step rest ih => exact (ih _).trans (entity_apply q step)

/-! ## Interleaved steps -/

/-- **Steps that address different parts can be interleaved in any way.** A built query stays one for its entity. Each of
its parts depends on what the part was before and on the steps that address it, in their order, whatever the other parts
are and whichever steps address them. So two lists with the same steps for each part build one query, with one
fingerprint and one cache key for each extent. -/
theorem interleaved_steps_build_alike (q : Query) (steps : List QueryStep) :
    (q.build steps).entity = q.entity ∧
    (∀ (p : QueryPart) (r : Query) (steps' : List QueryStep), q.part p = r.part p →
      steps.filter (·.addresses = p) = steps'.filter (·.addresses = p) →
      (q.build steps).part p = (r.build steps').part p) ∧
    (∀ steps' : List QueryStep, (∀ p, steps.filter (·.addresses = p) = steps'.filter (·.addresses = p)) →
      q.build steps = q.build steps' ∧ (q.build steps).fingerprint = (q.build steps').fingerprint ∧
        ∀ extent, (q.build steps).cacheKey extent = (q.build steps').cacheKey extent) := by
  refine ⟨q.entity_build steps, fun p r steps' hpart hsteps => partwise.part_foldl hpart hsteps, ?_⟩
  intro steps' hsteps
  have hbuild : q.build steps = q.build steps' := by
    refine eq_of_parts ?_ fun p => partwise.part_foldl rfl (hsteps p)
    rw [entity_build, entity_build]
  rw [hbuild]
  exact ⟨rfl, rfl, fun _ => rfl⟩

/-- The steps of two ways to build a query meet in its paging and in its criteria. A third way starts from another query
and leaves the paging as it is there. -/
theorem interleaved_steps_build_alike_paging :
    let named : FilterStep := .condition [.attributeName "name", .operator .notNull]
    let q : Query := { entity := "account", top := some 7 }
    let r : Query := { entity := "contact", columns := .all, distinct := true }
    let steps : List QueryStep :=
      [.wantsTotal true, .criteria [named, .junction .or], .buildPaging [.pageSize 2, .pageNumber 3], .columns ["name"],
        .restrict [named], .wantsTotal true, .allColumns, .top none]
    let steps' : List QueryStep :=
      [.top none, .columns ["name"], .wantsTotal true, .buildPaging [.pageSize 2, .pageNumber 3], .allColumns,
        .criteria [named, .junction .or], .wantsTotal true, .restrict [named]]
    let others : List QueryStep := [.criteria [named, .junction .or], .lock true, .restrict [named]]
    (∀ p, steps.filter (·.addresses = p) = steps'.filter (·.addresses = p)) ∧ q.build steps = q.build steps' ∧
      (q.build steps).paging = { pageNumber := 3, pageSize := some 2, wantsTotal := true } ∧
      steps.filter (·.addresses = .criteria) = others.filter (·.addresses = .criteria) ∧
      (q.build steps).criteria = (r.build others).criteria := by
  intro named q r steps steps' others
  have hsteps : ∀ p, steps.filter (·.addresses = p) = steps'.filter (·.addresses = p) := by
    intro p
    cases p <;> rfl
  have hothers : steps.filter (·.addresses = .criteria) = others.filter (·.addresses = .criteria) := rfl
  obtain ⟨-, hpart, hbuild⟩ := interleaved_steps_build_alike q steps
  exact ⟨hsteps, (hbuild steps' hsteps).1, rfl, hothers, hpart .criteria r others rfl hothers⟩

end Query

end EntityQuery
