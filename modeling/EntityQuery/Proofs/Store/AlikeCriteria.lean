import EntityQuery.Proofs.Store.Conjunction

/-!
# Queries with criteria that are alike

Evaluations are alike when they end with the same value or fail both, be it with different errors. A query evaluates
criteria on candidates and on rows and goes on with nothing but their outcomes. So queries that have alike criteria in
the same places, and are the same otherwise, have alike answers.

* `Alike`: evaluations that end with the same value, or fail both;
* `Filter.Alike`: filters with alike outcomes on every row;
* `Link.CriteriaRelated`, `Query.CriteriaRelated`: links and queries that differ in their criteria at most;
* `Link.CriteriaRelated.followAll_alike`: links with alike criteria are followed alike;
* `Query.CriteriaRelated.answer_alike`: queries with alike criteria are answered alike.
-/

namespace EntityQuery

/-! ## Evaluations that are alike -/

/-- Two evaluations end with the same value, or both fail. -/
def Alike {α ε : Type} (x y : Except ε α) : Prop := ∀ a, x = .ok a ↔ y = .ok a

namespace Alike

variable {α β ε : Type} {x y : Except ε α}

theorem refl (x : Except ε α) : Alike x x := fun _ => .rfl

theorem bind {f g : α → Except ε β} (h : Alike x y) (hfg : ∀ a, Alike (f a) (g a)) :
    Alike (x >>= f) (y >>= g) := by
  intro b
  simp only [bind_eq_ok_iff, h _, hfg _ _]

theorem failed_iff (h : Alike x y) : Failed x ↔ Failed y := by
  rw [← not_iff_not, not_failed_iff, not_failed_iff]
  exact exists_congr h

/-- What is alike has one value or none. -/
theorem cases (h : Alike x y) : (∃ a, x = .ok a ∧ y = .ok a) ∨ (Failed x ∧ Failed y) := by
  cases x with
  | error e => exact .inr ⟨⟨e, rfl⟩, h.failed_iff.mp ⟨e, rfl⟩⟩
  | ok a => exact .inl ⟨a, rfl, (h a).mp rfl⟩

theorem keepThat {test test' : α → Except ε Bool} (h : ∀ x, Alike (test x) (test' x)) (xs : List α) :
    Alike (keepThat test xs) (keepThat test' xs) := by
  induction xs with
  | nil => exact refl _
  | cons x rest ih => exact (h x).bind fun _ => ih.bind fun _ => refl _

end Alike

/-- Both filters end alike on every row. -/
def Filter.Alike (f g : Filter) : Prop := ∀ row scope, EntityQuery.Alike (f.holds row scope) (g.holds row scope)

/-! ## Criteria in the same places -/

/-- The links of both lists are the same, at any depth, but for criteria that are related. -/
inductive Link.CriteriaRelated (R : Filter → Filter → Prop) : List Link → List Link → Prop where
  | nil : CriteriaRelated R [] []
  | cons (l : Link) {criteria : Option Filter} {below rest rest' : List Link}
    (hcriteria : Option.Rel R l.criteria criteria) (hbelow : CriteriaRelated R l.links below)
    (hrest : CriteriaRelated R rest rest') :
    CriteriaRelated R (l :: rest) ({ l with criteria, links := below } :: rest')

namespace Link

variable {R : Filter → Filter → Prop} {records : List Record} {links links' : List Link}

theorem admits_alike (hR : ∀ f g, R f g → f.Alike g) {l l' : Link} (h : Option.Rel R l.criteria l'.criteria)
    (scope : String) (r : Record) : Alike (l.admits scope r) (l'.admits scope r) := by
  unfold admits
  generalize l.criteria = criteria at h
  generalize l'.criteria = criteria' at h
  cases h with
  | none => exact .refl _
  | some h => exact hR _ _ h _ _

theorem extendRows_alike {l l' : Link} (hadmits : ∀ scope r, Alike (l.admits scope r) (l'.admits scope r))
    (hkind : l'.kind = l.kind) (keys : JoinKeys) (parent scope : String) (rows : List Row) :
    Alike (extendRows records l keys parent scope rows) (extendRows records l' keys parent scope rows) := by
  induction rows with
  | nil => exact .refl _
  | cons row rest ih =>
    have hrow : Alike (extendRow records l keys parent scope row) (extendRow records l' keys parent scope row) := by
      unfold extendRow
      rw [hkind]
      exact (Alike.keepThat (hadmits scope) _).bind fun _ => .refl _
    exact hrow.bind fun _ => ih.bind fun _ => .refl _

/-- **Links with alike criteria are followed alike.** -/
theorem CriteriaRelated.followAll_alike (h : CriteriaRelated R links links') (hR : ∀ f g, R f g → f.Alike g)
    (parent : String) (rows : List Row) :
    Alike (followAll records parent links rows) (followAll records parent links' rows) := by
  induction h generalizing parent rows with
  | nil => exact .refl _
  | @cons l criteria below rest rest' hcriteria _ _ ihbelow ihrest =>
    set l' : Link := { l with criteria, links := below }
    have hfollow : Alike (follow records parent l rows) (follow records parent l' rows) := by
      have hkeys : l'.keys = l.keys := rfl
      cases hcase : l.keys with
      | error e =>
        rw [follow_of_error hcase, follow_of_error (hkeys.trans hcase)]
        exact .refl _
      | ok keys =>
        rw [follow_of_keys hcase, follow_of_keys (hkeys.trans hcase)]
        have hadmits : ∀ scope r, Alike (l.admits scope r) (l'.admits scope r) := admits_alike hR hcriteria
        have hextended : Alike (extendRows records l keys parent l.scope rows)
            (extendRows records l' keys parent l.scope rows) := extendRows_alike hadmits rfl keys parent l.scope rows
        exact hextended.bind fun extended => ihbelow l.scope extended
    exact hfollow.bind fun _ => ihrest _ _

/-- Criteria do not count for what is selected from a row. -/
theorem CriteriaRelated.projectAll_eq (h : CriteriaRelated R links links') (row : Row)
    (attributes : SortedMap Json) : projectAll row links attributes = projectAll row links' attributes := by
  induction h generalizing attributes with
  | nil => rfl
  | cons l _ _ _ ihbelow ihrest =>
    cases l
    rw [projectAll, projectAll, project, project, ihrest]
    simp only [ihbelow]

end Link

namespace Query

/-- Both queries are the same but for criteria of their own and of their links that are related. -/
structure CriteriaRelated (R : Filter → Filter → Prop) (q q' : Query) : Prop where
  same : q' = { q with criteria := q'.criteria, links := q'.links }
  criteria : Option.Rel R q.criteria q'.criteria
  links : Link.CriteriaRelated R q.links q'.links

variable {R : Filter → Filter → Prop} {q q' : Query}

theorem outcome_alike (hR : ∀ f g, R f g → f.Alike g) (h : Option.Rel R q.criteria q'.criteria) (row : Row)
    (scope : String) : Alike (q.outcome row scope) (q'.outcome row scope) := by
  unfold outcome
  generalize q.criteria = criteria at h
  generalize q'.criteria = criteria' at h
  cases h with
  | none => exact .refl _
  | some h => exact hR _ _ h row scope

/-- **Queries with alike criteria are answered alike.** -/
theorem CriteriaRelated.answer_alike (h : q.CriteriaRelated R q') (hR : ∀ f g, R f g → f.Alike g)
    (records : List Record) : Alike (q.answer records) (q'.answer records) := by
  obtain ⟨hsame, hcriteria, hlinks⟩ := h
  have hentity : q'.entity = q.entity := by rw [hsame]
  have hjoined : Alike (q.joinedRows records) (q'.joinedRows records) := by
    unfold joinedRows rootRows
    rw [hentity]
    exact hlinks.followAll_alike hR q.entity _
  have hkept : ∀ rows, Alike (q.filterRows rows) (q'.filterRows rows) := by
    intro rows
    rw [filterRows_eq, filterRows_eq, hentity]
    exact Alike.keepThat (fun row => outcome_alike hR hcriteria row q.entity) rows
  have hproject : q'.project = q.project := by
    funext row
    rw [hsame]
    unfold project
    simp only [hlinks.projectAll_eq]
  have hpage : ∀ rows, q'.paginate (q'.present rows) = q.paginate (q.present rows) := by
    intro rows
    unfold present
    rw [hproject, hsame]
    rfl
  intro page
  simp only [answer_eq_ok_iff, hentity, hjoined _, hkept _ _, hpage]

end Query

end EntityQuery
