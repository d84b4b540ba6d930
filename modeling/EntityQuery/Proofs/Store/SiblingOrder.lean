import EntityQuery.Proofs.Store.Combinations
import EntityQuery.Proofs.Store.Projection
import Mathlib.Data.List.Perm.Basic

/-!
# The order of sibling links

The links of a list are followed one after the other, and each of them multiplies, keeps or drops the rows that those
before it have left. A visit reads the scope that it starts from and binds the one of its link, and nothing else. So
visits that do not start from each other can change places, and with them whole subtrees under one parent.

* `Link.Reordered`: link trees that differ in the order of siblings, at any depth;
* `SameRows`, `sameRows_append_comm`: visits of unrelated subtrees give the same rows in either order;
* `Link.Reordered.sameRows`: reordered trees give the same rows, as often;
* `Link.Reordered.projectAll_eq`: a row has the same projection along both;
* `Query.reordered_links_permute_records`: the records of a result are permuted at most.
-/

namespace EntityQuery

/-! ## Reordered trees -/

namespace Link

/-- The links of one list are those of the other in some order, each with the links below it in some order. -/
inductive Reordered : List Link → List Link → Prop where
  | nil : Reordered [] []
  | cons (l : Link) {below rest rest' : List Link} (hbelow : Reordered l.links below) (hrest : Reordered rest rest') :
    Reordered (l :: rest) ({ l with links := below } :: rest')
  | swap (l m : Link) (rest : List Link) : Reordered (l :: m :: rest) (m :: l :: rest)
  | trans {links links' links'' : List Link} (h : Reordered links links') (h' : Reordered links' links'') :
    Reordered links links''

theorem Reordered.refl : ∀ links : List Link, Reordered links links
  | [] => .nil
  | ⟨fromEntity, fromAttribute, toEntity, toAttribute, aliasName, kind, columns, criteria, links⟩ :: rest =>
    .cons ⟨fromEntity, fromAttribute, toEntity, toAttribute, aliasName, kind, columns, criteria, links⟩
      (refl links) (refl rest)

/-- Any order of a list will do. -/
theorem Reordered.of_perm {links links' : List Link} (h : links.Perm links') : Reordered links links' := by
  induction h with
  | nil => exact .nil
  | cons l _ ih =>
    cases l
    exact .cons _ (.refl _) ih
  | swap l m rest => exact .swap m l rest
  | trans _ _ ih ih' => exact ih.trans ih'

end Link

/-- The visit of a link by itself, without the links below it. -/
def Visit.alone (v : Visit) : Visit := ⟨v.parent, { v.link with links := [] }⟩

/-- **Reordered trees have the same visits**, but for what is below each of them. -/
theorem Link.Reordered.perm_alone {links links' : List Link} (h : Reordered links links') (parent : String) :
    ((visitsOf parent links).map Visit.alone).Perm ((visitsOf parent links').map Visit.alone) := by
  induction h generalizing parent with
  | nil => exact .nil
  | cons l _ _ ihbelow ihrest =>
    rw [visitsOf, visitsOf, visits_eq, visits_eq, List.map_append, List.map_append]
    exact ((ihbelow l.scope).cons _).append (ihrest parent)
  | swap l m rest =>
    simp only [visitsOf, ← List.append_assoc, List.map_append]
    exact List.perm_append_comm.append_right _
  | trans _ _ ih ih' => exact (ih parent).trans (ih' parent)

theorem Link.Reordered.perm_scopes {links links' : List Link} (h : Reordered links links') (parent : String) :
    ((visitsOf parent links).map fun v => v.link.scope).Perm ((visitsOf parent links').map fun v => v.link.scope) := by
  have hscopes := (h.perm_alone parent).map fun v => v.link.scope
  rw [List.map_map, List.map_map] at hscopes
  exact hscopes

theorem Link.Reordered.exists_alone {links links' : List Link} (h : Reordered links links') {parent : String}
    {w : Visit} (hw : w ∈ visitsOf parent links') : ∃ v ∈ visitsOf parent links, v.alone = w.alone :=
  List.mem_map.mp ((h.perm_alone parent).mem_iff.mpr (List.mem_map_of_mem hw))

/-! ## Visits that change places -/

/-- Neither visit starts from the scope that the other one binds, and they bind different scopes. -/
structure Visit.Independent (v w : Visit) : Prop where
  parent : v.parent ≠ w.link.scope
  parent' : w.parent ≠ v.link.scope
  scope : v.link.scope ≠ w.link.scope

/-- Along both lists of visits each row becomes the same rows, as often. -/
def SameRows (records : List Record) (vs ws : List Visit) : Prop :=
  ∀ row, (rowsFrom records vs row).Perm (rowsFrom records ws row)

/-- Branches in two directions can be taken in either order. -/
theorem perm_flatMap_comm {α β γ : Type} (xs : List α) (ys : List β) (f : α → β → List γ) :
    (xs.flatMap fun x => ys.flatMap (f x)).Perm (ys.flatMap fun y => xs.flatMap fun x => f x y) := by
  induction xs with
  | nil => simp
  | cons x rest ih =>
    simp only [List.flatMap_cons]
    exact (ih.append_left _).trans (List.flatMap_append_perm ys (f x) _)

section Visits

variable {records : List Record} {v w : Visit} {vs vs' ws ws' : List Visit}

namespace SameRows

theorem refl (vs : List Visit) : SameRows records vs vs := fun _ => .refl _

theorem trans {us : List Visit} (h : SameRows records us vs) (h' : SameRows records vs ws) :
    SameRows records us ws := fun row => (h row).trans (h' row)

theorem append (h : SameRows records vs vs') (h' : SameRows records ws ws') :
    SameRows records (vs ++ ws) (vs' ++ ws') := by
  intro row
  rw [rowsFrom_append, rowsFrom_append]
  exact (h row).flatMap fun out _ => h' out

theorem cons (v : Visit) (h : SameRows records vs ws) : SameRows records (v :: vs) (v :: ws) :=
  fun _ => .flatMap_left _ fun _ _ => h _

end SameRows

theorem Visit.choices_congr {row row' : Row} (h : row v.parent = row' v.parent) :
    v.choices records row = v.choices records row' := by
  unfold choices
  rw [source_congr h]

theorem Row.choose_comm {scope scope' : String} (h : scope ≠ scope') (row : Row) (choice choice' : Option Nat) :
    (row.choose records scope choice).choose records scope' choice' =
      (row.choose records scope' choice').choose records scope choice := by
  funext name
  by_cases hname : name = scope
  · subst hname
    rw [choose_of_ne h, choose_self, choose_self, choose_of_ne h]
  · rw [choose_of_ne hname]
    by_cases hname' : name = scope'
    · subst hname'
      rw [choose_self, choose_self, choose_of_ne hname]
    · rw [choose_of_ne hname', choose_of_ne hname', choose_of_ne hname]

/-- **Independent visits can change places.** -/
theorem sameRows_swap (h : v.Independent w) (rest : List Visit) :
    SameRows records (v :: w :: rest) (w :: v :: rest) := by
  intro row
  have hw : ∀ choice, w.choices records (row.choose records v.link.scope choice) = w.choices records row :=
    fun _ => Visit.choices_congr (Row.choose_of_ne h.parent')
  have hv : ∀ choice, v.choices records (row.choose records w.link.scope choice) = v.choices records row :=
    fun _ => Visit.choices_congr (Row.choose_of_ne h.parent)
  simp only [rowsFrom, hv, hw, Row.choose_comm h.scope]
  exact perm_flatMap_comm _ _ _

/-- A visit goes past visits that it is independent of. -/
theorem sameRows_cons_append (h : ∀ w ∈ ws, v.Independent w) (rest : List Visit) :
    SameRows records (v :: (ws ++ rest)) (ws ++ v :: rest) := by
  induction ws with
  | nil => exact .refl _
  | cons w others ih =>
    rw [List.forall_mem_cons] at h
    exact (sameRows_swap h.1 (others ++ rest)).trans ((ih h.2).cons w)

/-- **Lists of visits that are independent of each other give the same rows in either order.** -/
theorem sameRows_append_comm (h : ∀ v ∈ vs, ∀ w ∈ ws, v.Independent w) :
    SameRows records (vs ++ ws) (ws ++ vs) := by
  induction vs with
  | nil =>
    rw [List.append_nil]
    exact .refl ws
  | cons v rest ih =>
    rw [List.forall_mem_cons] at h
    exact ((ih h.2).cons v).trans (sameRows_cons_append h.1 rest)

end Visits

theorem StartsFrom.parent_mem {known : List String} {vs : List Visit} (h : StartsFrom known vs) {v : Visit}
    (hv : v ∈ vs) : v.parent ∈ known ++ vs.map fun v => v.link.scope := by
  induction vs generalizing known with
  | nil => cases hv
  | cons w rest ih =>
    rcases List.mem_cons.mp hv with rfl | hv
    · exact List.mem_append_left _ h.1
    · simpa using ih h.2 hv

namespace Link

variable {records : List Record} {links links' : List Link} {parent : String}

/-- A visit of a tree starts from the parent of the tree or from a scope of it. -/
theorem parent_mem_visits {l : Link} {v : Visit} (hv : v ∈ l.visits parent) :
    v.parent = parent ∨ v.parent ∈ (l.visits parent).map fun v => v.link.scope := by
  have hmem := (startsFrom_visits l (List.mem_singleton.mpr rfl)).parent_mem hv
  rwa [List.mem_append, List.mem_singleton] at hmem

/-- Subtrees under one parent are independent when all names are distinct. -/
theorem independent_of_mem_visits {l m : Link} (hnames : (parent ::
    ((l.visits parent).map (fun v => v.link.scope) ++ (m.visits parent).map fun v => v.link.scope)).Nodup)
    {v w : Visit} (hv : v ∈ l.visits parent) (hw : w ∈ m.visits parent) : v.Independent w := by
  obtain ⟨hparent, hnames⟩ := List.nodup_cons.mp hnames
  rw [List.mem_append, not_or] at hparent
  obtain ⟨-, -, hne⟩ := List.nodup_append.mp hnames
  have hvscope := List.mem_map_of_mem (f := fun v : Visit => v.link.scope) hv
  have hwscope := List.mem_map_of_mem (f := fun v : Visit => v.link.scope) hw
  refine ⟨fun heq => ?_, fun heq => ?_, hne _ hvscope _ hwscope⟩
  · rcases parent_mem_visits hv with hvparent | hvparent
    · rw [← heq, hvparent] at hwscope
      exact hparent.2 hwscope
    · exact hne _ hvparent _ hwscope heq
  · rcases parent_mem_visits hw with hwparent | hwparent
    · rw [← heq, hwparent] at hvscope
      exact hparent.1 hvscope
    · exact hne _ hvscope _ hwparent heq.symm

/-- **Reordered trees give the same rows, as often**, when all names are distinct. -/
theorem Reordered.sameRows (h : Reordered links links')
    (hnames : (parent :: (visitsOf parent links).map fun v => v.link.scope).Nodup) :
    SameRows records (visitsOf parent links) (visitsOf parent links') := by
  induction h generalizing parent with
  | nil => exact .refl _
  | @cons l below rest rest' _ _ ihbelow ihrest =>
    rw [visitsOf, visits_eq, List.map_append, List.map_cons, List.cons_append] at hnames
    have hbelow : (l.scope :: (visitsOf l.scope l.links).map fun v => v.link.scope).Nodup :=
      (List.nodup_cons.mp hnames).2.sublist (.cons_cons _ (List.sublist_append_left _ _))
    have hrest : (parent :: (visitsOf parent rest).map fun v => v.link.scope).Nodup :=
      hnames.sublist (.cons_cons _ (.cons _ (List.sublist_append_right _ _)))
    rw [visitsOf, visitsOf, visits_eq, visits_eq]
    -- a visit does not look at the links below its own
    exact SameRows.append (fun row => .flatMap_left _ fun _ _ => ihbelow hbelow _) (ihrest hrest)
  | swap l m rest =>
    simp only [visitsOf, ← List.append_assoc, List.map_append] at hnames ⊢
    have hpair := hnames.sublist (.cons_cons _ (List.sublist_append_left _ _))
    exact (sameRows_append_comm fun v hv w hw => independent_of_mem_visits hpair hv hw).append (.refl _)
  | trans h _ ih ih' => exact (ih hnames).trans (ih' (((h.perm_scopes parent).cons parent).nodup_iff.mp hnames))

end Link

/-! ## Projections -/

/-- Adds what the link of a visit adds from a row. -/
def Visit.addTo (row : Row) (attributes : SortedMap Json) (v : Visit) : SortedMap Json :=
  attributes.insertAll (v.link.added row)

/-- What two scopes add goes under different names. -/
theorem Visit.addTo_comm {v w : Visit} (hdot : '.' ∉ v.link.scope.toList) (hdot' : '.' ∉ w.link.scope.toList)
    (hne : v.link.scope ≠ w.link.scope) (row : Row) (attributes : SortedMap Json) :
    w.addTo row (v.addTo row attributes) = v.addTo row (w.addTo row attributes) := by
  refine SortedMap.insertAll_comm (fun e he e' he' => ?_) attributes
  obtain ⟨x, hx⟩ := Link.exists_qualified_scope_of_mem (List.mem_map_of_mem he)
  obtain ⟨y, hy⟩ := Link.exists_qualified_scope_of_mem (List.mem_map_of_mem he')
  rw [hx, hy]
  exact qualified_ne hdot hdot' hne x y

namespace Link

/-- Complete links are projected visit by visit. -/
theorem projectAll_eq_foldl (row : Row) (links : List Link) (parent : String) (attributes : SortedMap Json)
    (hcomplete : ∀ v ∈ visitsOf parent links, v.link.Complete) :
    projectAll row links attributes = (visitsOf parent links).foldl (Visit.addTo row) attributes := by
  rw [projectAll_eq_insertAll, projectedOf_eq_visits links parent fun v hv => (hcomplete v hv).isSome_scope?,
    SortedMap.insertAll_flatMap, List.foldl_map]
  rfl

variable {links links' : List Link} {parent : String}

theorem complete_alone_iff {v : Visit} : v.alone.link.Complete ↔ v.link.Complete :=
  ⟨fun h => ⟨h.fromEntity, h.fromAttribute, h.toEntity, h.toAttribute⟩,
    fun h => ⟨h.fromEntity, h.fromAttribute, h.toEntity, h.toAttribute⟩⟩

theorem Reordered.complete (h : Reordered links links') (hcomplete : ∀ v ∈ visitsOf parent links, v.link.Complete) :
    ∀ v ∈ visitsOf parent links', v.link.Complete := by
  intro w hw
  obtain ⟨v, hv, halone⟩ := h.exists_alone hw
  exact complete_alone_iff.mp (halone ▸ complete_alone_iff.mpr (hcomplete v hv))

theorem Reordered.wellSized (h : Reordered links links')
    (hsized : ∀ v ∈ visitsOf parent links, ∀ f, v.link.criteria = some f → f.WellSized) :
    ∀ v ∈ visitsOf parent links', ∀ f, v.link.criteria = some f → f.WellSized := by
  intro w hw f hf
  obtain ⟨v, hv, halone⟩ := h.exists_alone hw
  have hcriteria := congrArg (fun u : Visit => u.link.criteria) halone
  exact hsized v hv f (hcriteria.trans hf)

/-- **A row has the same projection along reordered links**, when their scopes are distinct and have no dots. -/
theorem Reordered.projectAll_eq (h : Reordered links links')
    (hcomplete : ∀ v ∈ visitsOf parent links, v.link.Complete)
    (hscopes : ((visitsOf parent links).map fun v => v.link.scope).Nodup)
    (hdots : ∀ v ∈ visitsOf parent links, '.' ∉ v.link.scope.toList) (row : Row) (attributes : SortedMap Json) :
    projectAll row links attributes = projectAll row links' attributes := by
  have halone : ∀ vs : List Visit, vs.foldl (Visit.addTo row) attributes =
      (vs.map Visit.alone).foldl (Visit.addTo row) attributes := by
    intro vs
    rw [List.foldl_map]
    rfl
  rw [projectAll_eq_foldl row links parent _ hcomplete, projectAll_eq_foldl row links' parent _ (h.complete hcomplete),
    halone (visitsOf parent links), halone (visitsOf parent links')]
  refine (h.perm_alone parent).foldl_eq' (fun v' hv' w' hw' attributes => ?_) attributes
  obtain ⟨v, hv, rfl⟩ := List.mem_map.mp hv'
  obtain ⟨w, hw, rfl⟩ := List.mem_map.mp hw'
  by_cases heq : v.link.scope = w.link.scope
  · rw [List.inj_on_of_nodup_map hscopes hv hw heq]
  · exact Visit.addTo_comm (hdots v hv) (hdots w hw) heq row attributes

end Link

/-! ## Queries with reordered links -/

namespace Query

variable {q : Query}

/-- **Sibling links are independent.** Every link has to be complete, all criteria well sized, the names distinct, and
the scopes without dots. Then a query that neither orders nor cuts its result has the same records for every order of
the links, at any depth: a permutation of them, each as often and with the same attributes. -/
theorem reordered_links_permute_records (records : List Record) {links : List Link}
    (hreordered : Link.Reordered q.links links) (hcomplete : ∀ v ∈ q.visits, v.link.Complete)
    (hsized : ∀ v ∈ q.visits, ∀ f, v.link.criteria = some f → f.WellSized)
    (hroot : ∀ f, q.criteria = some f → f.WellSized) (hnames : q.names.Nodup)
    (hdots : ∀ v ∈ q.visits, '.' ∉ v.link.scope.toList) (hkeys : q.sortKeys = []) (hdistinct : q.distinct = false)
    (htop : q.top = none) (hsize : q.paging.pageSize = none) :
    (q.entity.isEmpty = true → q.answer records = .error .noEntityName ∧
      ({ q with links } : Query).answer records = .error .noEntityName) ∧
    (q.entity.isEmpty = false → ∃ page page', q.answer records = .ok page ∧
      ({ q with links } : Query).answer records = .ok page' ∧ page.records.Perm page'.records ∧
        page' = { page with records := page'.records }) := by
  refine ⟨fun hname => ⟨answer_of_isEmpty hname, answer_of_isEmpty hname⟩, fun hname => ?_⟩
  set q' : Query := { q with links }
  have hjoinable : q.Joinable := ⟨hname, hcomplete, hsized⟩
  have hjoinable' : q'.Joinable := ⟨hname, hreordered.complete hcomplete, hreordered.wellSized hsized⟩
  have hrows : ((q.rootRows records).flatMap (rowsFrom records q.visits)).Perm
      ((q'.rootRows records).flatMap (rowsFrom records q'.visits)) :=
    .flatMap_left _ fun row _ => hreordered.sameRows hnames row
  have hproject : q'.project = q.project := by
    have hattributes := hreordered.projectAll_eq hcomplete (List.nodup_cons.mp hnames).2 hdots
    funext row
    unfold project
    simp only [q', ← hattributes]
  have hpresented := (hrows.filter fun row => accepted (q.outcome row q.entity)).map q.project
  refine ⟨_, _, answer_of_keptRows (hjoinable.keptRows_eq hroot records),
    answer_of_keptRows (hjoinable'.keptRows_eq hroot records), ?_⟩
  rw [paginate_eq_whole hsize, paginate_eq_whole (q := q') hsize, present_eq_map hkeys hdistinct htop,
    present_eq_map (q := q') hkeys hdistinct htop, hproject]
  refine ⟨hpresented, ?_⟩
  unfold Paging.whole
  rw [hpresented.length_eq]
  rfl

/-- Contacts and tasks of an account change places, and so do the office and the manager that a contact may have. -/
theorem reordered_links_permute_records_tasks :
    let record (entity : String) (attributes : List (String × String)) : Record :=
      { logicalName := entity, attributes := .ofList (attributes.map fun e => (e.1, .string e.2)) }
    let link (parent name entity target : String) (kind : JoinKind) (links : List Link) : Link :=
      { fromEntity := some parent, fromAttribute := some name, toEntity := some entity,
        toAttribute := some target, kind, columns := .only (.ofList ["name"]), links }
    let records := [record "account" [("id", "1")], record "contact" [("account", "1"), ("name", "Ann")],
      record "contact" [("account", "1"), ("name", "Bob"), ("office", "7")],
      record "task" [("account", "1"), ("name", "call")], record "task" [("account", "1"), ("name", "mail")],
      record "office" [("id", "7"), ("name", "Oslo")]]
    let office := link "contact" "office" "office" "id" .leftOuter []
    let manager := link "contact" "manager" "manager" "id" .leftOuter []
    let contact := link "account" "id" "contact" "account" .inner
    let task := link "account" "id" "task" "account" .natural []
    let q : Query := { entity := "account", links := [contact [office, manager], task] }
    let links := [task, contact [manager, office]]
    let annCalls := record "account" [("contact.name", "Ann"), ("task.name", "call")]
    let annMails := record "account" [("contact.name", "Ann"), ("task.name", "mail")]
    let bobCalls := record "account" [("contact.name", "Bob"), ("office.name", "Oslo"), ("task.name", "call")]
    let bobMails := record "account" [("contact.name", "Bob"), ("office.name", "Oslo"), ("task.name", "mail")]
    Link.Reordered q.links links ∧ (∀ v ∈ q.visits, v.link.Complete) ∧
      (∀ v ∈ q.visits, ∀ f, v.link.criteria = some f → f.WellSized) ∧ (∀ f, q.criteria = some f → f.WellSized) ∧
      q.names.Nodup ∧ (∀ v ∈ q.visits, '.' ∉ v.link.scope.toList) ∧ q.sortKeys = [] ∧ q.distinct = false ∧
      q.top = none ∧ q.paging.pageSize = none ∧ q.entity.isEmpty = false ∧
      q.answer records = .ok { records := [annCalls, annMails, bobCalls, bobMails] } ∧
      ({ q with links } : Query).answer records = .ok { records := [annCalls, bobCalls, annMails, bobMails] } ∧
      [annCalls, annMails, bobCalls, bobMails].Perm [annCalls, bobCalls, annMails, bobMails] := by
  intro record link records office manager contact task q links annCalls annMails bobCalls bobMails
  have hreordered : Link.Reordered q.links links :=
    .trans (.of_perm (.swap task (contact [office, manager]) []))
      (.cons task .nil (.cons (contact [office, manager]) (.of_perm (.swap manager office [])) .nil))
  have hvisits : q.visits = [⟨"account", contact [office, manager]⟩, ⟨"contact", office⟩, ⟨"contact", manager⟩,
    ⟨"account", task⟩] := rfl
  have hcomplete : ∀ v ∈ q.visits, v.link.Complete := by
    rw [hvisits]
    rintro v (_ | ⟨_, _ | ⟨_, _ | ⟨_, _ | ⟨_, ⟨⟩⟩⟩⟩⟩) <;> exact ⟨rfl, rfl, rfl, rfl⟩
  have hsized : ∀ v ∈ q.visits, ∀ f, v.link.criteria = some f → f.WellSized := by
    rw [hvisits]
    rintro v (_ | ⟨_, _ | ⟨_, _ | ⟨_, _ | ⟨_, ⟨⟩⟩⟩⟩⟩) f hf <;> cases hf
  have hnames : q.names.Nodup := by decide
  have hdots : ∀ v ∈ q.visits, '.' ∉ v.link.scope.toList := by
    rw [hvisits]
    rintro v (_ | ⟨_, _ | ⟨_, _ | ⟨_, _ | ⟨_, ⟨⟩⟩⟩⟩⟩) <;> decide
  have hanswer : q.answer records = .ok { records := [annCalls, annMails, bobCalls, bobMails] } :=
    (answer_eq (result_of_joinedRows rfl rfl rfl rfl rfl rfl)).trans rfl
  have hanswer' : ({ q with links } : Query).answer records =
      .ok { records := [annCalls, bobCalls, annMails, bobMails] } :=
    (answer_eq (result_of_joinedRows rfl rfl rfl rfl rfl rfl)).trans rfl
  obtain ⟨page, page', hpage, hpage', hperm, -⟩ := (reordered_links_permute_records records hreordered hcomplete hsized
    nofun hnames hdots rfl rfl rfl rfl).2 rfl
  cases hpage.symm.trans hanswer
  cases hpage'.symm.trans hanswer'
  exact ⟨hreordered, hcomplete, hsized, nofun, hnames, hdots, rfl, rfl, rfl, rfl, rfl, hanswer, hanswer', hperm⟩

end Query

end EntityQuery
