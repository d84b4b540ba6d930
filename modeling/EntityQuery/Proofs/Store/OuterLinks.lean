import EntityQuery.Proofs.Store.Results
import EntityQuery.Proofs.Store.Walks
import EntityQuery.Retrieval.Backend

/-!
# Rows that outer links keep

A left outer link keeps a row for which it finds no record, with its scope unbound. The links below it start from that
scope all the same: none of them finds a record then, and one that is not left outer drops the row. So a left outer link
is safe to add to a query if all links below it are left outer too; otherwise it can remove rows, those without a
match among them.

* `Link.Keeps`: what it takes that a link and those below it keep a row;
* `Link.rowsFrom_visits_ne_nil_iff`: a walk along the links of a tree comes to an end exactly then;
* `Link.keeps_none_iff`: from an unbound scope, only left outer links keep a row;
* `Query.outer_link_keeps_rows`: which rows a query still has when a left outer link is added to it;
* `Query.inner_link_below_removes_row`: an inner link below a left outer one.
-/

namespace EntityQuery

/-! ## Trees of links that keep a row -/

namespace Link

/-- The value that a link looks for when the scope it starts from is bound to a record, or to none. -/
def sourceFrom (l : Link) (start : Option Record) : Json :=
  (l.fromAttribute.bind fun name => start.map fun r => r.value name).getD .null

mutual

/-- A link and those below it keep a row that has a record to start from, or none: either the links below keep it with
some record that the link matches, or the link is left outer, matches none, and the links below keep it without one. -/
def Keeps (records : List Record) : Link → Option Record → Prop
  | ⟨fromEntity, fromAttribute, toEntity, toAttribute, aliasName, kind, columns, criteria, links⟩, start =>
    let l : Link :=
      { fromEntity, fromAttribute, toEntity, toAttribute, aliasName, kind, columns, criteria, links }
    (∃ r ∈ records, l.Matches (l.sourceFrom start) r ∧ KeepAll records links (some r)) ∨
      (kind = .leftOuter ∧ (∀ r ∈ records, ¬ l.Matches (l.sourceFrom start) r) ∧ KeepAll records links none)

/-- All links of a list keep the row. -/
def KeepAll (records : List Record) : List Link → Option Record → Prop
  | [], _ => True
  | l :: rest, start => Keeps records l start ∧ KeepAll records rest start

end

variable {records : List Record} {l : Link} {links : List Link} {start : Option Record} {parent : String}

theorem keeps_iff : l.Keeps records start ↔
    (∃ r ∈ records, l.Matches (l.sourceFrom start) r ∧ KeepAll records l.links (some r)) ∨
      (l.kind = .leftOuter ∧ (∀ r ∈ records, ¬ l.Matches (l.sourceFrom start) r) ∧
        KeepAll records l.links none) := by
  cases l
  rw [Keeps]

/-- Without a record to start from there is no match. -/
theorem not_matches_none (l : Link) (r : Record) : ¬ l.Matches (l.sourceFrom none) r := by
  intro h
  have hnull : (l.sourceFrom none).isNull = true := by
    unfold sourceFrom
    cases l.fromAttribute <;> rfl
  rw [h.present] at hnull
  exact Bool.false_ne_true hnull

mutual

/-- Without a record to start from, a row is kept by left outer links alone. -/
theorem keeps_none_iff (records : List Record) : ∀ (l : Link) (parent : String),
    l.Keeps records none ↔ ∀ v ∈ l.visits parent, v.link.kind = .leftOuter
  | ⟨fromEntity, fromAttribute, toEntity, toAttribute, aliasName, kind, columns, criteria, links⟩, parent => by
    set l : Link := { fromEntity, fromAttribute, toEntity, toAttribute, aliasName, kind, columns, criteria, links }
    have hbelow := keepAll_none_iff records links l.scope
    rw [keeps_iff, visits_eq, List.forall_mem_cons, ← hbelow]
    constructor
    · rintro (⟨r, -, hmatches, -⟩ | ⟨hkind, -, hall⟩)
      · exact absurd hmatches (l.not_matches_none r)
      · exact ⟨hkind, hall⟩
    · rintro ⟨hkind, hall⟩
      exact .inr ⟨hkind, fun r _ => l.not_matches_none r, hall⟩

theorem keepAll_none_iff (records : List Record) : ∀ (links : List Link) (parent : String),
    KeepAll records links none ↔ ∀ v ∈ visitsOf parent links, v.link.kind = .leftOuter
  | [], _ => by simp [KeepAll, visitsOf]
  | l :: rest, parent => by
    rw [KeepAll, visitsOf, List.forall_mem_append, keeps_none_iff records l parent,
      keepAll_none_iff records rest parent]

end

mutual

/-- Left outer links keep every row. -/
theorem keeps_of_leftOuter (records : List Record) : ∀ (l : Link) (parent : String) (start : Option Record),
    (∀ v ∈ l.visits parent, v.link.kind = .leftOuter) → l.Keeps records start
  | ⟨fromEntity, fromAttribute, toEntity, toAttribute, aliasName, kind, columns, criteria, links⟩, parent, start,
      h => by
    set l : Link := { fromEntity, fromAttribute, toEntity, toAttribute, aliasName, kind, columns, criteria, links }
    rw [visits_eq, List.forall_mem_cons] at h
    have hbelow : ∀ start, KeepAll records links start :=
      fun start => keepAll_of_leftOuter records links l.scope start h.2
    rw [keeps_iff]
    by_cases hmatch : ∃ r ∈ records, l.Matches (l.sourceFrom start) r
    · obtain ⟨r, hr, hmatches⟩ := hmatch
      exact .inl ⟨r, hr, hmatches, hbelow _⟩
    · refine .inr ⟨h.1, fun r hr hmatches => hmatch ⟨r, hr, hmatches⟩, hbelow _⟩

theorem keepAll_of_leftOuter (records : List Record) : ∀ (links : List Link) (parent : String)
    (start : Option Record), (∀ v ∈ visitsOf parent links, v.link.kind = .leftOuter) → KeepAll records links start
  | [], _, _, _ => trivial
  | l :: rest, parent, start, h => by
    rw [visitsOf, List.forall_mem_append] at h
    exact ⟨keeps_of_leftOuter records l parent start h.1, keepAll_of_leftOuter records rest parent start h.2⟩

end

end Link

/-! ## Walks that come to an end -/

theorem Visit.source_eq (v : Visit) (row : Row) : v.source row = v.link.sourceFrom (row v.parent) := by
  unfold Visit.source Link.sourceFrom Row.value
  cases v.link.fromAttribute with
  | none => rfl
  | some name => cases row v.parent <;> rfl

/-- Visits are walked to the end from a row if one choice at the first leads to a walk along the others. -/
theorem rowsFrom_cons_ne_nil_iff {records : List Record} {v : Visit} {rest : List Visit} {row : Row} :
    rowsFrom records (v :: rest) row ≠ [] ↔
      (∃ r ∈ records, v.link.Matches (v.source row) r ∧ rowsFrom records rest (row.bind v.link.scope r) ≠ []) ∨
        (v.link.kind = .leftOuter ∧ (∀ r ∈ records, ¬ v.link.Matches (v.source row) r) ∧
          rowsFrom records rest row ≠ []) := by
  rw [rowsFrom, ne_eq, List.flatMap_eq_nil_iff]
  simp only [Visit.mem_choices_iff, not_forall]
  constructor
  · rintro ⟨choice, hallows, hrest⟩
    cases choice with
    | none => exact .inr ⟨hallows.1, hallows.2, hrest⟩
    | some i =>
      obtain ⟨r, hr, hmatches⟩ := hallows
      have hchoose : row.choose records v.link.scope (some i) = row.bind v.link.scope r := by
        unfold Row.choose
        rw [Option.bind_some, hr]
      rw [hchoose] at hrest
      exact .inl ⟨r, List.mem_of_getElem? hr, hmatches, hrest⟩
  · rintro (⟨r, hr, hmatches, hrest⟩ | ⟨hkind, hnone, hrest⟩)
    · obtain ⟨i, hi⟩ := List.getElem?_of_mem hr
      refine ⟨some i, ⟨r, hi, hmatches⟩, ?_⟩
      unfold Row.choose
      rw [Option.bind_some, hi]
      exact hrest
    · exact ⟨none, ⟨hkind, hnone⟩, hrest⟩

namespace Link

mutual

/-- **A row is walked to the end of a tree exactly when the tree keeps it.** The scopes of the tree have to be distinct
names that the row does not bind, so that every link finds the record it starts from. -/
theorem rowsFrom_visits_ne_nil_iff (records : List Record) : ∀ (l : Link) (parent : String) (row : Row),
    (parent :: (l.visits parent).map fun v => v.link.scope).Nodup →
    (∀ v ∈ l.visits parent, row v.link.scope = none) →
    (rowsFrom records (l.visits parent) row ≠ [] ↔ l.Keeps records (row parent))
  | ⟨fromEntity, fromAttribute, toEntity, toAttribute, aliasName, kind, columns, criteria, links⟩, parent, row,
      hnames, hfresh => by
    set l : Link := { fromEntity, fromAttribute, toEntity, toAttribute, aliasName, kind, columns, criteria, links }
    rw [visits_eq] at hnames hfresh ⊢
    rw [List.forall_mem_cons] at hfresh
    have hbelow : (l.scope :: (visitsOf l.scope links).map fun v => v.link.scope).Nodup := (List.nodup_cons.mp hnames).2
    have hother : ∀ v ∈ visitsOf l.scope links, v.link.scope ≠ l.scope := by
      intro v hv heq
      have hmem : v.link.scope ∈ (visitsOf l.scope links).map fun v => v.link.scope := List.mem_map_of_mem hv
      rw [heq] at hmem
      exact (List.nodup_cons.mp hbelow).1 hmem
    have hbound : ∀ r, rowsFrom records (visitsOf l.scope links) (row.bind l.scope r) ≠ [] ↔
        KeepAll records links (some r) := by
      intro r
      rw [rowsFrom_visitsOf_ne_nil_iff records links l.scope _ hbelow, Row.bind_self]
      intro v hv
      rw [Row.bind_of_ne row r (hother v hv), hfresh.2 v hv]
    have hunbound : rowsFrom records (visitsOf l.scope links) row ≠ [] ↔ KeepAll records links none := by
      rw [rowsFrom_visitsOf_ne_nil_iff records links l.scope row hbelow hfresh.2, hfresh.1]
    rw [rowsFrom_cons_ne_nil_iff, keeps_iff, Visit.source_eq]
    simp only [hbound, hunbound, l]

theorem rowsFrom_visitsOf_ne_nil_iff (records : List Record) : ∀ (links : List Link) (parent : String) (row : Row),
    (parent :: (visitsOf parent links).map fun v => v.link.scope).Nodup →
    (∀ v ∈ visitsOf parent links, row v.link.scope = none) →
    (rowsFrom records (visitsOf parent links) row ≠ [] ↔ KeepAll records links (row parent))
  | [], _, _, _, _ => by simp [visitsOf, rowsFrom, KeepAll]
  | l :: rest, parent, row, hnames, hfresh => by
    rw [visitsOf] at hnames hfresh ⊢
    rw [List.map_append, ← List.cons_append] at hnames
    rw [List.forall_mem_append] at hfresh
    obtain ⟨hfirst, -, hdisjoint⟩ := List.nodup_append.mp hnames
    have hothers : (parent :: (visitsOf parent rest).map fun v => v.link.scope).Nodup :=
      hnames.sublist (.cons_cons _ (List.sublist_append_right _ _))
    -- the first link leaves alone what the others start from and bind
    have hrest : ∀ mid ∈ rowsFrom records (l.visits parent) row,
        (rowsFrom records (visitsOf parent rest) mid ≠ [] ↔ KeepAll records rest (row parent)) := by
      intro mid hmid
      rw [← eq_of_mem_rowsFrom hmid (List.nodup_cons.mp hfirst).1]
      refine rowsFrom_visitsOf_ne_nil_iff records rest parent mid hothers fun v hv => ?_
      rw [eq_of_mem_rowsFrom hmid, hfresh.2 v hv]
      intro hmem
      exact hdisjoint _ (List.mem_cons_of_mem _ hmem) _ (List.mem_map_of_mem hv) rfl
    rw [KeepAll, ← rowsFrom_visits_ne_nil_iff records l parent row hfirst hfresh.1, rowsFrom_append, ne_eq,
      List.flatMap_eq_nil_iff]
    simp only [not_forall]
    constructor
    · rintro ⟨mid, hmid, hend⟩
      exact ⟨List.ne_nil_of_mem hmid, (hrest mid hmid).mp hend⟩
    · rintro ⟨hne, hkeep⟩
      obtain ⟨mid, hmid⟩ := List.exists_mem_of_ne_nil _ hne
      exact ⟨mid, hmid, (hrest mid hmid).mpr hkeep⟩

end

end Link

/-! ## Queries with one more link -/

/-- A row binds all that another one binds, to the same records. -/
def Row.Extends (out row : Row) : Prop := ∀ name r, row name = some r → out name = some r

namespace Query

variable {q : Query} {l : Link} {records : List Record}

/-- Appends a link, as a step of a builder does. -/
def addLink (q : Query) (l : Link) : Query := { q with links := q.links ++ [l] }

theorem visits_addLink (q : Query) (l : Link) : (q.addLink l).visits = q.visits ++ l.visits q.entity := by
  unfold visits addLink
  rw [Link.visitsOf_append, Link.visitsOf, Link.visitsOf, List.append_nil]

/-- A joined row binds the entity to the root record it started from, and nothing but the names of the query. -/
theorem bindings_of_mem {row : Row} (h : row ∈ (q.rootRows records).flatMap (rowsFrom records q.visits))
    (hnames : q.names.Nodup) : (∃ root, row q.entity = some root) ∧ ∀ name ∉ q.names, row name = none := by
  obtain ⟨first, hfirst, hrow⟩ := List.mem_flatMap.mp h
  obtain ⟨root, -, rfl⟩ := List.mem_map.mp hfirst
  constructor
  · refine ⟨root, ?_⟩
    rw [eq_of_mem_rowsFrom hrow (List.nodup_cons.mp hnames).1, Row.single_self]
  · intro name hname
    rw [names, List.mem_cons, not_or] at hname
    rw [eq_of_mem_rowsFrom hrow hname.2]
    exact if_neg hname.1

theorem names_addLink (q : Query) (l : Link) :
    (q.addLink l).names = q.names ++ (l.visits q.entity).map fun v => v.link.scope := by
  unfold names
  rw [visits_addLink, List.map_append]
  rfl

/-- The rows that the query joins with the link are made of those that it joins without. -/
theorem joinedRows_addLink (records : List Record) (hcomplete : ∀ v ∈ (q.addLink l).visits, v.link.Complete)
    (hsized : ∀ v ∈ (q.addLink l).visits, ∀ f, v.link.criteria = some f → f.WellSized) :
    ∃ rows, q.joinedRows records = .ok rows ∧ rows = (q.rootRows records).flatMap (rowsFrom records q.visits) ∧
      (q.addLink l).joinedRows records = .ok (rows.flatMap (rowsFrom records (l.visits q.entity))) := by
  have hextended := joinedRows_ok records hcomplete hsized
  rw [visits_addLink] at hcomplete hsized hextended
  have hrows : q.joinedRows records = .ok _ :=
    joinedRows_ok records (fun v hv => hcomplete v (List.mem_append_left _ hv))
      fun v hv => hsized v (List.mem_append_left _ hv)
  refine ⟨_, hrows, rfl, ?_⟩
  rw [hextended, List.flatMap_assoc]
  simp only [← rowsFrom_append]
  rfl

section Extensions

variable (hnames : (q.addLink l).names.Nodup) {row : Row}
  (hrow : row ∈ (q.rootRows records).flatMap (rowsFrom records q.visits))
include hnames hrow

/-- The link binds names that the row does not. -/
theorem extends_of_mem_rowsFrom {out : Row} (hout : out ∈ rowsFrom records (l.visits q.entity) row) :
    out.Extends row := by
  rw [names_addLink] at hnames
  obtain ⟨hold, -, hdisjoint⟩ := List.nodup_append.mp hnames
  intro name r hname
  rw [eq_of_mem_rowsFrom hout, hname]
  intro hscope
  have hfresh : name ∉ q.names := fun hmem => hdisjoint name hmem name hscope rfl
  rw [(bindings_of_mem hrow hold).2 name hfresh] at hname
  cases hname

/-- A row is extended by one that the link makes exactly when the link keeps it. -/
theorem exists_extends_iff : (∃ out ∈ ((q.rootRows records).flatMap (rowsFrom records q.visits)).flatMap
    (rowsFrom records (l.visits q.entity)), out.Extends row) ↔ l.Keeps records (row q.entity) := by
  have hlink : (q.entity :: (l.visits q.entity).map fun v => v.link.scope).Nodup := by
    rw [names_addLink] at hnames
    exact hnames.sublist (.cons_cons _ (List.sublist_append_right _ _))
  have hold : q.names.Nodup := by
    rw [names_addLink] at hnames
    exact (List.nodup_append.mp hnames).1
  have hkeeps : ∀ row ∈ (q.rootRows records).flatMap (rowsFrom records q.visits),
      rowsFrom records (l.visits q.entity) row ≠ [] ↔ l.Keeps records (row q.entity) := by
    intro row hrow
    refine Link.rowsFrom_visits_ne_nil_iff records l q.entity row hlink fun v hv => ?_
    refine (bindings_of_mem hrow hold).2 _ fun hmem => ?_
    rw [names_addLink] at hnames
    exact (List.nodup_append.mp hnames).2.2 _ hmem _ (List.mem_map_of_mem hv) rfl
  constructor
  · rintro ⟨out, hout, hextends⟩
    obtain ⟨other, hother, hout⟩ := List.mem_flatMap.mp hout
    -- the row that `out` was made of has the same root record
    obtain ⟨root, hroot⟩ := (bindings_of_mem hrow hold).1
    have hsame : other q.entity = row q.entity := by
      rw [← eq_of_mem_rowsFrom hout (List.nodup_cons.mp hlink).1, hroot]
      exact hextends q.entity root hroot
    rw [← hsame]
    exact (hkeeps other hother).mp (List.ne_nil_of_mem hout)
  · intro h
    obtain ⟨out, hout⟩ := List.exists_mem_of_ne_nil _ ((hkeeps row hrow).mpr h)
    exact ⟨out, List.mem_flatMap.mpr ⟨row, hrow, hout⟩, extends_of_mem_rowsFrom hnames hrow hout⟩

end Extensions

/-- **A left outer link that is added to a query keeps a row** if the links below it keep it with some record that the
link matches, or if the link matches none and all links below it are left outer. Other rows have no row that extends
them. So no row is lost when all links below are left outer. -/
theorem outer_link_keeps_rows (records : List Record) (hkind : l.kind = .leftOuter)
    (hcomplete : ∀ v ∈ (q.addLink l).visits, v.link.Complete)
    (hsized : ∀ v ∈ (q.addLink l).visits, ∀ f, v.link.criteria = some f → f.WellSized)
    (hnames : (q.addLink l).names.Nodup) :
    ∃ rows extended, q.joinedRows records = .ok rows ∧ (q.addLink l).joinedRows records = .ok extended ∧
      (∀ row ∈ rows, (∃ out ∈ extended, out.Extends row) ↔
        (∃ r ∈ records, l.Matches (l.sourceFrom (row q.entity)) r ∧ Link.KeepAll records l.links (some r)) ∨
          ((∀ r ∈ records, ¬ l.Matches (l.sourceFrom (row q.entity)) r) ∧
            ∀ v ∈ Link.visitsOf l.scope l.links, v.link.kind = .leftOuter)) ∧
      ((∀ v ∈ Link.visitsOf l.scope l.links, v.link.kind = .leftOuter) →
        ∀ row ∈ rows, ∃ out ∈ extended, out.Extends row) := by
  obtain ⟨rows, hrows, rfl, hextended⟩ := joinedRows_addLink records hcomplete hsized
  refine ⟨_, _, hrows, hextended, fun row hrow => ?_, fun hbelow row hrow => ?_⟩
  · rw [exists_extends_iff hnames hrow, Link.keeps_iff, Link.keepAll_none_iff records l.links l.scope]
    simp only [hkind, true_and]
  · rw [exists_extends_iff hnames hrow]
    refine Link.keeps_of_leftOuter records l q.entity _ ?_
    rw [Link.visits_eq, List.forall_mem_cons]
    exact ⟨hkind, hbelow⟩

/-- Two accounts whose contacts are there, of which only the first belongs to a holding. -/
theorem outer_link_keeps_rows_holding :
    let record (entity : String) (attributes : List (String × String)) : Record :=
      { logicalName := entity, attributes := .ofList (attributes.map fun e => (e.1, .string e.2)) }
    let first := record "account" [("contactid", "1")]
    let second := record "account" [("contactid", "2")]
    let records := [first, second, record "contact" [("contactid", "1"), ("parentid", "7")],
      record "contact" [("contactid", "2")], record "holding" [("holdingid", "7")]]
    let holding : Link :=
      { fromEntity := some "contact", fromAttribute := some "parentid", toEntity := some "holding",
        toAttribute := some "holdingid", kind := .natural }
    let contact : Link :=
      { fromEntity := some "account", fromAttribute := some "contactid", toEntity := some "contact",
        toAttribute := some "contactid", kind := .leftOuter, links := [holding] }
    let q : Query := { entity := "account" }
    contact.kind = .leftOuter ∧ (∀ v ∈ (q.addLink contact).visits, v.link.Complete) ∧
      (∀ v ∈ (q.addLink contact).visits, ∀ f, v.link.criteria = some f → f.WellSized) ∧
      (q.addLink contact).names.Nodup ∧
      ∃ rows extended, q.joinedRows records = .ok rows ∧ (q.addLink contact).joinedRows records = .ok extended ∧
        (∃ out ∈ extended, out.Extends (.single "account" first)) ∧
        ¬ ∃ out ∈ extended, out.Extends (.single "account" second) := by
  intro record first second records holding contact q
  have hvisits : (q.addLink contact).visits = [⟨"account", contact⟩, ⟨"contact", holding⟩] := rfl
  have hcomplete : ∀ v ∈ (q.addLink contact).visits, v.link.Complete := by
    rw [hvisits]
    rintro v (_ | ⟨_, _ | ⟨_, ⟨⟩⟩⟩) <;> exact ⟨rfl, rfl, rfl, rfl⟩
  have hsized : ∀ v ∈ (q.addLink contact).visits, ∀ f, v.link.criteria = some f → f.WellSized := by
    rw [hvisits]
    rintro v (_ | ⟨_, _ | ⟨_, ⟨⟩⟩⟩) f hf <;> cases hf
  have hnames : (q.addLink contact).names.Nodup := by decide
  obtain ⟨rows, extended, hrows, hextended, hkept, -⟩ := outer_link_keeps_rows records rfl hcomplete hsized hnames
  have hjoined : q.joinedRows records = .ok [.single "account" first, .single "account" second] := rfl
  obtain rfl : rows = _ := Except.ok.inj (hrows.symm.trans hjoined)
  refine ⟨rfl, hcomplete, hsized, hnames, _, extended, hrows, hextended, ?_, ?_⟩
  · refine (hkept _ List.mem_cons_self).mpr (.inl ⟨records[2], by simp [records], Link.joins_iff.mp rfl, ?_, trivial⟩)
    exact .inl ⟨records[4], by simp [records], Link.joins_iff.mp rfl, trivial⟩
  · intro hextends
    rcases (hkept _ (List.mem_cons_of_mem _ List.mem_cons_self)).mp hextends with ⟨r, hr, hmatches, hall⟩ | ⟨hnone, -⟩
    · have hjoins := Link.joins_iff.mpr hmatches
      simp only [records, List.mem_cons, List.not_mem_nil, or_false] at hr
      -- only the second contact is the one of the account, and it has no value for the link below
      rcases hr with rfl | rfl | rfl | rfl | rfl
      · cases hjoins
      · cases hjoins
      · cases hjoins
      · rcases hall.1 with ⟨r, -, hbelow, -⟩ | ⟨hkind, -⟩
        · cases hbelow.present
        · cases hkind
      · cases hjoins
    · exact hnone records[3] (by simp [records]) (Link.joins_iff.mp rfl)

/-- **A left outer link with an inner link below it removes an account without a contact**, although the query selects
nothing. -/
theorem inner_link_below_removes_row :
    let account : Record := { logicalName := "account", attributes := .ofList [("name", .string "Contoso")] }
    let holding : Link :=
      { fromEntity := some "contact", fromAttribute := some "parentid", toEntity := some "holding",
        toAttribute := some "holdingid" }
    let contact : Link :=
      { fromEntity := some "account", fromAttribute := some "contactid", toEntity := some "contact",
        toAttribute := some "contactid", kind := .leftOuter, links := [holding] }
    let q : Query := { entity := "account", columns := .all }
    let s : Store := { records := [account] }
    (∀ v ∈ (q.addLink contact).visits, v.link.Complete ∧ v.link.criteria = none) ∧ (q.addLink contact).names.Nodup ∧
      q.joinedRows s.records = .ok [.single "account" account] ∧
      (q.addLink contact).joinedRows s.records = .ok [] ∧
      (Store.backend q s).1 = .ok { records := [account] } ∧ (Store.backend (q.addLink contact) s).1 = .ok {} := by
  intro account holding contact q s
  have hvisits : (q.addLink contact).visits = [⟨"account", contact⟩, ⟨"contact", holding⟩] := rfl
  have hlinks : ∀ v ∈ (q.addLink contact).visits, v.link.Complete ∧ v.link.criteria = none := by
    rw [hvisits]
    rintro v (_ | ⟨_, _ | ⟨_, ⟨⟩⟩⟩) <;> exact ⟨⟨rfl, rfl, rfl, rfl⟩, rfl⟩
  have hrows : q.joinedRows s.records = .ok [.single "account" account] := rfl
  have hextended : (q.addLink contact).joinedRows s.records = .ok [] := rfl
  refine ⟨hlinks, by decide, hrows, hextended, ?_, ?_⟩
  · exact answer_eq (result_of_joinedRows rfl hrows rfl rfl rfl rfl)
  · exact answer_eq (result_of_joinedRows rfl hextended rfl rfl rfl rfl)

end Query

end EntityQuery
