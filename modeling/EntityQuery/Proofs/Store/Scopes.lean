import EntityQuery.Proofs.Store.Projection

/-!
# What names denote in the rows and records of a result

Rows bind names that the query chooses, and a link that is bound to a record binds its scope over what the name
denoted. A name that the root or one link carries alone denotes the record of its carrier in every joined row. A scope
that is the name of the entity hides the root record: the result then has the record of the link in its place.

* `Query.Derives`: a row with the root record it started from and what each link was bound to;
* `names_denote_their_records`: the law for names that are carried once, and its consequence for result records;
* `scope_hides_root`: a link whose scope is the name of the entity.
-/

namespace EntityQuery

/-! ## Names -/

namespace Query

variable {q : Query} {records : List Record} {i : Nat} {root : Record} {choices : List (Option Nat)} {row : Row}

/-- A row comes from the walk that starts from the root record at a position and makes the choices. -/
structure Derives (q : Query) (records : List Record) (i : Nat) (root : Record) (choices : List (Option Nat))
    (row : Row) : Prop where
  stored : records[i]? = some root
  named : root.logicalName = q.entity
  walk : Walk records q.visits (.single q.entity root) choices row

theorem derives_of_mem {joined : List Row} (h : q.joinedRows records = .ok joined) (hrow : row ∈ joined) :
    ∃ i root choices, q.Derives records i root choices row := by
  rw [joinedRows_eq h] at hrow
  obtain ⟨all, hall, rfl⟩ := List.mem_map.mp hrow
  obtain ⟨i, root, choices, out, rfl, hstored, hnamed, hwalk⟩ := mem_combinations_iff.mp hall
  refine ⟨i, root, choices, hstored, hnamed, ?_⟩
  have hout := hwalk.out_eq
  rw [← choose_root hstored] at hout
  rw [show Row.unbound.chooseAll records q.names (some i :: choices) = out from hout.symm]
  exact hwalk

/-- A name that is carried once denotes what its carrier was bound to. -/
theorem Derives.denotes (h : q.Derives records i root choices row) {k : Nat} {name : String} {choice : Option Nat}
    (hname : q.names[k]? = some name) (hone : q.names.count name = 1)
    (hchoice : (some i :: choices)[k]? = some choice) : row name = choice.bind (records[·]?) := by
  have hrow : row = Row.unbound.chooseAll records q.names (some i :: choices) := by
    rw [h.walk.out_eq, ← choose_root h.stored]
    rfl
  rw [hrow, Row.chooseAll_of_count_one hname hchoice hone]
  exact Option.or_none

theorem Derives.denotes_root (h : q.Derives records i root choices row) (hone : q.names.count q.entity = 1) :
    row q.entity = some root :=
  (h.denotes (k := 0) rfl hone rfl).trans h.stored

/-- A projection has the selected attributes of the root record under every name that no link can add. -/
theorem attribute?_project (h : row q.entity = some root) {name : String}
    (hname : ∀ v ∈ q.visits, ∀ x, name ≠ qualified v.link.scope x) :
    (q.project row).attribute? name = if q.columns.contains name then root.attribute? name else none := by
  unfold project Record.attribute?
  rw [h]
  refine (Link.get?_projectAll_of_forall_ne row hname _).trans ?_
  rw [SortedMap.get?_filter]
  cases q.columns.contains name <;> cases root.attributes.get? name <;> rfl

end Query

/-- **In every joined row, a name that the root or one link carries alone denotes the record of its carrier.** When no
scope is the name of the entity, every record of the page therefore has the entity's name, the identifier of its root
record, and the selected attributes of it under every name that no linked attribute can have. -/
theorem names_denote_their_records {s : Store} {q : Query} {page : Page} (h : (Store.backend q s).1 = .ok page) :
    ∃ joined, q.joinedRows s.records = .ok joined ∧
      (∀ row ∈ joined, ∃ (i : Nat) (root : Record) (choices : List (Option Nat)),
        q.Derives s.records i root choices row ∧
        ∀ (k : Nat) (name : String) (choice : Option Nat), q.names[k]? = some name → q.names.count name = 1 →
          (some i :: choices)[k]? = some choice → row name = choice.bind (s.records[·]?)) ∧
      (q.names.count q.entity = 1 → ∀ r ∈ page.records, ∃ row ∈ joined,
        ∃ (i : Nat) (root : Record) (choices : List (Option Nat)), q.Derives s.records i root choices row ∧
          r = q.project row ∧ r.logicalName = q.entity ∧ r.id = root.id ∧
          ∀ name, (∀ v ∈ q.visits, ∀ x, name ≠ qualified v.link.scope x) →
            r.attribute? name = if q.columns.contains name then root.attribute? name else none) := by
  obtain ⟨joined, hjoined, hpage⟩ := Query.mem_answer h
  refine ⟨joined, hjoined, ?_, ?_⟩
  · intro row hrow
    obtain ⟨i, root, choices, hderives⟩ := Query.derives_of_mem hjoined hrow
    exact ⟨i, root, choices, hderives, fun k name choice hname hone hchoice => hderives.denotes hname hone hchoice⟩
  · intro hone r hr
    obtain ⟨row, hrow, rfl⟩ := hpage r hr
    obtain ⟨i, root, choices, hderives⟩ := Query.derives_of_mem hjoined hrow
    have hroot := hderives.denotes_root hone
    refine ⟨row, hrow, i, root, choices, hderives, rfl, ?_, ?_, ?_⟩
    · rw [Query.logicalName_project hroot, hderives.named]
    · exact Query.id_project hroot
    · exact fun name hname => Query.attribute?_project hroot hname

/-- Two links to one entity without an alias; the names of both are the same, and the root keeps its own. -/
theorem names_denote_their_records_siblings :
    let account : Record := { logicalName := "account", attributes := .ofList [("owner", .string "1")] }
    let contact : Record := { logicalName := "contact", attributes := .ofList [("contactid", .string "1")] }
    let link : Link :=
      { fromEntity := some "account", fromAttribute := some "owner", toEntity := some "contact",
        toAttribute := some "contactid" }
    let q : Query := { entity := "account", columns := .all, links := [link, link] }
    let s : Store := { records := [contact, account] }
    (Store.backend q s).1 = .ok { records := [account] } ∧ q.names.count q.entity = 1 ∧
      ∃ (root : Record), root ∈ s.records ∧ account.logicalName = q.entity ∧ account.id = root.id := by
  intro account contact link q s
  have hjoined : q.joinedRows s.records =
      .ok [((Row.single "account" account).bind "contact" contact).bind "contact" contact] := rfl
  have hanswer : (Store.backend q s).1 = .ok { records := [account] } :=
    Query.answer_eq (Query.result_of_joinedRows rfl hjoined rfl rfl rfl rfl)
  have hone : q.names.count q.entity = 1 := by decide
  obtain ⟨joined, -, -, hpage⟩ := names_denote_their_records hanswer
  obtain ⟨row, -, i, root, choices, hderives, -, hname, hid, -⟩ := hpage hone account List.mem_cons_self
  exact ⟨hanswer, hone, root, List.mem_of_getElem? hderives.stored, hname, hid⟩

/-- **A link whose scope is the name of the entity hides the root record**: the page for accounts has a contact. -/
theorem scope_hides_root :
    let account : Record := { logicalName := "account", attributes := .ofList [("owner", .string "1")] }
    let contact : Record := { logicalName := "contact", attributes := .ofList [("contactid", .string "1")] }
    let link : Link :=
      { fromEntity := some "account", fromAttribute := some "owner", toEntity := some "contact",
        toAttribute := some "contactid", aliasName := some "account" }
    let q : Query := { entity := "account", columns := .all, links := [link] }
    ∃ page, (Store.backend q { records := [account, contact] }).1 = .ok page ∧
      ∃ r ∈ page.records, r.logicalName ≠ q.entity := by
  intro account contact link q
  have hjoined : q.joinedRows [account, contact] =
      .ok [(Row.single "account" account).bind "account" contact] := rfl
  have hanswer : (Store.backend q { records := [account, contact] }).1 = .ok { records := [contact] } :=
    Query.answer_eq (Query.result_of_joinedRows rfl hjoined rfl rfl rfl rfl)
  exact ⟨_, hanswer, contact, List.mem_cons_self, by decide⟩

end EntityQuery
