import EntityQuery.Proofs.Building.Rearrangements

/-!
# Requests for columns

Some steps in building a query or a link ask for columns, by name or all of them. Names are added to those asked for
before. A request for all columns takes the place of what was asked before it, and names after it take its place. So the
requests after the last one for all columns decide, and among them only which names there are.

* `Columns.after`: the columns that requests lead to;
* `Columns.AskedForAll`, `Columns.AskedFor`: what a list of requests asks for;
* `Columns.after_eq_all_iff`, `Columns.mem_names_after`: the columns are those asked for;
* `Query.columns_build`, `Link.columns_applyAll`: the columns of a query and of a link come from the requests;
* `last_requests_decide`: all of this, and that requests for the same names can stand for each other.
-/

namespace EntityQuery

/-- A request for columns. -/
inductive ColumnRequest where
  | names (names : List String)
  | all
deriving DecidableEq

namespace ColumnRequest

/-- Makes a request. -/
def apply (c : Columns) : ColumnRequest → Columns
  | names asked => c.add asked
  | all => .all

/-- The names in a request. -/
def named : ColumnRequest → List String
  | names asked => asked
  | all => []

/-- A name is in a request that no request for all columns follows. -/
def NamedLately (requests : List ColumnRequest) (name : String) : Prop :=
  ∃ recent, recent <:+ requests ∧ all ∉ recent ∧ name ∈ recent.flatMap named

/-- Requests by name alone that ask for the same names. Either there are requests in both lists or in none, since even a
request without names takes the place of all columns. -/
structure SameNames (requests requests' : List ColumnRequest) : Prop where
  all_notMem : all ∉ requests
  all_notMem' : all ∉ requests'
  nil_iff : requests = [] ↔ requests' = []
  mem_iff (name : String) : name ∈ requests.flatMap named ↔ name ∈ requests'.flatMap named

end ColumnRequest

/-- The request that a step in building a query makes. -/
def QueryStep.columnRequest? : QueryStep → Option ColumnRequest
  | .columns names => some (.names names)
  | .allColumns => some .all
  | _ => none

/-- The request that a step in building a link makes. -/
def LinkStep.columnRequest? : LinkStep → Option ColumnRequest
  | .columns names => some (.names names)
  | .allColumns => some .all
  | _ => none

namespace Columns

/-- The columns after requests. -/
def after (c : Columns) (requests : List ColumnRequest) : Columns := requests.foldl ColumnRequest.apply c

/-- The last request is for all columns, or there is none and all columns were asked for to begin with. -/
def AskedForAll (c : Columns) (requests : List ColumnRequest) : Prop :=
  requests.getLast? = some .all ∨ requests = [] ∧ c = .all

/-- A name is asked for after the last request for all columns, or there is no such request and the name was asked for
to begin with. -/
def AskedFor (c : Columns) (requests : List ColumnRequest) (name : String) : Prop :=
  ColumnRequest.NamedLately requests name ∨ .all ∉ requests ∧ name ∈ c.names

variable {c : Columns} {name : String} {request : ColumnRequest} {requests requests' : List ColumnRequest}

@[simp] theorem after_nil (c : Columns) : c.after [] = c := rfl

@[simp] theorem after_cons (c : Columns) (request : ColumnRequest) (requests : List ColumnRequest) :
    c.after (request :: requests) = (request.apply c).after requests := rfl

theorem after_append (c : Columns) (requests more : List ColumnRequest) :
    c.after (requests ++ more) = (c.after requests).after more := List.foldl_append

/-! ## What requests ask for -/

theorem not_namedLately_nil : ¬ ColumnRequest.NamedLately [] name := by
  rintro ⟨recent, hrecent, -, hname⟩
  obtain rfl := List.suffix_nil.mp hrecent
  simp at hname

theorem namedLately_cons :
    ColumnRequest.NamedLately (request :: requests) name ↔
      (.all ∉ request :: requests ∧ name ∈ request.named) ∨ ColumnRequest.NamedLately requests name := by
  constructor
  · rintro ⟨recent, hrecent, hall, hname⟩
    rcases List.suffix_cons_iff.mp hrecent with rfl | hrecent
    · rcases List.mem_append.mp (List.flatMap_cons ▸ hname) with hname | hname
      · exact .inl ⟨hall, hname⟩
      · exact .inr ⟨requests, List.suffix_rfl, List.not_mem_of_not_mem_cons hall, hname⟩
    · exact .inr ⟨recent, hrecent, hall, hname⟩
  · rintro (⟨hall, hname⟩ | ⟨recent, hrecent, hall, hname⟩)
    · exact ⟨_, List.suffix_rfl, hall, List.flatMap_cons ▸ List.mem_append_left _ hname⟩
    · exact ⟨recent, hrecent.trans (List.suffix_cons request requests), hall, hname⟩

/-- What is asked for does not change when the first request is made. -/
theorem askedFor_cons : c.AskedFor (request :: requests) name ↔ (request.apply c).AskedFor requests name := by
  unfold AskedFor
  rw [namedLately_cons]
  cases request with
  | names asked =>
    have happly : name ∈ ((ColumnRequest.names asked).apply c).names ↔ name ∈ asked ∨ name ∈ c.names := mem_names_add
    have hall : .all ∉ ColumnRequest.names asked :: requests ↔ .all ∉ requests := by simp
    rw [happly, hall]
    show (_ ∧ name ∈ asked ∨ _) ∨ _ ↔ _
    tauto
  | all => simp [ColumnRequest.apply]

/-- **The names of the columns are those asked for.** -/
theorem mem_names_after : name ∈ (c.after requests).names ↔ c.AskedFor requests name := by
  induction requests generalizing c with
  | nil => simp [AskedFor, not_namedLately_nil]
  | cons request rest ih => exact ih.trans askedFor_cons.symm

/-- **The columns are all when all are asked for.** -/
theorem after_eq_all_iff : c.after requests = .all ↔ c.AskedForAll requests := by
  unfold AskedForAll
  rcases List.eq_nil_or_concat requests with rfl | ⟨before, last, rfl⟩
  · simp
  · rw [List.concat_eq_append, after_append, List.getLast?_concat]
    cases last with
    | names asked =>
      have hadd : (ColumnRequest.names asked).apply (c.after before) ≠ .all := add_ne_all (c.after before) asked
      simpa using hadd
    | all => simp [ColumnRequest.apply]

/-- Of requests by name alone, all names are asked for. -/
theorem askedFor_of_notMem (h : .all ∉ requests) :
    c.AskedFor requests name ↔ name ∈ requests.flatMap ColumnRequest.named ∨ name ∈ c.names := by
  constructor
  · rintro (⟨recent, hrecent, -, hname⟩ | ⟨-, hname⟩)
    · obtain ⟨request, hrequest, hname⟩ := List.mem_flatMap.mp hname
      exact .inl (List.mem_flatMap.mpr ⟨request, hrecent.subset hrequest, hname⟩)
    · exact .inr hname
  · rintro (hname | hname)
    · exact .inl ⟨requests, List.suffix_rfl, h, hname⟩
    · exact .inr ⟨h, hname⟩

theorem askedForAll_of_notMem (h : .all ∉ requests) : c.AskedForAll requests ↔ requests = [] ∧ c = .all :=
  or_iff_right fun hlast => h (List.mem_of_getLast? hlast)

/-- **Requests for the same names can stand for each other.** -/
theorem after_congr (h : ColumnRequest.SameNames requests requests') (c : Columns) :
    c.after requests = c.after requests' := by
  refine eq_of_names ?_ fun name => ?_
  · rw [after_eq_all_iff, after_eq_all_iff, askedForAll_of_notMem h.all_notMem, askedForAll_of_notMem h.all_notMem',
      h.nil_iff]
  · rw [mem_names_after, mem_names_after, askedFor_of_notMem h.all_notMem, askedFor_of_notMem h.all_notMem',
      h.mem_iff name]

end Columns

/-! ## Queries and links -/

/-- The columns of a query come from the requests among the steps. -/
theorem Query.columns_build (q : Query) (steps : List QueryStep) :
    (q.build steps).columns = q.columns.after (steps.filterMap QueryStep.columnRequest?) := by
  rw [Columns.after, List.foldl_filterMap]
  refine (List.foldl_hom Query.columns fun q step => ?_).symm
  cases step <;> rfl

/-- The columns of a link come from the requests among the steps. -/
theorem Link.columns_applyAll (l : Link) (steps : List LinkStep) :
    (LinkStep.applyAll steps l).columns = l.columns.after (steps.filterMap LinkStep.columnRequest?) := by
  rw [Columns.after, List.foldl_filterMap, LinkStep.applyAll_eq_foldl]
  refine (List.foldl_hom Link.columns fun l step => ?_).symm
  cases step with
  | key k name => cases k <;> rfl
  | _ => rfl

/-! ## The last requests -/

/-- **The last requests decide on the columns.** Whatever was asked for to begin with, requests lead to all columns when
the last one is for all of them, or when there is no request and there were all of them before. Otherwise they lead to
an explicit set: the names in the requests that no request for all columns follows, with the names from before if none
is for all columns. The names are listed in increasing order, and a column is returned when all are or when it was asked
for. Some requests by name can stand for others with the same names, whatever comes before and after them, so neither
their order nor how names are grouped or repeated counts. The columns of a query and of a link are those after the
requests among the steps that build it. -/
theorem last_requests_decide (c : Columns) (requests : List ColumnRequest) :
    (c.after requests = .all ↔ c.AskedForAll requests) ∧
    (¬ c.AskedForAll requests →
      ∃ s, c.after requests = .only s ∧ ∀ name, name ∈ s.names ↔ c.AskedFor requests name) ∧
    (c.after requests).names.Pairwise (· < ·) ∧
    (∀ name, name ∈ (c.after requests).names ↔ c.AskedFor requests name) ∧
    (∀ name, (c.after requests).contains name = true ↔ c.AskedForAll requests ∨ c.AskedFor requests name) ∧
    (∀ between between' more : List ColumnRequest, ColumnRequest.SameNames between between' →
      c.after (requests ++ between ++ more) = c.after (requests ++ between' ++ more)) ∧
    (∀ (q : Query) (steps : List QueryStep),
      (q.build steps).columns = q.columns.after (steps.filterMap QueryStep.columnRequest?)) ∧
    (∀ (l : Link) (steps : List LinkStep),
      (LinkStep.applyAll steps l).columns = l.columns.after (steps.filterMap LinkStep.columnRequest?)) := by
  refine ⟨Columns.after_eq_all_iff, fun hall => ?_, (c.after requests).pairwise_names,
    fun name => Columns.mem_names_after, fun name => ?_, fun between between' more hsame => ?_, Query.columns_build,
    Link.columns_applyAll⟩
  · have hnames : ∀ name, name ∈ (c.after requests).names ↔ c.AskedFor requests name :=
      fun name => Columns.mem_names_after
    cases hafter : c.after requests with
    | all => exact absurd (Columns.after_eq_all_iff.mp hafter) hall
    | only s => exact ⟨s, rfl, by rwa [hafter] at hnames⟩
  · rw [Columns.contains_iff, Columns.after_eq_all_iff, Columns.mem_names_after]
  · rw [Columns.after_append, Columns.after_append, Columns.after_append, Columns.after_append,
      Columns.after_congr hsame]

/-- Names before and after a request for all columns, on a query that a link is added to. The names after it are asked
for in another order, in other groups and twice. -/
theorem last_requests_decide_regrouped :
    let c : Columns := .only (.ofList ["owner"])
    let requests : List ColumnRequest := [.names ["city"], .all, .names []]
    let between : List ColumnRequest := [.names ["phone", "name"], .names ["email"]]
    let between' : List ColumnRequest := [.names ["email"], .names [], .names ["name", "phone", "name"]]
    let q : Query := { entity := "account", columns := c }
    let steps : List QueryStep :=
      [.columns ["city"], .allColumns, .link [.columns ["fullname"]], .columns [], .columns ["phone", "name"],
        .top none, .columns ["email"]]
    ¬ c.AskedForAll requests ∧ (∃ s, c.after requests = .only s ∧ ∀ name, name ∈ s.names ↔ c.AskedFor requests name) ∧
      ColumnRequest.SameNames between between' ∧
      (q.build steps).columns = c.after (requests ++ between' ++ []) ∧
      (q.build steps).columns.names = ["email", "name", "phone"] := by
  intro c requests between between' q steps
  have hall : ¬ c.AskedForAll requests := by
    rintro (h | ⟨h, -⟩)
    · exact absurd h (by decide)
    · exact absurd h (by decide)
  have hsame : ColumnRequest.SameNames between between' := by
    refine ⟨by decide, by decide, by decide, fun name => ?_⟩
    show name ∈ ["phone", "name", "email"] ↔ name ∈ ["email", "name", "phone", "name"]
    simp only [List.mem_cons, List.not_mem_nil, or_false]
    tauto
  obtain ⟨-, hset, -, -, -, hcongr, hquery, -⟩ := last_requests_decide c requests
  exact ⟨hall, hset hall, hsame, (hquery q steps).trans (hcongr between between' [] hsame), by decide⟩

end EntityQuery
