import EntityQuery.Proofs.Store.Walks
import Mathlib.Data.List.Forall2

/-!
# What a join gives

A combination chooses the position of a root record and, for each link in pre-order, the position of a record that the
link matches, or nothing for a left outer link that matches none. `Query.IsCombination` says so of the finished row
alone: each link reads its source value from the record that the scope it starts from denotes there. When the names
are distinct, no later choice touches that record, and so this is what a walk chooses one link after the other.

* `StartsFrom`: every link of a tree starts from a name that was bound before it;
* `walk_iff`: a walk is judged by its last row;
* `joinedRows_are_combinations`: the joined rows are those of the combinations, in lexicographic order, each once.
-/

namespace EntityQuery

/-! ## Names that links start from -/

/-- Each link starts from a known name or from the scope of an earlier link. -/
def StartsFrom : List String → List Visit → Prop
  | _, [] => True
  | known, v :: rest => v.parent ∈ known ∧ StartsFrom (known ++ [v.link.scope]) rest

namespace StartsFrom

variable {known known' : List String} {vs ws : List Visit}

theorem mono (h : StartsFrom known vs) (hsub : known ⊆ known') : StartsFrom known' vs := by
  induction vs generalizing known known' with
  | nil => trivial
  | cons v rest ih =>
    refine ⟨hsub h.1, ih h.2 ?_⟩
    exact List.append_subset.mpr
      ⟨List.subset_append_of_subset_left _ hsub, List.subset_append_right _ _⟩

theorem append (hv : StartsFrom known vs) (hw : StartsFrom known ws) : StartsFrom known (vs ++ ws) := by
  induction vs generalizing known with
  | nil => exact hw
  | cons v rest ih => exact ⟨hv.1, ih hv.2 (hw.mono (List.subset_append_left _ _))⟩

end StartsFrom

namespace Link

mutual

theorem startsFrom_visits : ∀ (l : Link) {parent : String} {known : List String}, parent ∈ known →
    StartsFrom known (l.visits parent)
  | ⟨fromEntity, fromAttribute, toEntity, toAttribute, aliasName, kind, columns, criteria, links⟩, parent, known,
      hparent => by
    rw [visits_eq]
    exact ⟨hparent, startsFrom_visitsOf links (List.mem_append_right _ (List.mem_singleton.mpr rfl))⟩

theorem startsFrom_visitsOf : ∀ (links : List Link) {parent : String} {known : List String}, parent ∈ known →
    StartsFrom known (visitsOf parent links)
  | [], _, _, _ => trivial
  | l :: rest, _, _, hparent => (startsFrom_visits l hparent).append (startsFrom_visitsOf rest hparent)

end

end Link

/-! ## Walks and their last rows -/

section Walks

variable {records : List Record} {vs : List Visit} {known : List String}

/-- When the names are distinct, the choices of a walk are those that its last row allows. -/
theorem walk_iff (hstarts : StartsFrom known vs) (hnames : (known ++ vs.map fun v => v.link.scope).Nodup)
    (row : Row) (choices : List (Option Nat)) (out : Row) : Walk records vs row choices out ↔
      out = row.chooseAll records (vs.map fun v => v.link.scope) choices ∧
        List.Forall₂ (fun v choice => v.Allows records out choice) vs choices := by
  induction vs generalizing known row choices with
  | nil =>
    constructor
    · rintro ⟨⟩
      exact ⟨rfl, .nil⟩
    · rintro ⟨rfl, ⟨⟩⟩
      exact .done _
  | cons v rest ih =>
    -- neither the link nor a later one binds the name that the link starts from
    have hkept : v.parent ∉ v.link.scope :: rest.map fun v => v.link.scope :=
      (List.nodup_append.mp hnames).2.2 |> fun hne hmem => hne _ hstarts.1 _ hmem rfl
    have hlater : ((known ++ [v.link.scope]) ++ rest.map fun v => v.link.scope).Nodup := by
      rw [List.append_assoc]
      exact hnames
    have hsource : ∀ choice later, out = row.chooseAll records (v.link.scope :: rest.map fun v => v.link.scope)
        (choice :: later) → (v.Allows records row choice ↔ v.Allows records out choice) := by
      intro choice later hout
      rw [hout]
      exact Visit.allows_congr (Row.chooseAll_of_not_mem hkept _).symm choice
    constructor
    · rintro (- | ⟨hallows, hrest⟩)
      obtain ⟨hout, hall⟩ := (ih hstarts.2 hlater _ _).mp hrest
      exact ⟨hout, .cons ((hsource _ _ hout).mp hallows) hall⟩
    · rintro ⟨hout, - | ⟨hallows, hall⟩⟩
      exact .step ((hsource _ _ hout).mpr hallows) ((ih hstarts.2 hlater _ _).mpr ⟨hout, hall⟩)

end Walks

/-! ## Combinations -/

namespace Query

variable {q : Query} {records : List Record}

/-- The row that binds every name to the record at the position chosen for it, if one is. -/
def rowOf (q : Query) (records : List Record) (choices : List (Option Nat)) : Row := fun name =>
  ((q.names.zip choices).lookup name).join.bind (records[·]?)

/-- A root record of the entity, and for every link what the finished row allows. -/
def IsCombination (q : Query) (records : List Record) : List (Option Nat) → Prop
  | some i :: choices => (∃ root, records[i]? = some root ∧ root.logicalName = q.entity) ∧
    List.Forall₂ (fun v choice => v.Allows records (q.rowOf records (some i :: choices)) choice) q.visits choices
  | _ => False

end Query

theorem Row.chooseAll_eq_lookup {names : List String} (hnames : names.Nodup) (records : List Record) (row : Row)
    (choices : List (Option Nat)) (name : String) : row.chooseAll records names choices name =
      (((names.zip choices).lookup name).join.bind (records[·]?)).or (row name) := by
  induction names generalizing row choices with
  | nil => rfl
  | cons scope names ih =>
    cases choices with
    | nil => rfl
    | cons choice choices =>
      rw [List.nodup_cons] at hnames
      rw [chooseAll, List.zip_cons_cons, List.lookup_cons]
      by_cases hname : name = scope
      · subst hname
        rw [chooseAll_of_not_mem hnames.1, choose_self, beq_self_eq_true]
        rfl
      · rw [ih hnames.2, choose_of_ne hname, beq_false_of_ne hname]

namespace Query

variable {q : Query} {records : List Record}

theorem chooseAll_names (hnames : q.names.Nodup) (records : List Record) (choices : List (Option Nat)) :
    Row.unbound.chooseAll records q.names choices = q.rowOf records choices := by
  funext name
  rw [Row.chooseAll_eq_lookup hnames, rowOf]
  exact Option.or_none

/-- The walks from the root records are the combinations. -/
theorem mem_combinations_iff_isCombination (hnames : q.names.Nodup) (choices : List (Option Nat)) :
    choices ∈ q.combinations records ↔ q.IsCombination records choices := by
  have hstarts : StartsFrom [q.entity] q.visits := Link.startsFrom_visitsOf q.links (List.mem_singleton.mpr rfl)
  have hrow : ∀ {i : Nat} {root : Record} {later : List (Option Nat)}, records[i]? = some root →
      (Row.single q.entity root).chooseAll records (q.visits.map fun v => v.link.scope) later =
        q.rowOf records (some i :: later) := by
    intro i root later hroot
    rw [← chooseAll_names hnames, ← choose_root hroot]
    rfl
  rw [mem_combinations_iff]
  constructor
  · rintro ⟨i, root, later, out, rfl, hroot, hname, hwalk⟩
    obtain ⟨hout, hall⟩ := (walk_iff hstarts hnames _ _ _).mp hwalk
    rw [hout, hrow hroot] at hall
    exact ⟨⟨root, hroot, hname⟩, hall⟩
  · intro h
    match choices, h with
    | some i :: later, ⟨⟨root, hroot, hname⟩, hall⟩ =>
      rw [← hrow hroot] at hall
      exact ⟨i, root, later, _, rfl, hroot, hname, (walk_iff hstarts hnames _ _ _).mpr ⟨rfl, hall⟩⟩

/-- **The joined rows are those of the combinations, in lexicographic order of the positions, each once.** It takes
that every link has its four parts and well-sized criteria, and that the entity and the scopes are distinct names. -/
theorem joinedRows_are_combinations (records : List Record) (hcomplete : ∀ v ∈ q.visits, v.link.Complete)
    (hsized : ∀ v ∈ q.visits, ∀ f, v.link.criteria = some f → f.WellSized) (hnames : q.names.Nodup) :
    ∃ combinations : List (List (Option Nat)),
      (∀ choices, choices ∈ combinations ↔ q.IsCombination records choices) ∧
      combinations.Pairwise (· < ·) ∧
      q.joinedRows records = .ok (combinations.map (q.rowOf records)) := by
  obtain ⟨joined, hjoined⟩ := Link.followAll_ok records q.entity q.links (q.rootRows records) hcomplete hsized
  have hrows : joined = (q.combinations records).map (q.rowOf records) := by
    rw [joinedRows_eq hjoined]
    exact List.map_congr_left fun choices _ => chooseAll_names hnames records choices
  refine ⟨q.combinations records, mem_combinations_iff_isCombination hnames, q.pairwise_combinations records, ?_⟩
  rw [← hrows]
  exact hjoined

/-- An account with two contacts of which one belongs to a holding; the other contact has no name and does not count. -/
theorem joinedRows_are_combinations_holdings :
    let record (entity : String) (attributes : List (String × String)) : Record :=
      { logicalName := entity, attributes := .ofList (attributes.map fun e => (e.1, .string e.2)) }
    let records := [record "account" [("contactid", "1")], record "contact" [("contactid", "1"), ("name", "Ann")],
      record "contact" [("contactid", "1")],
      record "contact" [("contactid", "1"), ("name", "Bob"), ("parentid", "7")], record "holding" [("holdingid", "7")]]
    let named : Filter := { conditions := [{ attributeName := "name", operator := .notNull }] }
    let parent : Link :=
      { fromEntity := some "contact", fromAttribute := some "parentid", toEntity := some "holding",
        toAttribute := some "holdingid", kind := .leftOuter }
    let primary : Link :=
      { fromEntity := some "account", fromAttribute := some "contactid", toEntity := some "contact",
        toAttribute := some "contactid", aliasName := some "pc", criteria := some named, links := [parent] }
    let q : Query := { entity := "account", links := [primary] }
    (∀ v ∈ q.visits, v.link.Complete) ∧ (∀ v ∈ q.visits, ∀ f, v.link.criteria = some f → f.WellSized) ∧
      q.names.Nodup ∧ q.IsCombination records [some 0, some 1, none] ∧
      ∃ combinations : List (List (Option Nat)),
        (∀ choices, choices ∈ combinations ↔ q.IsCombination records choices) ∧
        combinations.Pairwise (· < ·) ∧
        q.joinedRows records = .ok (combinations.map (q.rowOf records)) := by
  intro record records named parent primary q
  have hvisits : q.visits = [⟨"account", primary⟩, ⟨"pc", parent⟩] := rfl
  have hcomplete : ∀ v ∈ q.visits, v.link.Complete := by
    rw [hvisits]
    rintro v (_ | ⟨_, _ | ⟨_, ⟨⟩⟩⟩) <;> exact ⟨rfl, rfl, rfl, rfl⟩
  have hsized : ∀ v ∈ q.visits, ∀ f, v.link.criteria = some f → f.WellSized := by
    rw [hvisits]
    rintro v (_ | ⟨_, _ | ⟨_, ⟨⟩⟩⟩) f hf
    · cases hf
      rintro c (_ | ⟨_, ⟨⟩⟩) n hn
      cases hn
      rfl
    · cases hf
  have hnames : q.names.Nodup := by decide
  obtain ⟨combinations, hmem, hsorted, hjoined⟩ := joinedRows_are_combinations records hcomplete hsized hnames
  refine ⟨hcomplete, hsized, hnames, ⟨⟨_, rfl, rfl⟩, ?_⟩, combinations, hmem, hsorted, hjoined⟩
  rw [hvisits]
  refine .cons ⟨_, rfl, rfl, rfl, ⟨_, rfl, rfl⟩, ?_⟩ (.cons ⟨rfl, ?_⟩ .nil)
  · rintro f hf
    cases hf
    rfl
  · intro r _ hmatches
    exact absurd hmatches.present (by decide)

end Query

end EntityQuery
