import EntityQuery.Settings.Codec
import Mathlib.Data.List.Forall2
import Mathlib.Data.List.Nodup

/-!
# Spellings of written structures

A written structure can be spelled in several ways. It is an object, whose other members do not count, or the array of
its fields in order; a name may be the only key of an object; a field that may be missing can also be null. The readers
of `Json.Decode` take exactly these spellings, and a spelling is one of a single value.

* `SpellsName`, `SpellsList`: names of a fixed list, and lists;
* `SpellsRequired`, `SpellsOptional`, `SpellsDefaulted`, `SpellsArray`: fields;
* `SpellsStructure`, `SpellsPartial`: structures, the latter with arrays that may end early;
* `bind_fields?_iff`, `bind_partialFields?_iff`: a reader of fields reads the spellings of a structure.
-/

namespace EntityQuery.Json

variable {α : Type}

/-! ## Values -/

/-- A value whose only spelling is its written form. -/
def SpellsAs (encode : α → Json) (x : α) (v : Json) : Prop := v = encode x

theorem asString?_iff (s : String) (v : Json) : v.asString? = some s ↔ SpellsAs .string s v := by
  cases v <;> simp [asString?, SpellsAs]

theorem asBool?_iff (b : Bool) (v : Json) : v.asBool? = some b ↔ SpellsAs .bool b v := by
  cases v <;> simp [asBool?, SpellsAs]

theorem asInt?_iff {v : Json} {n : Int} : v.asInt? = some n ↔ ∃ h, v = .number (.int n h) := by
  unfold asInt?
  split
  · rename_i m h
    constructor
    · intro hn
      obtain rfl := Option.some.inj hn
      exact ⟨h, rfl⟩
    · rintro ⟨_, hv⟩
      cases hv
      rfl
  · rename_i hne
    simp only [reduceCtorEq, false_iff]
    rintro ⟨h, rfl⟩
    exact hne n h rfl

theorem asUInt32?_iff (n : UInt32) (v : Json) : v.asUInt32? = some n ↔ SpellsAs .ofUInt32 n v := by
  have hlt := n.toNat_lt
  unfold asUInt32? SpellsAs
  simp only [Option.bind_eq_bind, Option.bind_eq_some_iff, asInt?_iff]
  constructor
  · rintro ⟨m, ⟨h, rfl⟩, hn⟩
    split_ifs at hn with hm
    have hsmall : m.toNat < 2 ^ 32 := by omega
    have hword : m = n.toNat := by
      rw [← Option.some.inj hn, UInt32.toNat_ofNat_of_lt' hsmall]
      omega
    subst hword
    rfl
  · rintro rfl
    have hword : (n.toNat : Int) < 2 ^ 32 := by omega
    refine ⟨n.toNat, ⟨_, rfl⟩, ?_⟩
    rw [if_pos ⟨Int.natCast_nonneg _, hword⟩, Int.toNat_natCast, UInt32.ofNat_toNat]

theorem asUInt64?_iff (n : UInt64) (v : Json) :
    v.asUInt64? = some n ↔ SpellsAs (fun n => .number (.ofUInt64 n)) n v := by
  have hlt := n.toNat_lt
  unfold asUInt64? SpellsAs
  simp only [Option.bind_eq_bind, Option.bind_eq_some_iff, asInt?_iff]
  constructor
  · rintro ⟨m, ⟨h, rfl⟩, hn⟩
    split_ifs at hn with hm
    have hsmall : m.toNat < 2 ^ 64 := by omega
    have hword : m = n.toNat := by
      rw [← Option.some.inj hn, UInt64.toNat_ofNat_of_lt' hsmall]
      omega
    subst hword
    rfl
  · rintro rfl
    have hword : (n.toNat : Int) < 2 ^ 64 := by omega
    refine ⟨n.toNat, ⟨_, rfl⟩, ?_⟩
    rw [if_pos ⟨Int.natCast_nonneg _, hword⟩, Int.toNat_natCast, UInt64.ofNat_toNat]

/-- A name of a fixed list is a text, or the only key of an object. -/
def SpellsName (name : String) (v : Json) : Prop := v = .string name ∨ v = .object [(name, .null)]

theorem find?_name_iff {name : α → String} {all : List α} (hall : ∀ x, x ∈ all) (hnames : (all.map name).Nodup)
    {s : String} {x : α} : (all.find? fun y => name y == s) = some x ↔ s = name x := by
  constructor
  · intro hfind
    have hname := List.find?_some hfind
    exact (beq_iff_eq.mp hname).symm
  · rintro rfl
    cases hfind : all.find? fun y => name y == name x with
    | none => exact absurd (beq_self_eq_true (name x)) (List.find?_eq_none.mp hfind x (hall x))
    | some y =>
      have hname : name y = name x := by simpa using List.find?_some hfind
      rw [List.inj_on_of_nodup_map hnames (hall y) (hall x) hname]

/-- One of a fixed list of names is read from the spellings of the name. -/
theorem asName?_iff {name : α → String} {all : List α} (hall : ∀ x, x ∈ all) (hnames : (all.map name).Nodup) (x : α)
    (v : Json) : asName? (fun s => all.find? fun y => name y == s) v = some x ↔ SpellsName (name x) v := by
  unfold asName? SpellsName
  split
  · rw [find?_name_iff hall hnames]
    simp
  · rw [find?_name_iff hall hnames]
    simp
  · rename_i htext hkey
    constructor
    · intro hread
      cases hread
    · rintro (rfl | rfl)
      · exact absurd rfl (htext (name x))
      · exact absurd rfl (hkey (name x))

/-- A list is the array of spellings of its items. -/
def SpellsList (spells : α → Json → Prop) (xs : List α) (v : Json) : Prop :=
  ∃ items, v = .array items ∧ List.Forall₂ spells xs items

section Readers

variable {item : Json → Option α} {spells : α → Json → Prop} (h : ∀ x v, item v = some x ↔ spells x v)
include h

theorem readAll_iff (xs : List α) (items : List Json) :
    readAll item items = some xs ↔ List.Forall₂ spells xs items := by
  induction items generalizing xs with
  | nil => cases xs <;> simp [readAll]
  | cons v rest ih =>
    simp only [readAll, Option.bind_eq_bind, Option.bind_eq_some_iff, Option.pure_def, Option.some.injEq]
    constructor
    · rintro ⟨x, hx, later, hlater, rfl⟩
      exact .cons ((h x v).mp hx) ((ih later).mp hlater)
    · rintro (_ | ⟨hx, hlater⟩)
      exact ⟨_, (h _ v).mpr hx, _, (ih _).mpr hlater, rfl⟩

theorem asList?_iff (xs : List α) (v : Json) : v.asList? item = some xs ↔ SpellsList spells xs v := by
  unfold asList?
  split
  · rename_i items
    rw [readAll_iff h]
    constructor
    · intro hall
      exact ⟨items, rfl, hall⟩
    · rintro ⟨_, ⟨⟩, hall⟩
      exact hall
  · rename_i hne
    constructor
    · intro hread
      cases hread
    · rintro ⟨items, rfl, -⟩
      exact absurd rfl (hne items)

end Readers

/-! ## Fields -/

/-- A field that has to be there. -/
def SpellsRequired (spells : α → Json → Prop) (x : α) (field : Option Json) : Prop := ∃ v, field = some v ∧ spells x v

/-- A field that may be absent or null. -/
def SpellsOptional (spells : α → Json → Prop) : Option α → Option Json → Prop
  | none, field => field = none ∨ field = some .null
  | some x, field => SpellsRequired spells x field

/-- A field that may be absent and has a value then. -/
def SpellsDefaulted (missing : α) (spells : α → Json → Prop) (x : α) (field : Option Json) : Prop :=
  field = none ∧ x = missing ∨ SpellsRequired spells x field

/-- A field that has to be there and is an array with these items. -/
def SpellsArray (spellsAll : List Json → Prop) (field : Option Json) : Prop :=
  ∃ items, field = some (.array items) ∧ spellsAll items

section Fields

variable {item : Json → Option α} {spells : α → Json → Prop} (h : ∀ x v, item v = some x ↔ spells x v)
include h

theorem required?_iff {x : α} {field : Option Json} :
    required? field item = some x ↔ SpellsRequired spells x field := by
  unfold required? SpellsRequired
  simp only [Option.bind_eq_some_iff, h]

theorem optional?_iff (hnull : item .null = none) {x : Option α} {field : Option Json} :
    optional? field item = some x ↔ SpellsOptional spells x field := by
  have hnever : ∀ x, ¬ spells x .null := by
    intro x hx
    rw [← h, hnull] at hx
    cases hx
  cases field with
  | none => cases x <;> simp [optional?, SpellsOptional, SpellsRequired]
  | some v =>
    by_cases hv : v.isNull = true
    · obtain rfl : v = .null := by cases v <;> simp_all [isNull]
      cases x <;> simp [optional?, asNullable?, isNull, SpellsOptional, SpellsRequired, hnever]
    · have hne : v ≠ .null := fun heq => hv (heq ▸ rfl)
      cases x <;> simp [optional?, asNullable?, hv, SpellsOptional, SpellsRequired, hne, h]

theorem default?_iff {missing x : α} {field : Option Json} :
    default? missing field item = some x ↔ SpellsDefaulted missing spells x field := by
  cases field with
  | none => simp [default?, SpellsDefaulted, SpellsRequired, eq_comm]
  | some v => simp [default?, SpellsDefaulted, SpellsRequired, h]

end Fields

/-! ## Structures -/

/-- A structure whose fields have these names and spellings: an object, or the array of all fields in order. -/
inductive SpellsStructure (fields : List (String × (Option Json → Prop))) : Json → Prop where
  | object {members : List (String × Json)} (h : ∀ f ∈ fields, f.2 (members.lookup f.1)) :
    SpellsStructure fields (.object members)
  | array {items : List Json} (h : List.Forall₂ (fun f v => f.2 (some v)) fields items) :
    SpellsStructure fields (.array items)

/-- The same, where an array may end before the last fields, which are absent then. -/
inductive SpellsPartial (fields : List (String × (Option Json → Prop))) : Json → Prop where
  | object {members : List (String × Json)} (h : ∀ f ∈ fields, f.2 (members.lookup f.1)) :
    SpellsPartial fields (.object members)
  | array {items : List Json} (missing : Nat)
    (h : List.Forall₂ (fun f field => f.2 field) fields (items.map some ++ List.replicate missing none)) :
    SpellsPartial fields (.array items)

section Structures

variable {fields : List (String × (Option Json → Prop))} {v : Json}

/-- The members of an object are the fields in order when each is a field of its name. -/
theorem forall₂_lookup_iff {members : List (String × Json)} :
    List.Forall₂ (fun f field => f.2 field) fields ((fields.map Prod.fst).map fun name => members.lookup name) ↔
      ∀ f ∈ fields, f.2 (members.lookup f.1) := by
  rw [List.map_map, List.forall₂_map_right_iff, List.forall₂_same]
  rfl

theorem bind_fields?_iff {names : List String} {read : List (Option Json) → Option α} {x : α}
    (hnames : fields.map Prod.fst = names)
    (h : ∀ given, read given = some x ↔ List.Forall₂ (fun f field => f.2 field) fields given) :
    v.fields? names >>= read = some x ↔ SpellsStructure fields v := by
  subst hnames
  simp only [Option.bind_eq_bind, Option.bind_eq_some_iff, h]
  constructor
  · rintro ⟨given, hgiven, hall⟩
    unfold fields? at hgiven
    split at hgiven
    · obtain rfl := Option.some.inj hgiven
      exact .object (forall₂_lookup_iff.mp hall)
    · split_ifs at hgiven
      obtain rfl := Option.some.inj hgiven
      exact .array (List.forall₂_map_right_iff.mp hall)
    · cases hgiven
  · rintro (hall | hall)
    · exact ⟨_, rfl, forall₂_lookup_iff.mpr hall⟩
    · refine ⟨_, if_pos ?_, List.forall₂_map_right_iff.mpr hall⟩
      rw [List.length_map, hall.length_eq]

theorem bind_partialFields?_iff {names : List String} {read : List (Option Json) → Option α} {x : α}
    (hnames : fields.map Prod.fst = names)
    (h : ∀ given, read given = some x ↔ List.Forall₂ (fun f field => f.2 field) fields given) :
    v.partialFields? names >>= read = some x ↔ SpellsPartial fields v := by
  subst hnames
  simp only [Option.bind_eq_bind, Option.bind_eq_some_iff, h]
  constructor
  · rintro ⟨given, hgiven, hall⟩
    unfold partialFields? at hgiven
    split at hgiven
    · obtain rfl := Option.some.inj hgiven
      exact .object (forall₂_lookup_iff.mp hall)
    · split_ifs at hgiven
      obtain rfl := Option.some.inj hgiven
      exact .array _ hall
    · cases hgiven
  · rintro (hall | ⟨missing, hall⟩)
    · exact ⟨_, rfl, forall₂_lookup_iff.mpr hall⟩
    · have hlength := hall.length_eq
      rw [List.length_append, List.length_map, List.length_replicate] at hlength
      refine ⟨_, if_pos ?_, ?_⟩
      · rw [List.length_map]
        omega
      · rw [List.length_map, hlength, Nat.add_sub_cancel_left]
        exact hall

end Structures

end EntityQuery.Json
