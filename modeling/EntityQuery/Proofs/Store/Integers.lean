import EntityQuery.Proofs.Json.Order
import EntityQuery.Proofs.Numeric.Integers
import EntityQuery.Proofs.Store.Visits

/-!
# Integers in conditions, joins and sort keys

Numbers are compared as doubles, so of two integers only the first 53 binary digits count. Integers up to `2 ^ 53` in
absolute value are compared as what they are. Past it different integers can be equivalent, and then conditions, joins
and sort keys do not tell them apart.

* `Number.value_toBinary64_int`: the double of an integer stands for the rounded integer;
* `Json.compare?_ofInteger`: integers compare as the rounded integers do;
* `integers_compare_rounded`: the same of sort keys, conditions and joins, and how far rounding goes;
* `neighbours_are_equivalent`: two integers next to each other that are taken for one.
-/

namespace EntityQuery

/-! ## Integers as values -/

/-- An integer that a JSON number can hold. -/
abbrev Number.Integer : Type := { n : Int // -2 ^ 63 ≤ n ∧ n < 2 ^ 64 }

/-- The integer that comparison sees. -/
def Number.Integer.rounded (n : Number.Integer) : Int := Binary64.roundInt n.1

/-- The value of an integer. -/
def Json.ofInteger (n : Number.Integer) : Json := .number (.int n.1 n.2)

/-- **The double of an integer stands for the rounded integer.** -/
theorem Number.value_toBinary64_int {n : Int} (h : -2 ^ 63 ≤ n ∧ n < 2 ^ 64) :
    (Number.int n h).toBinary64.value = Binary64.roundInt n := by
  obtain ⟨x, hx, hsign, hunits⟩ := Binary64.units_ofInt? h
  have hdouble : (Number.int n h).toBinary64 = x := by
    rw [toBinary64, hx, Option.getD_some]
  have hsigned : x.signedUnits = Binary64.roundInt n * (Binary64.unitsPerOne : Int) := by
    unfold Binary64.signedUnits Binary64.roundInt
    rw [hsign, hunits, Nat.cast_mul]
    by_cases hn : n < 0
    · rw [decide_eq_true hn, if_pos rfl, if_pos hn, Int.neg_mul]
    · rw [decide_eq_false hn, if_neg Bool.false_ne_true, if_neg hn]
  have hpos : (Binary64.unitsPerOne : ℚ) ≠ 0 := Nat.cast_ne_zero.mpr Binary64.unitsPerOne_pos.ne'
  rw [hdouble, Binary64.value, div_eq_iff hpos, hsigned, Int.cast_mul, Int.cast_natCast]

/-- Pairs in the same order compare alike. -/
theorem compare_congr {x y x' y' : Int} (hlt : x < y ↔ x' < y') (hgt : y < x ↔ y' < x') :
    compare x y = compare x' y' := by
  rcases lt_trichotomy x' y' with h | h | h
  · rw [compare_lt_iff_lt.mpr h, compare_lt_iff_lt.mpr (hlt.mpr h)]
  · rw [compare_eq_iff_eq.mpr h, compare_eq_iff_eq]
    omega
  · rw [compare_gt_iff_gt.mpr h, compare_gt_iff_gt.mpr (hgt.mpr h)]

namespace Json

variable {a b : Number.Integer}

theorem isNull_ofInteger (a : Number.Integer) : (ofInteger a).isNull = false := rfl

/-- **Integers compare as the rounded integers do.** -/
theorem compare?_ofInteger (a b : Number.Integer) :
    (ofInteger a).compare? (ofInteger b) = some (compare a.rounded b.rounded) := by
  have hrank (m n : Number.Integer) : (Number.int m.1 m.2).toBinary64.rank < (Number.int n.1 n.2).toBinary64.rank ↔
      m.rounded < n.rounded := by
    rw [Binary64.rank_lt_rank_iff, Number.value_toBinary64_int, Number.value_toBinary64_int, Int.cast_lt]
    rfl
  exact congrArg some (compare_congr (hrank a b) (hrank b a))

theorem equivalent_ofInteger (a b : Number.Integer) :
    (ofInteger a).equivalent (ofInteger b) = decide (a.rounded = b.rounded) := by
  unfold equivalent
  rw [compare?_ofInteger]
  dsimp only
  rw [Bool.eq_iff_iff, beq_iff_eq, compare_eq_iff_eq, decide_eq_true_eq]

theorem compareNullsFirst_ofInteger (a b : Number.Integer) :
    (ofInteger a).compareNullsFirst (ofInteger b) = compare a.rounded b.rounded := by
  unfold compareNullsFirst
  rw [compare?_ofInteger]
  rfl

end Json

/-! ## What rounding does to integers -/

namespace Number.Integer

variable {a b : Number.Integer}

/-- Integers that are rounded to one lie next to each other, for what they are. -/
theorem dist_le_of_rounded_eq (h : a.rounded = b.rounded) : 2 ^ 53 * |a.1 - b.1| ≤ |a.1| + |b.1| := by
  have ha : 2 ^ 53 * |a.rounded - a.1| ≤ |a.1| := Binary64.abs_roundInt_sub_le a.1
  have hb : 2 ^ 53 * |b.rounded - b.1| ≤ |b.1| := Binary64.abs_roundInt_sub_le b.1
  have htriangle := abs_sub_le a.1 a.rounded b.1
  rw [abs_sub_comm a.1 a.rounded, h] at htriangle
  rw [h] at ha
  omega

theorem compare_rounded (h : a.1.natAbs < 2 ^ 53 ∨ b.1.natAbs < 2 ^ 53 ∨ a.1.natAbs ≤ 2 ^ 53 ∧ b.1.natAbs ≤ 2 ^ 53) :
    compare a.rounded b.rounded = compare a.1 b.1 :=
  compare_congr (Binary64.roundInt_lt_iff h) (Binary64.roundInt_lt_iff (by omega))

end Number.Integer

/-! ## Conditions and links -/

section Conditions

variable {row : Row} {scope name : String} {a : Number.Integer}

theorem Condition.holds_of_integer {op : Operator} {values : List Json} {test : Json → Bool}
    (hvalue : row.value scope name = .ofInteger a) (htest : op.test? values = some test) :
    Condition.holds { attributeName := name, operator := op, values } row scope = .ok (test (.ofInteger a)) := by
  unfold Condition.holds
  rw [htest]
  show Except.ok (if (row.value scope name).isNull then _ else test (row.value scope name)) = _
  rw [hvalue, Json.isNull_ofInteger, if_neg Bool.false_ne_true]

theorem Operator.inRange_ofInteger (a low high : Number.Integer) :
    inRange (.ofInteger low) (.ofInteger high) (.ofInteger a) =
      decide (low.rounded ≤ a.rounded ∧ a.rounded ≤ high.rounded) := by
  unfold inRange onOrder
  rw [Json.compare?_ofInteger, Json.compare?_ofInteger, Bool.eq_iff_iff]
  simp [compare_ge_iff_ge, compare_le_iff_le]

end Conditions

theorem Link.matches_ofInteger_iff {l : Link} {r : Record} {name : String} {a b : Number.Integer}
    (hentity : l.toEntity = some r.logicalName) (htarget : l.toAttribute = some name) (hcriteria : l.criteria = none)
    (hvalue : r.value name = .ofInteger b) : l.Matches (.ofInteger a) r ↔ a.rounded = b.rounded := by
  have hequivalent : (Json.ofInteger a).equivalent (r.value name) = true ↔ a.rounded = b.rounded := by
    rw [hvalue, Json.equivalent_ofInteger, decide_eq_true_eq]
  constructor
  · rintro ⟨-, -, ⟨_, hname, h⟩, -⟩
    obtain rfl := Option.some.inj (htarget.symm.trans hname)
    exact hequivalent.mp h
  · intro h
    refine ⟨hentity, rfl, ⟨name, htarget, hequivalent.mpr h⟩, fun f hf => ?_⟩
    rw [hcriteria] at hf
    cases hf

/-- **Sort keys, conditions and joins see integers rounded to their first 53 binary digits.** Rounding keeps the order
of integers or lets them be equal, and those that become equal are one part in `2 ^ 53` of their size apart at most.
When one of them is below `2 ^ 53` in absolute value, or neither is above, they are compared as what they are. -/
theorem integers_compare_rounded (a b : Number.Integer) :
    Json.compare? (.ofInteger a) (.ofInteger b) = some (compare a.rounded b.rounded) ∧
    Json.compareNullsFirst (.ofInteger a) (.ofInteger b) = compare a.rounded b.rounded ∧
    (Json.equivalent (.ofInteger a) (.ofInteger b) = true ↔ a.rounded = b.rounded) ∧
    (∀ (row : Row) (scope name : String), row.value scope name = .ofInteger a →
      Condition.holds { attributeName := name, operator := .equal, values := [.ofInteger b] } row scope =
        .ok (decide (a.rounded = b.rounded)) ∧
      (∀ bs : List Number.Integer,
        Condition.holds { attributeName := name, operator := .isIn, values := bs.map .ofInteger } row scope =
          .ok (decide (∃ c ∈ bs, a.rounded = c.rounded))) ∧
      ∀ c : Number.Integer,
        Condition.holds { attributeName := name, operator := .between, values := [.ofInteger b, .ofInteger c] } row
          scope = .ok (decide (b.rounded ≤ a.rounded ∧ a.rounded ≤ c.rounded))) ∧
    (∀ (l : Link) (r : Record) (name : String), l.toEntity = some r.logicalName → l.toAttribute = some name →
      l.criteria = none → r.value name = .ofInteger b → (l.Matches (.ofInteger a) r ↔ a.rounded = b.rounded)) ∧
    (a.1 ≤ b.1 → a.rounded ≤ b.rounded) ∧
    (a.rounded = b.rounded → 2 ^ 53 * |a.1 - b.1| ≤ |a.1| + |b.1|) ∧
    (a.1.natAbs < 2 ^ 53 ∨ b.1.natAbs < 2 ^ 53 ∨ a.1.natAbs ≤ 2 ^ 53 ∧ b.1.natAbs ≤ 2 ^ 53 →
      compare a.rounded b.rounded = compare a.1 b.1) := by
  refine ⟨Json.compare?_ofInteger a b, Json.compareNullsFirst_ofInteger a b, ?_, ?_, ?_, Binary64.roundInt_mono,
    Number.Integer.dist_le_of_rounded_eq, Number.Integer.compare_rounded⟩
  · rw [Json.equivalent_ofInteger, decide_eq_true_eq]
  · intro row scope name hvalue
    refine ⟨?_, fun bs => ?_, fun c => ?_⟩
    · rw [Condition.holds_of_integer hvalue rfl, Json.equivalent_ofInteger]
    · rw [Condition.holds_of_integer hvalue rfl, List.any_map]
      simp only [Function.comp_def, Json.equivalent_ofInteger]
      rw [Except.ok.injEq, Bool.eq_iff_iff]
      simp
    · rw [Condition.holds_of_integer hvalue rfl, Operator.inRange_ofInteger]
  · exact fun l r name hentity htarget hcriteria hvalue =>
      Link.matches_ofInteger_iff hentity htarget hcriteria hvalue

/-- The last two integers up to `2 ^ 53` are told apart, and the first one past it is not told apart from the last. -/
theorem integers_compare_rounded_limit :
    let a : Number.Integer := ⟨2 ^ 53 - 1, by decide⟩
    let b : Number.Integer := ⟨2 ^ 53, by decide⟩
    let c : Number.Integer := ⟨2 ^ 53 + 1, by decide⟩
    let account : Record := { logicalName := "account", attributes := .ofList [("number", .ofInteger a)] }
    let contact : Record := { logicalName := "contact", attributes := .ofList [("number", .ofInteger b)] }
    let link : Link := { toEntity := some "contact", toAttribute := some "number" }
    (Row.single "account" account).value "account" "number" = .ofInteger a ∧
      Condition.holds { attributeName := "number", operator := .equal, values := [.ofInteger b] }
        (.single "account" account) "account" = .ok false ∧
      contact.value "number" = .ofInteger b ∧ ¬ link.Matches (.ofInteger a) contact ∧
      a.1 ≤ b.1 ∧ a.rounded ≤ b.rounded ∧ a.1.natAbs < 2 ^ 53 ∧ compare a.rounded b.rounded = compare a.1 b.1 ∧
      b.rounded = c.rounded ∧ 2 ^ 53 * |b.1 - c.1| ≤ |b.1| + |c.1| := by
  intro a b c account contact link
  have hvalue : (Row.single "account" account).value "account" "number" = .ofInteger a := rfl
  have htarget : contact.value "number" = .ofInteger b := rfl
  have hle : a.1 ≤ b.1 := by decide
  have hbelow : a.1.natAbs < 2 ^ 53 := by decide
  have hne : a.rounded ≠ b.rounded := by decide
  have heq : b.rounded = c.rounded := by decide
  obtain ⟨-, -, -, hcondition, hlink, hmono, -, hcompare⟩ := integers_compare_rounded a b
  obtain ⟨-, -, -, -, -, -, hdist, -⟩ := integers_compare_rounded b c
  refine ⟨hvalue, ?_, htarget, ?_, hle, hmono hle, hbelow, hcompare (.inl hbelow), heq, hdist heq⟩
  · rw [(hcondition _ _ _ hvalue).1, decide_eq_false hne]
  · rw [hlink link contact "number" rfl rfl rfl htarget]
    exact hne

/-- **Two integers next to each other are taken for one**: they are equivalent and compare equal, and a condition that
asks for the one accepts the other. -/
theorem neighbours_are_equivalent :
    let a : Number.Integer := ⟨9007199254740993, by decide⟩
    let b : Number.Integer := ⟨9007199254740992, by decide⟩
    let account : Record := { logicalName := "account", attributes := .ofList [("number", .ofInteger a)] }
    a ≠ b ∧ Json.equivalent (.ofInteger a) (.ofInteger b) = true ∧
      Json.compare? (.ofInteger a) (.ofInteger b) = some .eq ∧
      Condition.holds { attributeName := "number", operator := .equal, values := [.ofInteger b] }
        (.single "account" account) "account" = .ok true := by
  intro a b account
  have hrounded : a.rounded = b.rounded := by decide
  have hequivalent : Json.equivalent (.ofInteger a) (.ofInteger b) = true := by
    rw [Json.equivalent_ofInteger, decide_eq_true hrounded]
  refine ⟨by decide, hequivalent, ?_, ?_⟩
  · rw [Json.compare?_ofInteger, compare_eq_iff_eq.mpr hrounded]
  · have hvalue : (Row.single "account" account).value "account" "number" = .ofInteger a := rfl
    rw [Condition.holds_of_integer hvalue rfl, hequivalent]

end EntityQuery
