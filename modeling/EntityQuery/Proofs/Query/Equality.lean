import EntityQuery.Proofs.Json.Same
import EntityQuery.Proofs.Query.CacheKey
import EntityQuery.Query.Equality

/-!
# Equal queries and their keys

Doubles in condition values are equal as IEEE asks, so that the two zeros are equal, but the canonical text writes
the sign of a zero. Equal queries have one fingerprint and one key when their zeros have the same signs, and only
then.

* `Json.zeroSigns`, `Query.zeroSigns`: the signs of the zeros, in reading order;
* `SignsSettle`: signs that are all that two equal values may differ in;
* `Json.settle_of_same`, `Filter.settle_of_same`, `Link.settle_of_same`: through all values, filters and links;
* `Query.same_queries_share_keys`: when equal queries share their keys.
-/

namespace EntityQuery

/-! ## The signs of zeros -/

/-- The sign of a double that is zero. -/
def Binary64.zeroSigns (x : Binary64) : List Bool := if x.magnitude = 0 then [x.negative] else []

def Number.zeroSigns : Number → List Bool
  | .int _ _ => []
  | .float x => x.zeroSigns

namespace Json

mutual

/-- The signs of the zero doubles in a value, in reading order. -/
def zeroSigns : Json → List Bool
  | .number n => n.zeroSigns
  | .array items => zeroSignsOfItems items
  | .object members => zeroSignsOfMembers members
  | _ => []

def zeroSignsOfItems : List Json → List Bool
  | [] => []
  | x :: rest => zeroSigns x ++ zeroSignsOfItems rest

def zeroSignsOfMembers : List (String × Json) → List Bool
  | [] => []
  | (_, x) :: rest => zeroSigns x ++ zeroSignsOfMembers rest

end

end Json

def Condition.zeroSigns (c : Condition) : List Bool := Json.zeroSignsOfItems c.values

mutual

/-- The signs of the zeros in the values of a filter. -/
def Filter.zeroSigns : Filter → List Bool
  | ⟨_, conditions, filters⟩ => conditions.flatMap Condition.zeroSigns ++ Filter.zeroSignsOfAll filters

def Filter.zeroSignsOfAll : List Filter → List Bool
  | [] => []
  | f :: rest => Filter.zeroSigns f ++ Filter.zeroSignsOfAll rest

end

mutual

/-- The signs of the zeros in the criteria of a link and of the links below it. -/
def Link.zeroSigns : Link → List Bool
  | ⟨_, _, _, _, _, _, _, criteria, links⟩ => criteria.elim [] Filter.zeroSigns ++ Link.zeroSignsOfAll links

def Link.zeroSignsOfAll : List Link → List Bool
  | [] => []
  | l :: rest => Link.zeroSigns l ++ Link.zeroSignsOfAll rest

end

/-- The signs of the zeros in a query, criteria first, then link by link. -/
def Query.zeroSigns (q : Query) : List Bool := q.criteria.elim [] Filter.zeroSigns ++ Link.zeroSignsOfAll q.links

/-! ## What equality leaves open -/

/-- Two lists of signs of one length, whose agreement settles a proposition. -/
structure SignsSettle (s t : List Bool) (P : Prop) : Prop where
  length : s.length = t.length
  holds : s = t → P

namespace SignsSettle

variable {s t s' t' : List Bool} {P Q : Prop}

theorem of (h : P) : SignsSettle [] [] P := ⟨rfl, fun _ => h⟩

theorem imp (h : SignsSettle s t P) (f : P → Q) : SignsSettle s t Q := ⟨h.length, fun heq => f (h.holds heq)⟩

/-- Joined lists agree when their parts do, the parts being of one length. -/
theorem append (h : SignsSettle s t P) (h' : SignsSettle s' t' Q) : SignsSettle (s ++ s') (t ++ t') (P ∧ Q) := by
  constructor
  · rw [List.length_append, List.length_append, h.length, h'.length]
  · intro heq
    obtain ⟨hfirst, hsecond⟩ := List.append_inj heq h.length
    exact ⟨h.holds hfirst, h'.holds hsecond⟩

end SignsSettle

/-! ## Values -/

namespace Binary64

variable {x y : Binary64}

/-- Equal doubles differ at most in the sign of a zero. -/
theorem settle_of_ieeeEq (h : x.ieeeEq y = true) : SignsSettle x.zeroSigns y.zeroSigns (x = y) := by
  have hmagnitude := magnitude_eq_of_ieeeEq h
  have hext : x.negative = y.negative → x = y := by
    intro hsign
    cases x
    cases y
    simp_all
  unfold zeroSigns
  rw [← hmagnitude]
  by_cases hzero : x.magnitude = 0
  · rw [if_pos hzero, if_pos hzero]
    exact ⟨rfl, fun hsigns => hext (List.singleton_inj.mp hsigns)⟩
  · rw [if_neg hzero, if_neg hzero]
    exact .of (hext (negative_eq_of_ieeeEq h hzero))

end Binary64

theorem Number.settle_of_same {m n : Number} (h : m.same n = true) :
    SignsSettle m.zeroSigns n.zeroSigns (m = n) := by
  cases m with
  | int m hm =>
    cases n with
    | int n hn =>
      obtain rfl : m = n := beq_iff_eq.mp h
      exact .of rfl
    | float y => exact absurd h Bool.false_ne_true
  | float x =>
    cases n with
    | int n hn => exact absurd h Bool.false_ne_true
    | float y => exact (Binary64.settle_of_ieeeEq h).imp (congrArg Number.float)

namespace Json

mutual

/-- Equal values differ at most in the signs of zeros. -/
theorem settle_of_same : ∀ x y : Json, x.same y = true → SignsSettle x.zeroSigns y.zeroSigns (x = y)
  | .null, y, h => by
    cases y with
    | null => exact .of rfl
    | _ => exact absurd h Bool.false_ne_true
  | .bool a, y, h => by
    cases y with
    | bool b => exact .of (congrArg Json.bool (beq_iff_eq.mp h))
    | _ => exact absurd h Bool.false_ne_true
  | .number m, y, h => by
    cases y with
    | number n => exact (Number.settle_of_same h).imp (congrArg Json.number)
    | _ => exact absurd h Bool.false_ne_true
  | .string a, y, h => by
    cases y with
    | string b => exact .of (congrArg Json.string (beq_iff_eq.mp h))
    | _ => exact absurd h Bool.false_ne_true
  | .array xs, y, h => by
    cases y with
    | array ys => exact (settle_of_sameItems xs ys h).imp (congrArg Json.array)
    | _ => exact absurd h Bool.false_ne_true
  | .object xs, y, h => by
    cases y with
    | object ys => exact (settle_of_sameMembers xs ys h).imp (congrArg Json.object)
    | _ => exact absurd h Bool.false_ne_true

theorem settle_of_sameItems : ∀ xs ys : List Json, sameItems xs ys = true →
    SignsSettle (zeroSignsOfItems xs) (zeroSignsOfItems ys) (xs = ys)
  | [], [], _ => .of rfl
  | [], _ :: _, h => absurd h Bool.false_ne_true
  | _ :: _, [], h => absurd h Bool.false_ne_true
  | x :: xs, y :: ys, h => by
    rw [sameItems, Bool.and_eq_true] at h
    have hboth := (settle_of_same x y h.1).append (settle_of_sameItems xs ys h.2)
    exact hboth.imp fun heq => List.cons_eq_cons.mpr heq

theorem settle_of_sameMembers : ∀ xs ys : List (String × Json), sameMembers xs ys = true →
    SignsSettle (zeroSignsOfMembers xs) (zeroSignsOfMembers ys) (xs = ys)
  | [], [], _ => .of rfl
  | [], _ :: _, h => absurd h Bool.false_ne_true
  | _ :: _, [], h => absurd h Bool.false_ne_true
  | (m, x) :: xs, (n, y) :: ys, h => by
    rw [sameMembers, Bool.and_eq_true, Bool.and_eq_true, beq_iff_eq] at h
    obtain ⟨⟨hname, hvalue⟩, hrest⟩ := h
    have hboth := (settle_of_same x y hvalue).append (settle_of_sameMembers xs ys hrest)
    exact hboth.imp fun heq => List.cons_eq_cons.mpr ⟨Prod.ext hname heq.1, heq.2⟩

end

end Json

/-! ## Filters and links -/

section Parts

variable {α : Type} {same : α → α → Bool} {signs : α → List Bool}
  (hsettle : ∀ x y, same x y = true → SignsSettle (signs x) (signs y) (x = y))
include hsettle

theorem settle_of_sameOption (x y : Option α) (h : sameOption same x y = true) :
    SignsSettle (x.elim [] signs) (y.elim [] signs) (x = y) := by
  cases x with
  | none =>
    cases y with
    | none => exact .of rfl
    | some y => exact absurd h Bool.false_ne_true
  | some x =>
    cases y with
    | none => exact absurd h Bool.false_ne_true
    | some y => exact (hsettle x y h).imp (congrArg some)

theorem settle_of_sameList : ∀ xs ys : List α, sameList same xs ys = true →
    SignsSettle (xs.flatMap signs) (ys.flatMap signs) (xs = ys)
  | [], [], _ => .of rfl
  | [], _ :: _, h => absurd h Bool.false_ne_true
  | _ :: _, [], h => absurd h Bool.false_ne_true
  | x :: xs, y :: ys, h => by
    rw [sameList, Bool.and_eq_true] at h
    rw [List.flatMap_cons, List.flatMap_cons]
    have hboth := (hsettle x y h.1).append (settle_of_sameList xs ys h.2)
    exact hboth.imp fun heq => List.cons_eq_cons.mpr heq

end Parts

theorem Condition.settle_of_same (c d : Condition) (h : c.same d = true) :
    SignsSettle c.zeroSigns d.zeroSigns (c = d) := by
  simp only [same, Bool.and_eq_true, beq_iff_eq] at h
  obtain ⟨⟨⟨hscope, hattribute⟩, hoperator⟩, hvalues⟩ := h
  refine (Json.settle_of_sameItems c.values d.values hvalues).imp fun heq => ?_
  cases c
  cases d
  simp_all

mutual

theorem Filter.settle_of_same : ∀ f g : Filter, f.same g = true → SignsSettle f.zeroSigns g.zeroSigns (f = g)
  | ⟨j, cs, fs⟩, ⟨k, ds, gs⟩, h => by
    simp only [Filter.same, Bool.and_eq_true, beq_iff_eq] at h
    obtain ⟨⟨rfl, hconditions⟩, hfilters⟩ := h
    have hboth :=
      (settle_of_sameList Condition.settle_of_same cs ds hconditions).append (Filter.settle_of_sameAll fs gs hfilters)
    exact hboth.imp fun heq => by rw [heq.1, heq.2]

theorem Filter.settle_of_sameAll : ∀ fs gs : List Filter, Filter.sameAll fs gs = true →
    SignsSettle (Filter.zeroSignsOfAll fs) (Filter.zeroSignsOfAll gs) (fs = gs)
  | [], [], _ => .of rfl
  | [], _ :: _, h => absurd h Bool.false_ne_true
  | _ :: _, [], h => absurd h Bool.false_ne_true
  | f :: fs, g :: gs, h => by
    rw [Filter.sameAll, Bool.and_eq_true] at h
    have hboth := (Filter.settle_of_same f g h.1).append (Filter.settle_of_sameAll fs gs h.2)
    exact hboth.imp fun heq => List.cons_eq_cons.mpr heq

end

mutual

theorem Link.settle_of_same : ∀ l m : Link, l.same m = true → SignsSettle l.zeroSigns m.zeroSigns (l = m)
  | ⟨fe, fa, te, ta, a, k, c, f, ls⟩, ⟨fe', fa', te', ta', a', k', c', f', ls'⟩, h => by
    simp only [Link.same, Bool.and_eq_true, beq_iff_eq] at h
    obtain ⟨⟨⟨⟨⟨⟨⟨⟨rfl, rfl⟩, rfl⟩, rfl⟩, rfl⟩, rfl⟩, rfl⟩, hcriteria⟩, hlinks⟩ := h
    have hboth :=
      (settle_of_sameOption Filter.settle_of_same f f' hcriteria).append (Link.settle_of_sameAll ls ls' hlinks)
    exact hboth.imp fun heq => by rw [heq.1, heq.2]

theorem Link.settle_of_sameAll : ∀ ls ms : List Link, Link.sameAll ls ms = true →
    SignsSettle (Link.zeroSignsOfAll ls) (Link.zeroSignsOfAll ms) (ls = ms)
  | [], [], _ => .of rfl
  | [], _ :: _, h => absurd h Bool.false_ne_true
  | _ :: _, [], h => absurd h Bool.false_ne_true
  | l :: ls, m :: ms, h => by
    rw [Link.sameAll, Bool.and_eq_true] at h
    have hboth := (Link.settle_of_same l m h.1).append (Link.settle_of_sameAll ls ms h.2)
    exact hboth.imp fun heq => List.cons_eq_cons.mpr heq

end

/-! ## Queries -/

namespace Query

/-- Equal queries whose zeros have the same signs are one query. -/
theorem settle_of_same (q r : Query) (h : q.same r = true) : SignsSettle q.zeroSigns r.zeroSigns (q = r) := by
  simp only [same, Bool.and_eq_true, beq_iff_eq] at h
  obtain ⟨⟨⟨⟨⟨⟨⟨⟨hentity, hcolumns⟩, hcriteria⟩, hlinks⟩, hkeys⟩, hpaging⟩, htop⟩, hdistinct⟩, hlock⟩ := h
  have hboth := (settle_of_sameOption Filter.settle_of_same q.criteria r.criteria hcriteria).append
    (Link.settle_of_sameAll q.links r.links hlinks)
  refine hboth.imp fun heq => ?_
  cases q
  cases r
  simp_all

/-- **Equal queries share their fingerprint and their keys when their zeros have the same signs**, and otherwise
they share neither, unless their texts are a collision of SHA-256. -/
theorem same_queries_share_keys (q r : Query) (hsame : q.same r = true) :
    (q.zeroSigns = r.zeroSigns →
      q.fingerprint = r.fingerprint ∧ ∀ extent, q.cacheKey extent = r.cacheKey extent) ∧
    (q.zeroSigns ≠ r.zeroSigns → NoCollision q r →
      q.fingerprint ≠ r.fingerprint ∧ ∀ extent extent', q.cacheKey extent ≠ r.cacheKey extent') := by
  constructor
  · intro hsigns
    obtain rfl : q = r := (settle_of_same q r hsame).holds hsigns
    exact ⟨rfl, fun _ => rfl⟩
  · intro hsigns hsha
    have hne : q ≠ r := fun heq => hsigns (congrArg zeroSigns heq)
    constructor
    · intro h
      exact hne (eq_of_fingerprint_eq hsha h)
    · intro extent extent' h
      exact hne (eq_of_cacheKey_eq hsha h).2

/-! ## The two zeros in a condition -/

theorem canonicalBytes_eq_flatMap (q : Query) :
    q.canonicalBytes = (Json.render q.encode).flatMap String.utf8EncodeChar := by
  rw [canonicalBytes, byteArray_toList_eq, canonical, Json.text]
  simp [List.utf8Encode]

/-- The accounts with a balance of a zero. -/
def ofBalance (zero : Binary64) : Query :=
  { entity := "account"
    criteria := some { conditions := [{ attributeName := "balance", values := [.number (.float zero)] }] } }

theorem digest_ofBalance_ne : Sha256.digest (ofBalance .zero).canonicalBytes ≠
    Sha256.digest (ofBalance (.signedZero true)).canonicalBytes := by
  rw [canonicalBytes_eq_flatMap, canonicalBytes_eq_flatMap]
  decide +kernel

/-- The columns of the positive zero named in two orders, and the two zeros. -/
theorem same_queries_share_keys_zeros :
    let q := (ofBalance .zero).build [.columns ["name", "id"]]
    let r := (ofBalance .zero).build [.columns ["id"], .columns ["name", "id"]]
    let plus := ofBalance .zero
    let minus := ofBalance (.signedZero true)
    q.same r = true ∧ q.zeroSigns = r.zeroSigns ∧ q.fingerprint = r.fingerprint ∧ q.cacheKey .all = r.cacheKey .all ∧
      plus.same minus = true ∧ plus.zeroSigns ≠ minus.zeroSigns ∧ NoCollision plus minus ∧
      plus.fingerprint ≠ minus.fingerprint ∧ plus.cacheKey .all ≠ minus.cacheKey .all := by
  intro q r plus minus
  have hreordered : q.same r = true := by decide
  have hsigns : q.zeroSigns = r.zeroSigns := rfl
  have hshared := (same_queries_share_keys q r hreordered).1 hsigns
  have hzeros : plus.same minus = true := by decide
  have hdiffer : plus.zeroSigns ≠ minus.zeroSigns := by decide
  have hsha : NoCollision plus minus := fun h => absurd h digest_ofBalance_ne
  have hparted := (same_queries_share_keys plus minus hzeros).2 hdiffer hsha
  exact ⟨hreordered, hsigns, hshared.1, hshared.2 .all, hzeros, hdiffer, hsha, hparted.1, hparted.2 .all .all⟩

/-- Conditions on the two zeros make equal queries with different fingerprints and keys. -/
theorem zero_sign_parts_keys :
    let plus := ofBalance .zero
    let minus := ofBalance (.signedZero true)
    plus.same minus = true ∧ plus.fingerprint ≠ minus.fingerprint ∧
      plus.cacheKey .page ≠ minus.cacheKey .page ∧ plus.cacheKey .all ≠ minus.cacheKey .all := by
  intro plus minus
  have hfingerprints : plus.fingerprint ≠ minus.fingerprint := by
    intro h
    have hdigits := congrArg String.toList h
    rw [toList_fingerprint, toList_fingerprint] at hdigits
    exact digest_ofBalance_ne (Text.hexOfBytes_injective hdigits)
  refine ⟨by decide, hfingerprints, ?_, ?_⟩
  · exact fun h => hfingerprints (fingerprint_eq_of_cacheKey_eq h)
  · exact fun h => hfingerprints (fingerprint_eq_of_cacheKey_eq h)

end Query

end EntityQuery
