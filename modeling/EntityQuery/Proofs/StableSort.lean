import Mathlib.Data.List.Basic
import Mathlib.Data.List.Perm.Subperm
import Mathlib.Tactic.SplitIfs

/-!
# Stable sorting

An order that may tie different items does not settle by itself how a list is sorted. It does when tied items have to
keep the order that they had.

* `WeakOrderOn`, `WeakOrderOn.preorderOn`: the orders that a list can be sorted by, and what a comparison makes of one;
* `IsStableSort.eq`: a list has one stable sort at most;
* `isStableSort_mergeSort`: merge sort gives it, when its test is the order on the items of the list;
* `SortsStably`, `SortsStably.eq_mergeSort`: what sorting by a comparison promises, which settles the result for items
  that the comparison orders and nothing else;
* `IsStableSort.lex`: sorting stably by a second criterion and then by a first one sorts by both.
-/

namespace EntityQuery

variable {α : Type} {before first second : α → α → Prop} {xs mid out : List α} {a b c : α}

/-! ## Orders with ties -/

/-- An order that may tie items of a list: no two come before each other, and where one comes before another, every
third item comes behind the first or before the second. -/
structure WeakOrderOn (before : α → α → Prop) (xs : List α) : Prop where
  asymm : ∀ a ∈ xs, ∀ b ∈ xs, before a b → ¬ before b a
  splits : ∀ a ∈ xs, ∀ b ∈ xs, ∀ c ∈ xs, before a c → before a b ∨ before b c

/-- Neither of two items comes before the other. -/
def Tied (before : α → α → Prop) (a b : α) : Prop := ¬ before a b ∧ ¬ before b a

theorem Tied.symm (h : Tied before a b) : Tied before b a := ⟨h.2, h.1⟩

namespace WeakOrderOn

theorem mono {ys : List α} (h : WeakOrderOn before xs) (hsub : ys ⊆ xs) : WeakOrderOn before ys :=
  ⟨fun a ha b hb => h.asymm a (hsub ha) b (hsub hb),
    fun a ha b hb c hc => h.splits a (hsub ha) b (hsub hb) c (hsub hc)⟩

theorem tied_self (h : WeakOrderOn before xs) (ha : a ∈ xs) : Tied before a a :=
  ⟨fun hlt => h.asymm a ha a ha hlt hlt, fun hlt => h.asymm a ha a ha hlt hlt⟩

theorem tied_trans (h : WeakOrderOn before xs) (ha : a ∈ xs) (hb : b ∈ xs) (hc : c ∈ xs) (hab : Tied before a b)
    (hbc : Tied before b c) : Tied before a c := by
  constructor
  · intro hlt
    exact (h.splits a ha b hb c hc hlt).elim hab.1 hbc.1
  · intro hlt
    exact (h.splits c hc b hb a ha hlt).elim hbc.2 hab.2

end WeakOrderOn

/-- A comparison is a total preorder on the items of a list. -/
structure PreorderOn (cmp : α → α → Ordering) (xs : List α) : Prop where
  refl : ∀ a ∈ xs, cmp a a = .eq
  swap : ∀ a ∈ xs, ∀ b ∈ xs, cmp b a = (cmp a b).swap
  trans : ∀ a ∈ xs, ∀ b ∈ xs, ∀ c ∈ xs, cmp a b ≠ .gt → cmp b c ≠ .gt → cmp a c ≠ .gt

/-- A comparison that decides an order with ties is a total preorder. -/
theorem WeakOrderOn.preorderOn {cmp : α → α → Ordering} (hweak : WeakOrderOn before xs)
    (hlt : ∀ a b, cmp a b = .lt ↔ before a b) (hgt : ∀ a b, cmp a b = .gt ↔ before b a) : PreorderOn cmp xs := by
  have hswap : ∀ a b, cmp b a = (cmp a b).swap := by
    intro a b
    cases hab : cmp a b with
    | lt => exact (hgt b a).mpr ((hlt a b).mp hab)
    | gt => exact (hlt b a).mpr ((hgt a b).mp hab)
    | eq =>
      cases hba : cmp b a with
      | lt => rw [(hgt a b).mpr ((hlt b a).mp hba)] at hab; cases hab
      | gt => rw [(hlt a b).mpr ((hgt b a).mp hba)] at hab; cases hab
      | eq => rfl
  refine ⟨fun a _ => ?_, fun a _ b _ => hswap a b, fun a ha b hb c hc hab hbc hac => ?_⟩
  · have hself := hswap a a
    cases hcmp : cmp a a <;> rw [hcmp] at hself <;> first | rfl | cases hself
  · rw [ne_eq, hgt] at hab hbc
    exact (hweak.splits c hc b hb a ha ((hgt a c).mp hac)).elim hbc hab

/-- A list is sorted by an order, and tied items keep the order that they had. -/
structure IsStableSort (before : α → α → Prop) (xs out : List α) : Prop where
  perm : out.Perm xs
  ordered : out.Pairwise fun a b => ¬ before b a
  stable : ∀ ties : List α, ties.Sublist xs → ties.Pairwise (Tied before) → ties.Sublist out

/-! ## Uniqueness -/

section Uniqueness

open Classical

/-- The items tied with one are the same list before and after. -/
theorem IsStableSort.filter_tied (h : IsStableSort before xs out) (hweak : WeakOrderOn before xs) (ha : a ∈ xs) :
    out.filter (Tied before a ·) = xs.filter (Tied before a ·) := by
  have hties : (xs.filter (Tied before a ·)).Pairwise (Tied before) := by
    refine List.pairwise_of_forall_mem_list fun b hb c hc => ?_
    obtain ⟨hb, hab⟩ := List.mem_filter.mp hb
    obtain ⟨hc, hac⟩ := List.mem_filter.mp hc
    exact hweak.tied_trans hb ha hc (of_decide_eq_true hab).symm (of_decide_eq_true hac)
  have hsub := (h.stable _ List.filter_sublist hties).filter (Tied before a ·)
  rw [List.filter_filter] at hsub
  simp only [Bool.and_self] at hsub
  exact (hsub.eq_of_length (h.perm.filter _).length_eq.symm).symm

/-- Tied items had the order that they have. -/
theorem IsStableSort.sublist_of_tied (h : IsStableSort before xs out) (hweak : WeakOrderOn before xs)
    {ties : List α} (hsub : ties.Sublist out) (hties : ties.Pairwise (Tied before)) : ties.Sublist xs := by
  cases ties with
  | nil => exact List.nil_sublist _
  | cons a rest =>
    have ha : a ∈ xs := h.perm.mem_iff.mp (hsub.mem List.mem_cons_self)
    have hall : (a :: rest).filter (Tied before a ·) = a :: rest := by
      refine List.filter_eq_self.mpr fun b hb => decide_eq_true ?_
      rcases List.mem_cons.mp hb with rfl | hb
      · exact hweak.tied_self ha
      · exact (List.pairwise_cons.mp hties).1 b hb
    have hfilter := hsub.filter (Tied before a ·)
    rw [hall, h.filter_tied hweak ha] at hfilter
    exact hfilter.trans List.filter_sublist

/-- Two sorted lists of the same items in which the same items are tied in the same order are one list. -/
theorem eq_of_filter_tied {xs ys : List α} (hweak : WeakOrderOn before xs) (hperm : xs.Perm ys)
    (hxs : xs.Pairwise fun a b => ¬ before b a) (hys : ys.Pairwise fun a b => ¬ before b a)
    (hties : ∀ a ∈ xs, xs.filter (Tied before a ·) = ys.filter (Tied before a ·)) : xs = ys := by
  induction xs generalizing ys with
  | nil => exact hperm.nil_eq
  | cons a xs ih =>
    cases ys with
    | nil => exact absurd hperm.length_eq (by simp)
    | cons b ys =>
      rw [List.pairwise_cons] at hxs hys
      have hself := hweak.tied_self List.mem_cons_self
      -- the first items are tied, and so they are the first ones of the same list of tied items
      have hab : Tied before a b := by
        constructor
        · rcases List.mem_cons.mp (hperm.mem_iff.mp List.mem_cons_self) with rfl | ha
          · exact hself.1
          · exact hys.1 a ha
        · rcases List.mem_cons.mp (hperm.mem_iff.mpr List.mem_cons_self) with rfl | hb
          · exact hself.1
          · exact hxs.1 b hb
      have hfirst := hties a List.mem_cons_self
      rw [List.filter_cons_of_pos (by simpa using hself), List.filter_cons_of_pos (by simpa using hab)] at hfirst
      obtain ⟨rfl, -⟩ := List.cons.inj hfirst
      rw [ih (hweak.mono (List.subset_cons_self _ _)) hperm.cons_inv hxs.2 hys.2]
      intro c hc
      have hrest := hties c (List.mem_cons_of_mem _ hc)
      rw [List.filter_cons, List.filter_cons] at hrest
      split_ifs at hrest
      · exact (List.cons.inj hrest).2
      · exact hrest

end Uniqueness

/-- **A list has one stable sort at most.** -/
theorem IsStableSort.eq {out' : List α} (h : IsStableSort before xs out) (h' : IsStableSort before xs out')
    (hweak : WeakOrderOn before xs) : out = out' := by
  refine eq_of_filter_tied (hweak.mono h.perm.subset) (h.perm.trans h'.perm.symm) h.ordered h'.ordered fun a ha => ?_
  have hmem := h.perm.mem_iff.mp ha
  rw [h.filter_tied hweak hmem, h'.filter_tied hweak hmem]

/-! ## Merge sort -/

/-- **Merge sort is a stable sort**, also when its test is an order on the items of the list only. -/
theorem isStableSort_mergeSort {le : α → α → Bool} (hweak : WeakOrderOn before xs)
    (hle : ∀ a ∈ xs, ∀ b ∈ xs, (le a b = true ↔ ¬ before b a)) : IsStableSort before xs (xs.mergeSort le) := by
  let le' : { x // x ∈ xs } → { x // x ∈ xs } → Bool := fun a b => le a.1 b.1
  have htrans : ∀ a b c, le' a b = true → le' b c = true → le' a c = true := by
    rintro ⟨a, ha⟩ ⟨b, hb⟩ ⟨c, hc⟩ hab hbc
    rw [hle a ha b hb] at hab
    rw [hle b hb c hc] at hbc
    exact (hle a ha c hc).mpr fun hca => (hweak.splits c hc b hb a ha hca).elim hbc hab
  have htotal : ∀ a b, (le' a b || le' b a) = true := by
    rintro ⟨a, ha⟩ ⟨b, hb⟩
    rw [Bool.or_eq_true, hle a ha b hb, hle b hb a ha]
    by_cases hba : before b a
    · exact .inr (hweak.asymm b hb a ha hba)
    · exact .inl hba
  have hsort : (xs.attach.mergeSort le').map Subtype.val = xs.mergeSort le := by
    rw [List.map_mergeSort (s := le) fun _ _ _ _ => rfl, List.attach_map_subtype_val]
  refine ⟨List.mergeSort_perm xs le, ?_, fun ties hsub hties => ?_⟩
  · rw [← hsort, List.pairwise_map]
    refine (List.pairwise_mergeSort htrans htotal xs.attach).imp fun {a b} hab => ?_
    exact (hle a.1 a.2 b.1 b.2).mp hab
  · rw [← List.attach_map_subtype_val xs] at hsub
    obtain ⟨ties', hsub', rfl⟩ := List.sublist_map_iff.mp hsub
    rw [← hsort]
    refine (List.sublist_mergeSort htrans htotal ?_ hsub').map _
    rw [List.pairwise_map] at hties
    exact hties.imp fun {a b} hab => (hle a.1 a.2 b.1 b.2).mpr hab.2

/-! ## What sorting promises -/

section Promise

variable {cmp : α → α → Ordering} {sort : (α → α → Ordering) → List α → Option (List α)}

/-- A total preorder is an order with ties. -/
theorem PreorderOn.weakOrderOn (h : PreorderOn cmp xs) : WeakOrderOn (fun a b => cmp a b = .lt) xs := by
  constructor
  · intro a ha b hb hab hba
    rw [h.swap a ha b hb, hab] at hba
    cases hba
  · intro a ha b hb c hc hac
    by_contra hne
    rw [not_or] at hne
    have hba : cmp b a ≠ .gt := by rw [h.swap a ha b hb, ne_eq, Ordering.swap_eq_gt]; exact hne.1
    have hcb : cmp c b ≠ .gt := by rw [h.swap b hb c hc, ne_eq, Ordering.swap_eq_gt]; exact hne.2
    refine h.trans c hc b hb a ha hcb hba ?_
    rw [h.swap a ha c hc, hac]
    rfl

/-- What a function that sorts by a comparison promises: it has the stable sort of a list whose items the comparison
orders. Of other lists nothing is promised, neither an order nor a result. -/
def SortsStably (sort : (α → α → Ordering) → List α → Option (List α)) : Prop :=
  ∀ cmp xs, PreorderOn cmp xs → ∃ out, sort cmp xs = some out ∧ IsStableSort (fun a b => cmp a b = .lt) xs out

theorem PreorderOn.isStableSort (h : PreorderOn cmp xs) :
    IsStableSort (fun a b => cmp a b = .lt) xs (xs.mergeSort fun a b => cmp a b != .gt) := by
  refine isStableSort_mergeSort h.weakOrderOn fun a ha b hb => ?_
  rw [bne_iff_ne, h.swap a ha b hb, Ordering.swap_eq_lt]

theorem sortsStably_mergeSort :
    SortsStably fun cmp (xs : List α) => some (xs.mergeSort fun a b => cmp a b != .gt) :=
  fun _ _ h => ⟨_, rfl, h.isStableSort⟩

/-- **The promise settles the result** for items that the comparison orders. -/
theorem SortsStably.eq_mergeSort (hsort : SortsStably sort) (h : PreorderOn cmp xs) :
    sort cmp xs = some (xs.mergeSort fun a b => cmp a b != .gt) := by
  obtain ⟨out, hout, hstable⟩ := hsort cmp xs h
  rw [hout, hstable.eq h.isStableSort h.weakOrderOn]

open Classical in
/-- **It settles nothing else**: it can be kept without a result for a list that the comparison does not order. -/
theorem exists_sortsStably_eq_none (h : ¬ PreorderOn cmp xs) :
    ∃ sort : (α → α → Ordering) → List α → Option (List α), SortsStably sort ∧ sort cmp xs = none := by
  refine ⟨fun cmp xs => if PreorderOn cmp xs then some (xs.mergeSort fun a b => cmp a b != .gt) else none, ?_, if_neg h⟩
  intro cmp xs hcmp
  exact ⟨_, if_pos hcmp, hcmp.isStableSort⟩

end Promise

/-! ## Two criteria -/

/-- The second criterion decides where the first one ties. -/
def lexBefore (first second : α → α → Prop) (a b : α) : Prop := first a b ∨ (¬ first b a ∧ second a b)

theorem WeakOrderOn.lex (h₁ : WeakOrderOn first xs) (h₂ : WeakOrderOn second xs) :
    WeakOrderOn (lexBefore first second) xs := by
  constructor
  · rintro a ha b hb (hab | ⟨hba, hab⟩) (hba' | ⟨hab', hba'⟩)
    · exact h₁.asymm a ha b hb hab hba'
    · exact hab' hab
    · exact hba hba'
    · exact h₂.asymm a ha b hb hab hba'
  · rintro a ha b hb c hc (hac | ⟨hca, hac⟩)
    · exact (h₁.splits a ha b hb c hc hac).imp .inl .inl
    · -- if the first criterion tells `b` from one end, it tells it from the other one too, and in the right direction
      rcases h₂.splits a ha b hb c hc hac with hab | hbc
      · by_cases hba : first b a
        · exact .inr (.inl ((h₁.splits b hb c hc a ha hba).resolve_right hca))
        · exact .inl (.inr ⟨hba, hab⟩)
      · by_cases hcb : first c b
        · exact .inl (.inl ((h₁.splits c hc a ha b hb hcb).resolve_left hca))
        · exact .inr (.inr ⟨hcb, hbc⟩)

theorem Tied.of_lex (h : Tied (lexBefore first second) a b) : Tied first a b ∧ Tied second a b := by
  have hfirst : Tied first a b := ⟨fun hab => h.1 (.inl hab), fun hba => h.2 (.inl hba)⟩
  exact ⟨hfirst, fun hab => h.1 (.inr ⟨hfirst.2, hab⟩), fun hba => h.2 (.inr ⟨hfirst.1, hba⟩)⟩

/-- **Sorting stably by the second criterion and then by the first one sorts stably by both.** -/
theorem IsStableSort.lex (h₂ : IsStableSort second xs mid) (h₁ : IsStableSort first mid out)
    (hweak : WeakOrderOn first xs) : IsStableSort (lexBefore first second) xs out := by
  refine ⟨h₁.perm.trans h₂.perm, List.pairwise_iff_forall_sublist.mpr fun {a b} hsub => ?_,
    fun ties hsub hties => ?_⟩
  · have hfirst := List.pairwise_iff_forall_sublist.mp h₁.ordered hsub
    rintro (hba | ⟨hab, hba⟩)
    · exact hfirst hba
    · -- the first criterion ties the two, and so they have the order that the second one gave them
      have htied : [a, b].Pairwise (Tied first) := List.pairwise_pair.mpr ⟨hab, hfirst⟩
      have hmid := h₁.sublist_of_tied (hweak.mono h₂.perm.subset) hsub htied
      exact List.pairwise_iff_forall_sublist.mp h₂.ordered hmid hba
  · have hfirst : ties.Pairwise (Tied first) := hties.imp fun hab => hab.of_lex.1
    have hsecond : ties.Pairwise (Tied second) := hties.imp fun hab => hab.of_lex.2
    exact h₁.stable ties (h₂.stable ties hsub hsecond) hfirst

end EntityQuery
