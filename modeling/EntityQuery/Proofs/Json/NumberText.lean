import EntityQuery.Json.Printer
import EntityQuery.Proofs.Numeric.Shortest
import Mathlib.Data.List.TakeWhile

/-!
# The text of a number determines it

A written number is a longest run of number characters, so that what follows it, which is never one of them,
does not matter. Integers have no point and no exponent; doubles have one of the two, and their digits give
back the decimal value and with it the double.

* `Json.decimalText_value`: texts of decimals are equal only for equal values;
* `Json.floatText_injective`: the text of a double determines it, with its sign;
* `Json.numberText_append_inj`: so does the text of a number in front of anything that cannot go on.
-/

namespace EntityQuery.Json

open Decimal

/-! ## Digits in a layout -/

/-- The characters of decimal digits only. -/
def AllDigits (cs : List Char) : Prop := ∀ c ∈ cs, c.isDigit = true

theorem AllDigits.append {as bs : List Char} (ha : AllDigits as) (hb : AllDigits bs) : AllDigits (as ++ bs) :=
  fun c hc => (List.mem_append.mp hc).elim (ha c) (hb c)

theorem allDigits_zeros (n : Nat) : AllDigits (List.replicate n '0') := fun c hc => by
  rw [List.eq_of_mem_replicate hc]
  decide

theorem allDigits_digitsOfNat (n : Nat) : AllDigits (digitsOfNat n) := fun _ => isDigit_of_mem_digitsOfNat

theorem AllDigits.not_mem {cs : List Char} (h : AllDigits cs) {c : Char} (hc : c.isDigit = false) : c ∉ cs :=
  fun hmem => by
    rw [h c hmem] at hc
    cases hc

/-- Only zeros are taken off the end. -/
theorem significantDigits_append (digits : List Char) :
    ∃ n, digits = significantDigits digits ++ List.replicate n '0' := by
  refine ⟨(digits.reverse.takeWhile (· = '0')).length, ?_⟩
  have hzeros : (digits.reverse.takeWhile (· = '0')).reverse =
      List.replicate (digits.reverse.takeWhile (· = '0')).length '0' := by
    refine List.eq_replicate_iff.mpr ⟨List.length_reverse, fun c hc => ?_⟩
    simpa using List.mem_takeWhile_imp (List.mem_reverse.mp hc)
  rw [← hzeros, significantDigits, ← List.reverse_append, List.takeWhile_append_dropWhile,
    List.reverse_reverse]

theorem allDigits_significantDigits {digits : List Char} (h : AllDigits digits) :
    AllDigits (significantDigits digits) := by
  obtain ⟨n, hn⟩ := significantDigits_append digits
  intro c hc
  refine h c ?_
  rw [hn]
  exact List.mem_append_left _ hc

/-- The number that digits denote whose leading one has the exponent `top`. -/
def valueOfDigits (digits : List Char) (top : Int) : ℚ := value ⟨natOfDigits digits, top + 1 - digits.length⟩

/-- A decimal has the value of its significant digits. -/
theorem value_eq_valueOfDigits (d : Decimal) :
    d.value = valueOfDigits (significantDigits (digitsOfNat d.coefficient))
      (d.exponent + (digitsOfNat d.coefficient).length - 1) := by
  obtain ⟨n, hn⟩ := significantDigits_append (digitsOfNat d.coefficient)
  set digits := significantDigits (digitsOfNat d.coefficient) with hdigits
  have hcoef : d.coefficient = 10 ^ n * natOfDigits digits := by
    have hall := natOfDigits_digitsOfNat d.coefficient
    rw [hn, natOfDigits_append] at hall
    simpa using hall.symm
  have hlen : (digitsOfNat d.coefficient).length = digits.length + n := by
    rw [hn]
    simp
  rw [valueOfDigits, hlen]
  calc d.value = value ⟨10 ^ n * natOfDigits digits, d.exponent⟩ := by rw [← hcoef]
    _ = value ⟨natOfDigits digits, d.exponent + n⟩ := value_mul_pow _ _ _
    _ = _ := by
      congr 2
      push_cast
      ring

/-- In plain layout digits are a literal of their value. -/
theorem plainDigits_eq {digits : List Char} (h : AllDigits digits) (top : Int) :
    ∃ whole fraction, plainDigits digits top = whole ++ '.' :: fraction ∧ AllDigits whole ∧ AllDigits fraction ∧
      (ofLiteral whole fraction 0).value = valueOfDigits digits top := by
  have hzero : AllDigits ['0'] := allDigits_zeros 1
  unfold plainDigits
  by_cases hneg : top < 0
  · rw [if_pos hneg]
    refine ⟨['0'], List.replicate (-top - 1).toNat '0' ++ digits, rfl, hzero, (allDigits_zeros _).append h, ?_⟩
    have hcoef : natOfDigits (['0'] ++ (List.replicate (-top - 1).toNat '0' ++ digits)) = natOfDigits digits := by
      rw [← List.append_assoc, natOfDigits_append, show ['0'] = List.replicate 1 '0' from rfl,
        List.replicate_append_replicate, natOfDigits_zeros]
      ring
    rw [value_ofLiteral, valueOfDigits, hcoef, List.length_append, List.length_replicate]
    congr 2
    omega
  · rw [if_neg hneg]
    dsimp only
    by_cases hlen : digits.length ≤ top.toNat + 1
    · -- zeros up to the point, and one after it
      set n := top.toNat + 1 - digits.length with hn
      rw [if_pos hlen]
      refine ⟨digits ++ List.replicate n '0', ['0'], by simp, h.append (allDigits_zeros _), hzero, ?_⟩
      have hcoef : natOfDigits (digits ++ List.replicate n '0' ++ ['0']) = 10 ^ (n + 1) * natOfDigits digits := by
        rw [List.append_assoc, show ['0'] = List.replicate 1 '0' from rfl, List.replicate_append_replicate,
          natOfDigits_append, natOfDigits_zeros, List.length_replicate, Nat.add_zero]
      rw [value_ofLiteral, valueOfDigits, hcoef, value_mul_pow, List.length_singleton]
      congr 2
      omega
    · rw [if_neg hlen]
      refine ⟨digits.take (top.toNat + 1), digits.drop (top.toNat + 1), rfl,
        fun c hc => h c (List.mem_of_mem_take hc),
        fun c hc => h c (List.mem_of_mem_drop hc), ?_⟩
      rw [value_ofLiteral, valueOfDigits, List.take_append_drop, List.length_drop]
      congr 2
      omega

theorem valueOfDigits_eq_of_plainDigits_eq {ds ds' : List Char} {t t' : Int} (hd : AllDigits ds)
    (hd' : AllDigits ds') (h : plainDigits ds t = plainDigits ds' t') :
    valueOfDigits ds t = valueOfDigits ds' t' := by
  obtain ⟨w, f, htext, hw, hf, hvalue⟩ := plainDigits_eq hd t
  obtain ⟨w', f', htext', -, -, hvalue'⟩ := plainDigits_eq hd' t'
  rw [htext, htext', List.append_cons_inj_of_notMem (hw.not_mem (by decide)) (hf.not_mem (by decide))] at h
  obtain ⟨rfl, -, rfl⟩ := h
  rw [← hvalue, hvalue']

/-- In scientific layout digits stand before the exponent, with a point among them if there are several. -/
theorem scientificDigits_eq {digits : List Char} (h : AllDigits digits) (top : Int) :
    ∃ mantissa, scientificDigits digits top =
      mantissa ++ 'e' :: (if top < 0 then '-' else '+') :: digitsOfNat top.natAbs ∧
      (∀ c ∈ mantissa, c = '.' ∨ c.isDigit = true) ∧ mantissa.filter (· ≠ '.') = digits := by
  have hpoint : digits.filter (· ≠ '.') = digits :=
    List.filter_eq_self.mpr fun c hc => by
      have hne : c ≠ '.' := fun heq => h.not_mem (by decide) (heq ▸ hc)
      simpa using hne
  have hchars : ∀ c ∈ digits, c = '.' ∨ c.isDigit = true := fun c hc => .inr (h c hc)
  match digits with
  | [] => exact ⟨[], rfl, hchars, rfl⟩
  | [d] => exact ⟨[d], rfl, hchars, hpoint⟩
  | d :: d' :: rest =>
    refine ⟨d :: '.' :: d' :: rest, rfl, ?_, ?_⟩
    · intro c hc
      rcases List.mem_cons.mp hc with rfl | hc
      · exact hchars c (by simp)
      · rcases List.mem_cons.mp hc with rfl | hc
        · exact .inl rfl
        · exact hchars c (List.mem_cons_of_mem _ hc)
    · rw [List.filter_cons] at hpoint ⊢
      simpa using hpoint

theorem scientificDigits_inj {ds ds' : List Char} {t t' : Int} (hd : AllDigits ds) (hd' : AllDigits ds')
    (h : scientificDigits ds t = scientificDigits ds' t') : ds = ds' ∧ t = t' := by
  obtain ⟨m, htext, hm, hdigits⟩ := scientificDigits_eq hd t
  obtain ⟨m', htext', -, hdigits'⟩ := scientificDigits_eq hd' t'
  have hmark : 'e' ∉ m := fun hmem => (hm _ hmem).elim (by decide) (by decide)
  have hexp : 'e' ∉ (if t < 0 then '-' else '+') :: digitsOfNat t.natAbs := by
    have := (allDigits_digitsOfNat t.natAbs).not_mem (c := 'e') (by decide)
    split_ifs <;> simpa using this
  rw [htext, htext', List.append_cons_inj_of_notMem hmark hexp] at h
  obtain ⟨rfl, -, htop⟩ := h
  obtain ⟨hsign, habs⟩ := List.cons_eq_cons.mp htop
  have habs' := digitsOfNat_injective habs
  refine ⟨hdigits.symm.trans hdigits', ?_⟩
  split_ifs at hsign <;> first | omega | exact absurd hsign (by decide)

/-- The exponent mark tells the two layouts apart. -/
theorem plainDigits_ne_scientificDigits {ds ds' : List Char} {t t' : Int} (hd : AllDigits ds)
    (hd' : AllDigits ds') : plainDigits ds t ≠ scientificDigits ds' t' := by
  obtain ⟨w, f, htext, hw, hf, -⟩ := plainDigits_eq hd t
  obtain ⟨m, htext', -, -⟩ := scientificDigits_eq hd' t'
  intro h
  have hmem : 'e' ∈ w ++ '.' :: f := by
    rw [← htext, h, htext']
    simp
  rcases List.mem_append.mp hmem with hmem | hmem
  · exact hw.not_mem (by decide) hmem
  · exact hf.not_mem (by decide) (List.mem_of_ne_of_mem (by decide) hmem)

/-- Texts of decimals are equal only for equal values, in any layout. -/
theorem decimalText_value {layout : FloatLayout} {d d' : Decimal}
    (h : decimalText layout d = decimalText layout d') : d.value = d'.value := by
  have hd := allDigits_significantDigits (allDigits_digitsOfNat d.coefficient)
  have hd' := allDigits_significantDigits (allDigits_digitsOfNat d'.coefficient)
  rw [value_eq_valueOfDigits, value_eq_valueOfDigits d']
  unfold decimalText at h
  dsimp only at h
  split_ifs at h
  · exact valueOfDigits_eq_of_plainDigits_eq hd hd' h
  · exact absurd h (plainDigits_ne_scientificDigits hd hd')
  · exact absurd h.symm (plainDigits_ne_scientificDigits hd' hd)
  · obtain ⟨hdigits, htop⟩ := scientificDigits_inj hd hd' h
    rw [hdigits, htop]

/-! ## Numbers -/

/-- The characters that numbers are written with. -/
def isNumberChar (c : Char) : Bool := c.isDigit || c == '.' || c == 'e' || c == '-' || c == '+'

theorem AllDigits.isNumberChar {cs : List Char} (h : AllDigits cs) : ∀ c ∈ cs, isNumberChar c = true :=
  fun c hc => by simp [Json.isNumberChar, h c hc]

/-- A decimal is written with number characters; a point or an exponent mark is among them, and no sign stands
in front. -/
theorem decimalText_eq (layout : FloatLayout) (d : Decimal) :
    ∃ front mark back, decimalText layout d = front ++ mark :: back ∧ (mark = '.' ∨ mark = 'e') ∧ '-' ∉ front ∧
      (∀ c ∈ front, isNumberChar c = true) ∧ ∀ c ∈ back, isNumberChar c = true := by
  have hd := allDigits_significantDigits (allDigits_digitsOfNat d.coefficient)
  unfold decimalText
  dsimp only
  set top := d.exponent + ((digitsOfNat d.coefficient).length : Int) - 1
  split_ifs
  · obtain ⟨w, f, htext, hw, hf, -⟩ := plainDigits_eq hd top
    exact ⟨w, '.', f, htext, .inl rfl, hw.not_mem (by decide), hw.isNumberChar, hf.isNumberChar⟩
  · obtain ⟨m, htext, hm, -⟩ := scientificDigits_eq hd top
    refine ⟨m, 'e', _, htext, .inr rfl, fun hmem => (hm _ hmem).elim (by decide) (by decide), ?_, ?_⟩
    · intro c hc
      rcases hm c hc with rfl | hdigit
      · decide
      · simp [isNumberChar, hdigit]
    · intro c hc
      rcases List.mem_cons.mp hc with rfl | hc
      · split_ifs <;> decide
      · exact (allDigits_digitsOfNat _).isNumberChar c hc

theorem head?_decimalText (layout : FloatLayout) (d : Decimal) : (decimalText layout d).head? ≠ some '-' := by
  obtain ⟨front, mark, back, htext, hmark, hfront, -, -⟩ := decimalText_eq layout d
  rw [htext]
  cases front with
  | nil => rcases hmark with rfl | rfl <;> simp
  | cons c front =>
    intro h
    exact hfront (by simp_all)

/-- The zeros are written as their shortest decimal as well. -/
theorem floatText_eq (x : Binary64) :
    floatText x =
      if x.negative then '-' :: decimalText floatLayout x.shortest else decimalText floatLayout x.shortest := by
  have hzero : ['0', '.', '0'] = decimalText floatLayout ⟨0, 0⟩ := by decide
  unfold floatText Binary64.shortest
  by_cases hx : x.magnitude = 0
  · simp only [if_pos hx, hzero]
  · simp only [if_neg hx]

/-- The text of a double determines it, its sign included. -/
theorem floatText_injective : Function.Injective floatText := by
  intro x y h
  rw [floatText_eq, floatText_eq] at h
  split_ifs at h with hx hy hy
  · exact Binary64.eq_of_shortest_value_eq (hx.trans hy.symm) (decimalText_value (List.cons_inj_right _ |>.mp h))
  · exact absurd (by rw [← h]; rfl) (head?_decimalText floatLayout y.shortest)
  · exact absurd (by rw [h]; rfl) (head?_decimalText floatLayout x.shortest)
  · have hsign : x.negative = y.negative := by simp_all
    exact Binary64.eq_of_shortest_value_eq hsign (decimalText_value h)

/-- A written double has a point or an exponent. -/
theorem mark_mem_floatText (x : Binary64) : '.' ∈ floatText x ∨ 'e' ∈ floatText x := by
  obtain ⟨front, mark, back, htext, hmark, -⟩ := decimalText_eq floatLayout x.shortest
  rw [floatText_eq, htext]
  rcases hmark with rfl | rfl
  · exact .inl (by split_ifs <;> simp)
  · exact .inr (by split_ifs <;> simp)

theorem isNumberChar_of_mem_floatText {x : Binary64} : ∀ c ∈ floatText x, isNumberChar c = true := by
  obtain ⟨front, mark, back, htext, hmark, -, hfront, hback⟩ := decimalText_eq floatLayout x.shortest
  have hall : ∀ c ∈ decimalText floatLayout x.shortest, isNumberChar c = true := by
    intro c hc
    rw [htext] at hc
    rcases List.mem_append.mp hc with hc | hc
    · exact hfront c hc
    · rcases List.mem_cons.mp hc with rfl | hc
      · rcases hmark with rfl | rfl <;> decide
      · exact hback c hc
  intro c hc
  rw [floatText_eq] at hc
  split_ifs at hc
  · rcases List.mem_cons.mp hc with rfl | hc
    · decide
    · exact hall c hc
  · exact hall c hc

/-- An integer is written with digits after its sign. -/
theorem mem_intText {n : Int} {c : Char} (h : c ∈ intText n) : c = '-' ∨ c.isDigit = true := by
  unfold intText at h
  split_ifs at h
  · exact (List.mem_cons.mp h).imp_right isDigit_of_mem_digitsOfNat
  · exact .inr (isDigit_of_mem_digitsOfNat h)

theorem intText_injective : Function.Injective intText := by
  have hunsigned (n : Nat) (cs : List Char) : '-' :: cs ≠ digitsOfNat n := fun h =>
    (allDigits_digitsOfNat n).not_mem (c := '-') (by decide) (h ▸ List.mem_cons_self)
  intro m n h
  unfold intText at h
  split_ifs at h
  · have := digitsOfNat_injective ((List.cons_inj_right _).mp h)
    omega
  · exact absurd h (hunsigned _ _)
  · exact absurd h.symm (hunsigned _ _)
  · have := digitsOfNat_injective h
    omega

/-- Integers and doubles are never written alike. -/
theorem intText_ne_floatText (n : Int) (x : Binary64) : intText n ≠ floatText x := by
  intro h
  rcases mark_mem_floatText x with hmark | hmark <;> rw [← h] at hmark <;>
    exact (mem_intText hmark).elim (by decide) (by decide)

theorem numberText_injective : Function.Injective numberText := by
  intro m n h
  match m, n with
  | .int m _, .int n _ =>
    obtain rfl := intText_injective h
    rfl
  | .int m _, .float y => exact absurd h (intText_ne_floatText m y)
  | .float x, .int n _ => exact absurd h.symm (intText_ne_floatText n x)
  | .float x, .float y => rw [floatText_injective h]

theorem isNumberChar_of_mem_numberText {n : Number} : ∀ c ∈ numberText n, isNumberChar c = true := by
  intro c hc
  cases n with
  | int n _ =>
    rcases mem_intText hc with rfl | hdigit
    · decide
    · simp [isNumberChar, hdigit]
  | float x => exact isNumberChar_of_mem_floatText c hc

theorem numberText_ne_nil (n : Number) : numberText n ≠ [] := by
  cases n with
  | int n _ =>
    have := length_digitsOfNat_pos n.natAbs
    simp only [numberText, intText]
    split_ifs
    · simp
    · exact List.ne_nil_of_length_pos this
  | float x =>
    rcases mark_mem_floatText x with h | h <;> exact List.ne_nil_of_mem h

/-- What follows a number: nothing, or a character that is not part of it. -/
def EndsNumber (rest : List Char) : Prop := ∀ c ∈ rest.head?, isNumberChar c = false

theorem takeWhile_numberText_append (n : Number) {rest : List Char} (h : EndsNumber rest) :
    (numberText n ++ rest).takeWhile isNumberChar = numberText n := by
  rw [List.takeWhile_append_of_pos isNumberChar_of_mem_numberText]
  cases rest with
  | nil => simp
  | cons c rest => simp [h c rfl]

/-- In front of what ends a number its text determines it, and where it ends. -/
theorem numberText_append_inj {m n : Number} {rest rest' : List Char} (hrest : EndsNumber rest)
    (hrest' : EndsNumber rest') (h : numberText m ++ rest = numberText n ++ rest') : m = n ∧ rest = rest' := by
  have htext : numberText m = numberText n := by
    rw [← takeWhile_numberText_append m hrest, h, takeWhile_numberText_append n hrest']
  rw [htext] at h
  exact ⟨numberText_injective htext, List.append_cancel_left h⟩

end EntityQuery.Json
