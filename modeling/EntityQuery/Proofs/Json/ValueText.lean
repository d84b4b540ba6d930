import EntityQuery.Proofs.Json.NumberText
import EntityQuery.Proofs.Json.StringText

/-!
# The text of a value determines it

No text of a value goes on as the text of another one: the first character tells the kind, strings and
numbers end where they end, and the items of arrays and objects are taken one after the other.

* `Json.render_append_inj`: the text of a value determines it and where it ends, whatever ends a number next;
* `Json.text_injective`: values with one text are one value.
-/

namespace EntityQuery.Json

/-- What the first character of a text tells about the value. -/
inductive Shape where
  | null
  | true
  | false
  | number
  | string
  | array
  | object
  /-- No value starts like this. -/
  | other
deriving DecidableEq

/-- The shape of a value. -/
def shape : Json → Shape
  | .null => .null
  | .bool true => .true
  | .bool false => .false
  | .number _ => .number
  | .string _ => .string
  | .array _ => .array
  | .object _ => .object

/-- The shape that a first character announces. -/
def shapeOf (c : Char) : Shape :=
  if c = 'n' then .null
  else if c = 't' then .true
  else if c = 'f' then .false
  else if c = '"' then .string
  else if c = '[' then .array
  else if c = '\x7b' then .object
  else if isNumberChar c then .number
  else .other

theorem shapeOf_of_isNumberChar {c : Char} (h : isNumberChar c = true) : shapeOf c = .number := by
  have hne {d : Char} (hd : isNumberChar d = false) : c ≠ d := by
    rintro rfl
    rw [h] at hd
    cases hd
  simp [shapeOf, h, hne (d := 'n') rfl, hne (d := 't') rfl, hne (d := 'f') rfl, hne (d := '"') rfl,
    hne (d := '[') rfl, hne (d := '\x7b') rfl]

/-- The first character of the text of a value announces its shape. -/
theorem render_eq_cons (v : Json) : ∃ c cs, render v = c :: cs ∧ shapeOf c = v.shape := by
  cases v with
  | null => exact ⟨_, _, rfl, rfl⟩
  | bool b => cases b <;> exact ⟨_, _, rfl, rfl⟩
  | number n =>
    obtain ⟨c, cs, hcons⟩ := List.exists_cons_of_ne_nil (numberText_ne_nil n)
    refine ⟨c, cs, hcons, shapeOf_of_isNumberChar ?_⟩
    exact isNumberChar_of_mem_numberText (n := n) c (hcons ▸ List.mem_cons_self)
  | string s => exact ⟨_, _, rfl, rfl⟩
  | array xs => cases xs <;> exact ⟨_, _, rfl, rfl⟩
  | object xs => cases xs <;> exact ⟨_, _, rfl, rfl⟩

theorem shape_eq_of_render_append {v w : Json} {rest rest' : List Char}
    (h : render v ++ rest = render w ++ rest') :
    v.shape = w.shape := by
  obtain ⟨c, cs, hv, hc⟩ := render_eq_cons v
  obtain ⟨d, ds, hw, hd⟩ := render_eq_cons w
  rw [hv, hw] at h
  rw [← hc, ← hd, (List.cons_eq_cons.mp h).1]

/-- A value does not start with a character that starts none. -/
theorem render_append_ne_cons {v : Json} {c : Char} {rest rest' : List Char} (hc : shapeOf c = .other) :
    render v ++ rest ≠ c :: rest' := by
  obtain ⟨d, ds, hv, hd⟩ := render_eq_cons v
  rw [hv]
  intro h
  rw [(List.cons_eq_cons.mp h).1, hc] at hd
  cases v with
  | bool b => cases b <;> cases hd
  | _ => cases hd

theorem endsNumber_cons {c : Char} {rest : List Char} (h : isNumberChar c = false) : EndsNumber (c :: rest) := by
  intro d hd
  obtain rfl := Option.mem_some.mp hd
  exact h

theorem endsNumber_renderItems (xs : List Json) (rest : List Char) : EndsNumber (renderItems xs ++ rest) := by
  cases xs <;> exact endsNumber_cons rfl

theorem endsNumber_renderMembers (xs : List (String × Json)) (rest : List Char) :
    EndsNumber (renderMembers xs ++ rest) := by
  cases xs with
  | nil => exact endsNumber_cons rfl
  | cons x xs => exact endsNumber_cons rfl

mutual

/-- The text of a value determines it, and where it ends. -/
theorem render_append_inj : ∀ (v w : Json) {rest rest' : List Char}, EndsNumber rest → EndsNumber rest' →
    render v ++ rest = render w ++ rest' → v = w ∧ rest = rest'
  | .null, w, _, _, _, _, h => by
    have hshape := shape_eq_of_render_append h
    cases w with
    | null => exact ⟨rfl, List.append_cancel_left h⟩
    | bool b => cases b <;> cases hshape
    | _ => cases hshape
  | .bool b, w, _, _, _, _, h => by
    have hshape := shape_eq_of_render_append h
    cases w with
    | bool b' =>
      obtain rfl : b = b' := by
        cases b <;> cases b' <;> first | rfl | cases hshape
      exact ⟨rfl, List.append_cancel_left h⟩
    | _ => cases b <;> cases hshape
  | .number n, w, _, _, hrest, hrest', h => by
    have hshape := shape_eq_of_render_append h
    cases w with
    | number n' =>
      obtain ⟨rfl, hend⟩ := numberText_append_inj hrest hrest' h
      exact ⟨rfl, hend⟩
    | bool b => cases b <;> cases hshape
    | _ => cases hshape
  | .string s, w, _, _, _, _, h => by
    have hshape := shape_eq_of_render_append h
    cases w with
    | string t =>
      obtain ⟨rfl, hend⟩ := stringText_append_inj h
      exact ⟨rfl, hend⟩
    | bool b => cases b <;> cases hshape
    | _ => cases hshape
  | .array xs, w, _, _, _, _, h => by
    have hshape := shape_eq_of_render_append h
    cases w with
    | array ys =>
      obtain ⟨rfl, hend⟩ := renderArray_append_inj xs ys h
      exact ⟨rfl, hend⟩
    | bool b => cases b <;> cases hshape
    | _ => cases hshape
  | .object xs, w, _, _, _, _, h => by
    have hshape := shape_eq_of_render_append h
    cases w with
    | object ys =>
      obtain ⟨rfl, hend⟩ := renderObject_append_inj xs ys h
      exact ⟨rfl, hend⟩
    | bool b => cases b <;> cases hshape
    | _ => cases hshape

theorem renderArray_append_inj : ∀ (xs ys : List Json) {rest rest' : List Char},
    render (.array xs) ++ rest = render (.array ys) ++ rest' → xs = ys ∧ rest = rest'
  | [], [], _, _, h => ⟨rfl, List.append_cancel_left h⟩
  | [], y :: ys, _, _, h => by
    simp only [render, List.cons_append, List.nil_append, List.append_assoc, List.cons.injEq, true_and] at h
    exact absurd h.symm (render_append_ne_cons rfl)
  | x :: xs, [], _, _, h => by
    simp only [render, List.cons_append, List.nil_append, List.append_assoc, List.cons.injEq, true_and] at h
    exact absurd h (render_append_ne_cons rfl)
  | x :: xs, y :: ys, _, _, h => by
    simp only [render, List.cons_append, List.append_assoc, List.cons.injEq, true_and] at h
    obtain ⟨rfl, hitems⟩ := render_append_inj x y (endsNumber_renderItems _ _) (endsNumber_renderItems _ _) h
    obtain ⟨rfl, hend⟩ := renderItems_append_inj xs ys hitems
    exact ⟨rfl, hend⟩

theorem renderItems_append_inj : ∀ (xs ys : List Json) {rest rest' : List Char},
    renderItems xs ++ rest = renderItems ys ++ rest' → xs = ys ∧ rest = rest'
  | [], [], _, _, h => ⟨rfl, List.append_cancel_left h⟩
  | [], _ :: _, _, _, h => by cases h
  | _ :: _, [], _, _, h => by cases h
  | x :: xs, y :: ys, _, _, h => by
    simp only [renderItems, List.cons_append, List.append_assoc, List.cons.injEq, true_and] at h
    obtain ⟨rfl, hitems⟩ := render_append_inj x y (endsNumber_renderItems _ _) (endsNumber_renderItems _ _) h
    obtain ⟨rfl, hend⟩ := renderItems_append_inj xs ys hitems
    exact ⟨rfl, hend⟩

theorem renderObject_append_inj : ∀ (xs ys : List (String × Json)) {rest rest' : List Char},
    render (.object xs) ++ rest = render (.object ys) ++ rest' → xs = ys ∧ rest = rest'
  | [], [], _, _, h => ⟨rfl, List.append_cancel_left h⟩
  | [], (m, y) :: ys, _, _, h => by cases h
  | (m, x) :: xs, [], _, _, h => by cases h
  | (m, x) :: xs, (n, y) :: ys, _, _, h => by
    simp only [render, List.cons_append, List.append_assoc, List.cons.injEq, true_and] at h
    obtain ⟨rfl, hvalue⟩ := stringText_append_inj h
    obtain ⟨rfl, hmembers⟩ :=
      render_append_inj x y (endsNumber_renderMembers _ _) (endsNumber_renderMembers _ _)
      (List.cons_eq_cons.mp hvalue).2
    obtain ⟨rfl, hend⟩ := renderMembers_append_inj xs ys hmembers
    exact ⟨rfl, hend⟩

theorem renderMembers_append_inj : ∀ (xs ys : List (String × Json)) {rest rest' : List Char},
    renderMembers xs ++ rest = renderMembers ys ++ rest' → xs = ys ∧ rest = rest'
  | [], [], _, _, h => ⟨rfl, List.append_cancel_left h⟩
  | [], (_, _) :: _, _, _, h => by cases h
  | (_, _) :: _, [], _, _, h => by cases h
  | (m, x) :: xs, (n, y) :: ys, _, _, h => by
    simp only [renderMembers, List.cons_append, List.append_assoc, List.cons.injEq, true_and] at h
    obtain ⟨rfl, hvalue⟩ := stringText_append_inj h
    obtain ⟨rfl, hmembers⟩ :=
      render_append_inj x y (endsNumber_renderMembers _ _) (endsNumber_renderMembers _ _)
      (List.cons_eq_cons.mp hvalue).2
    obtain ⟨rfl, hend⟩ := renderMembers_append_inj xs ys hmembers
    exact ⟨rfl, hend⟩

end

theorem text_injective : Function.Injective text := by
  intro v w h
  have hrender : render v ++ [] = render w ++ [] := by
    rw [List.append_nil, List.append_nil]
    exact String.ofList_injective h
  have hend : EndsNumber [] := fun c hc => by cases hc
  exact (render_append_inj v w hend hend hrender).1

end EntityQuery.Json
