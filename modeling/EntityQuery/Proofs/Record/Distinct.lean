import EntityQuery.Proofs.Json.Same
import EntityQuery.Record.Basic
import Mathlib.Data.List.Nodup

/-!
# Records without repetition

Sameness of records is an equivalence, so of the records that are the same as each other it does not matter which was
seen: `Record.distinct`, which looks a record up among those that it kept, keeps the records that none before them in
the whole list is the same as.

* `Record.firsts`: the first occurrences in a list, by the records before each position;
* `Record.distinct_eq_firsts`: the records that are kept are the first occurrences;
* `Record.pairwise_distinct`, `Record.existsUnique_same`: none is kept twice, and each record is the same as one.
-/

namespace EntityQuery.Record

/-! ## Sameness -/

/-- What same records have in common. -/
def face (r : Record) : String × Option Identifier × List (String × Json) :=
  (r.logicalName, r.id, Json.normalMembers r.attributes.entries)

section Sameness

variable {r s t : Record}

theorem same_iff : r.same s = true ↔ r.face = s.face := by
  simp [same, face, Json.sameMembers_iff, and_assoc]

theorem same_refl (r : Record) : r.same r = true := same_iff.mpr rfl

theorem same_symm (h : r.same s = true) : s.same r = true := same_iff.mpr (same_iff.mp h).symm

theorem same_trans (h : r.same s = true) (h' : s.same t = true) : r.same t = true :=
  same_iff.mpr ((same_iff.mp h).trans (same_iff.mp h'))

/-- Same records are the same as the same records. -/
theorem any_same_congr (h : r.same s = true) (seen : List Record) :
    (seen.any fun t => t.same r) = seen.any fun t => t.same s := by
  refine List.any_congr rfl fun t => ?_
  rw [Bool.eq_iff_iff]
  exact ⟨fun hr => same_trans hr h, fun hs => same_trans hs (same_symm h)⟩

end Sameness

/-! ## First occurrences -/

/-- The records of a list that are the same as none before them, in order. -/
def firsts (records : List Record) : List Record :=
  (records.zipIdx.filter fun x => (records.take x.2).all fun s => !s.same x.1).map Prod.fst

/-- What is kept after records that were seen. Of the records before, only those that were kept were seen; every record
is the same as one of the former when it is the same as one of the latter. -/
theorem distinctAfter_eq (before records : List Record) {seen : List Record}
    (h : ∀ r, (seen.any fun s => s.same r) = before.any fun s => s.same r) :
    distinctAfter seen records = ((records.zipIdx before.length).filter fun x =>
      ((before ++ records).take x.2).all fun s => !s.same x.1).map Prod.fst := by
  induction records generalizing before seen with
  | nil => rfl
  | cons r rest ih =>
    have hlater : ∀ seen', (∀ t, (seen'.any fun s => s.same t) = (before ++ [r]).any fun s => s.same t) →
        distinctAfter seen' rest = ((rest.zipIdx (before.length + 1)).filter fun x =>
          ((before ++ r :: rest).take x.2).all fun s => !s.same x.1).map Prod.fst := by
      intro seen' hseen'
      have hrest := ih (before ++ [r]) hseen'
      rwa [List.length_append, List.append_assoc] at hrest
    have hfirst : ((before ++ r :: rest).take before.length).all (fun s => !s.same r) =
        !seen.any fun s => s.same r := by
      rw [List.take_left, h, List.not_any_eq_all_not]
    rw [distinctAfter, List.zipIdx_cons, List.filter_cons, hfirst]
    by_cases hany : (seen.any fun s => s.same r) = true
    · rw [hany, if_pos rfl, Bool.not_true, if_neg Bool.false_ne_true]
      refine hlater seen fun t => ?_
      rw [List.any_append, ← h t, List.any_cons, List.any_nil, Bool.or_false]
      -- the record itself was not added, but it is the same as one that is there
      cases hsame : r.same t with
      | false => rw [Bool.or_false]
      | true => rw [Bool.or_true, ← any_same_congr hsame, hany]
    · rw [if_neg hany, Bool.eq_false_iff.mpr hany, Bool.not_false, if_pos rfl, List.map_cons]
      refine congrArg (r :: ·) (hlater (seen ++ [r]) fun t => ?_)
      rw [List.any_append, List.any_append, h t]

/-- **The records that are kept are the first occurrences.** -/
theorem distinct_eq_firsts (records : List Record) : distinct records = firsts records :=
  distinctAfter_eq [] records fun _ => rfl

/-- First occurrences are in the order of the list. -/
theorem firsts_sublist (records : List Record) : (firsts records).Sublist records := by
  have hall : (records.zipIdx.map Prod.fst).Sublist records := by
    rw [List.zipIdx_map_fst]
  exact (List.filter_sublist.map Prod.fst).trans hall

/-! ## No record twice -/

theorem forall_mem_distinctAfter (seen records : List Record) :
    (∀ s ∈ seen, ∀ r ∈ distinctAfter seen records, s.same r = false) ∧
      (distinctAfter seen records).Pairwise fun r s => r.same s = false := by
  induction records generalizing seen with
  | nil => exact ⟨fun _ _ _ h => absurd h List.not_mem_nil, .nil⟩
  | cons r rest ih =>
    unfold distinctAfter
    split_ifs with hany
    · exact ih seen
    · obtain ⟨hseen, hrest⟩ := ih (seen ++ [r])
      rw [List.forall_mem_append, List.forall_mem_singleton] at hseen
      have hnone : ∀ s ∈ seen, s.same r = false := by simpa using hany
      refine ⟨fun s hs => List.forall_mem_cons.mpr ⟨hnone s hs, hseen.1 s hs⟩, ?_⟩
      exact List.pairwise_cons.mpr ⟨hseen.2, hrest⟩

/-- No two records that are kept are the same. -/
theorem pairwise_distinct (records : List Record) : (distinct records).Pairwise fun r s => r.same s = false :=
  (forall_mem_distinctAfter [] records).2

theorem exists_same_of_mem (seen : List Record) {r : Record} {records : List Record} (h : r ∈ records) :
    ∃ s ∈ seen ++ distinctAfter seen records, r.same s = true := by
  induction records generalizing seen with
  | nil => exact absurd h List.not_mem_nil
  | cons t rest ih =>
    unfold distinctAfter
    split_ifs with hany
    · rcases List.mem_cons.mp h with rfl | h
      · obtain ⟨s, hs, hsame⟩ := List.any_eq_true.mp hany
        exact ⟨s, List.mem_append_left _ hs, same_symm hsame⟩
      · exact ih seen h
    · rcases List.mem_cons.mp h with rfl | h
      · exact ⟨r, List.mem_append_right _ List.mem_cons_self, same_refl r⟩
      · have hlater := ih (seen ++ [t]) h
        rwa [List.append_assoc, List.singleton_append] at hlater

/-- **Every record is the same as just one of those that are kept.** -/
theorem existsUnique_same {r : Record} {records : List Record} (h : r ∈ records) :
    ∃! i : Nat, ∃ s, (distinct records)[i]? = some s ∧ r.same s = true := by
  obtain ⟨s, hs, hsame⟩ := exists_same_of_mem [] h
  obtain ⟨i, hi⟩ := List.mem_iff_getElem?.mp hs
  refine ⟨i, ⟨s, hi, hsame⟩, ?_⟩
  rintro j ⟨t, hj, hother⟩
  have hst : s.same t = true := same_trans (same_symm hsame) hother
  have hapart := List.pairwise_iff_getElem.mp (pairwise_distinct records)
  obtain ⟨hi', rfl⟩ := List.getElem?_eq_some_iff.mp hi
  obtain ⟨hj', rfl⟩ := List.getElem?_eq_some_iff.mp hj
  rcases Nat.lt_trichotomy i j with hlt | heq | hgt
  · exact absurd hst (Bool.eq_false_iff.mp (hapart i j hi' hj' hlt))
  · exact heq.symm
  · exact absurd (same_symm hst) (Bool.eq_false_iff.mp (hapart j i hj' hi' hgt))

end EntityQuery.Record
