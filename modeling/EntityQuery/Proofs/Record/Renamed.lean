import EntityQuery.Proofs.Record.Distinct
import EntityQuery.Proofs.SortedMap

/-!
# Records with renamed attributes

The attributes of a record can be put under other names, as a function of the names says. When the function can be
undone on the names of the records of a list, renamed records are the same just when the records are, so that the same
ones of them are kept when repetitions are dropped.

* `SortedMap.mapNames`, `Record.renamed`: maps and records with other names;
* `SortedMap.mapNames_mapNames`: a renaming that is undone;
* `Record.same_renamed_iff`, `Record.distinct_map_renamed`: repetitions among renamed records.
-/

namespace EntityQuery

/-! ## Maps -/

namespace SortedMap

variable {α : Type} {f g : String → String} {m : SortedMap α}

/-- The map with the values under other names. -/
def mapNames (f : String → String) (m : SortedMap α) : SortedMap α := ofList (m.entries.map (Prod.map f id))

theorem map_fst_map (f : String → String) (entries : List (String × α)) :
    (entries.map (Prod.map f id)).map Prod.fst = (entries.map Prod.fst).map f := by
  rw [List.map_map, List.map_map, Prod.map_fst']

/-- Entries whose names stay apart are all there. -/
theorem perm_entries_mapNames (h : ((m.entries.map Prod.fst).map f).Nodup) :
    (m.mapNames f).entries.Perm (m.entries.map (Prod.map f id)) := by
  refine perm_entries_insertAll (m := empty) ?_
  rwa [entries_empty, List.nil_append, map_fst_map]

/-- Names that can be taken back stay apart. -/
theorem nodup_map_names {names : List String} (hnames : names.Nodup) (h : ∀ name ∈ names, g (f name) = name) :
    (names.map f).Nodup := by
  refine hnames.map_on fun x hx y hy heq => ?_
  rw [← h x hx, heq, h y hy]

/-- A renaming that can be taken back is undone. -/
theorem mapNames_mapNames (h : ∀ name ∈ m.entries.map Prod.fst, g (f name) = name) :
    (m.mapNames f).mapNames g = m := by
  have hrenamed := perm_entries_mapNames (nodup_map_names m.nodup_names h)
  have hback : (m.entries.map (Prod.map f id)).map (Prod.map g id) = m.entries := by
    rw [List.map_map]
    refine List.map_congr_left (fun e he => ?_) |>.trans (List.map_id _)
    exact Prod.ext (h e.1 (List.mem_map_of_mem he)) rfl
  have hundone : ((m.mapNames f).entries.map (Prod.map g id)).Perm m.entries := hback ▸ hrenamed.map (Prod.map g id)
  have hnames : (((m.mapNames f).entries.map Prod.fst).map g).Nodup := by
    rw [← map_fst_map]
    exact (hundone.map Prod.fst).nodup_iff.mpr m.nodup_names
  exact eq_of_perm ((perm_entries_mapNames hnames).trans hundone)

end SortedMap

/-! ## Sameness -/

namespace Json

theorem normalMembers_insertEntry (name : String) (value : Json) (entries : List (String × Json)) :
    normalMembers (SortedMap.insertEntry name value entries) =
      SortedMap.insertEntry name value.normal (normalMembers entries) := by
  induction entries with
  | nil => rfl
  | cons e rest ih =>
    obtain ⟨other, x⟩ := e
    simp only [SortedMap.insertEntry, normalMembers]
    split_ifs
    · rfl
    · rw [normalMembers, ih]
    · rfl

/-- Entries with one normal form, when they are inserted, leave maps with one normal form. -/
theorem normalMembers_insertAll {m n : SortedMap Json} {entries more : List (String × Json)}
    (hmaps : normalMembers m.entries = normalMembers n.entries) (h : normalMembers entries = normalMembers more) :
    normalMembers (m.insertAll entries).entries = normalMembers (n.insertAll more).entries := by
  induction entries generalizing m n more with
  | nil =>
    obtain - | ⟨⟨name, x⟩, more⟩ := more
    · exact hmaps
    · cases h
  | cons e rest ih =>
    obtain ⟨name, x⟩ := e
    obtain - | ⟨⟨name', y⟩, more⟩ := more
    · cases h
    · obtain ⟨hfirst, hrest⟩ := List.cons.inj h
      obtain ⟨rfl, hvalue⟩ := Prod.mk.inj hfirst
      rw [SortedMap.insertAll_cons, SortedMap.insertAll_cons]
      refine ih ?_ hrest
      rw [SortedMap.entries_insert, SortedMap.entries_insert, normalMembers_insertEntry, normalMembers_insertEntry,
        hmaps, hvalue]

theorem normalMembers_map (f : String → String) (entries : List (String × Json)) :
    normalMembers (entries.map (Prod.map f id)) = (normalMembers entries).map (Prod.map f id) := by
  induction entries with
  | nil => rfl
  | cons e rest ih => rw [List.map_cons, normalMembers, normalMembers, ih, List.map_cons]; rfl

end Json

namespace Record

variable {f g : String → String} {r s : Record}

/-- The record with its attributes under other names. -/
def renamed (f : String → String) (r : Record) : Record := { r with attributes := r.attributes.mapNames f }

/-- Renaming takes same records to same records. -/
theorem same_renamed (f : String → String) (h : r.same s = true) : (r.renamed f).same (s.renamed f) = true := by
  obtain ⟨hname, hrest⟩ := Prod.mk.inj (same_iff.mp h)
  obtain ⟨hid, hmembers⟩ := Prod.mk.inj hrest
  refine same_iff.mpr (Prod.ext hname (Prod.ext hid ?_))
  refine Json.normalMembers_insertAll rfl ?_
  rw [Json.normalMembers_map, Json.normalMembers_map, hmembers]

/-- The function can be undone on the names of the record. -/
def Undone (g f : String → String) (r : Record) : Prop := ∀ name ∈ r.attributes.entries.map Prod.fst, g (f name) = name

theorem Undone.renamed_renamed (h : r.Undone g f) : (r.renamed f).renamed g = r := by
  unfold renamed
  rw [SortedMap.mapNames_mapNames h]

/-- **Renamed records are the same when the records are**, if the renaming can be undone. -/
theorem same_renamed_iff (hr : r.Undone g f) (hs : s.Undone g f) :
    (r.renamed f).same (s.renamed f) = true ↔ r.same s = true := by
  refine ⟨fun h => ?_, same_renamed f⟩
  have hback := same_renamed g h
  rwa [hr.renamed_renamed, hs.renamed_renamed] at hback

/-! ## Repetitions -/

theorem distinctAfter_map {change : Record → Record} (seen : List Record) {records : List Record}
    (h : ∀ r ∈ seen ++ records, ∀ s ∈ seen ++ records, (change r).same (change s) = r.same s) :
    distinctAfter (seen.map change) (records.map change) = (distinctAfter seen records).map change := by
  induction records generalizing seen with
  | nil => rfl
  | cons r rest ih =>
    have hany : ((seen.map change).any fun s => s.same (change r)) = seen.any fun s => s.same r := by
      rw [List.any_map, Bool.eq_iff_iff, List.any_eq_true, List.any_eq_true]
      refine exists_congr fun s => and_congr_right fun hs => ?_
      show (change s).same (change r) = true ↔ _
      rw [h s (List.mem_append_left _ hs) r (List.mem_append_right _ List.mem_cons_self)]
    rw [List.map_cons, distinctAfter, distinctAfter, hany]
    split_ifs
    · have hsub : seen ++ rest ⊆ seen ++ r :: rest := by simp
      exact ih seen fun r hr s hs => h r (hsub hr) s (hsub hs)
    · have hlater := ih (seen ++ [r])
      rw [List.append_assoc, List.map_append] at hlater
      rw [List.map_cons]
      exact congrArg _ (hlater h)

/-- **The same ones are kept of renamed records.** -/
theorem distinct_map_renamed {records : List Record} (h : ∀ r ∈ records, r.Undone g f) :
    distinct (records.map (renamed f)) = (distinct records).map (renamed f) := by
  refine distinctAfter_map [] fun r hr s hs => ?_
  rw [Bool.eq_iff_iff, same_renamed_iff (h r hr) (h s hs)]

end Record

end EntityQuery
