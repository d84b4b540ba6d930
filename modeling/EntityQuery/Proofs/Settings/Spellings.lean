import EntityQuery.Proofs.Json.Spellings
import EntityQuery.Proofs.Query.RoundTrip

/-!
# Spellings of settings

Settings can leave out what has its default, whole sections too, but null stands for a missing page size only. The
written form leaves out a missing page size and nothing else.

* `Settings.decode?_iff`: settings are read from their spellings;
* `Settings.decode?_encode`: written settings read back.
-/

namespace EntityQuery

open Json

/-! ## Reading -/

/-- The spellings of the presets of queries. -/
def QueryPresets.Spells (p : QueryPresets) : Json → Prop :=
  SpellsPartial [
    ("no_lock", SpellsDefaulted true (SpellsAs .bool) p.noLock),
    ("page_size", SpellsOptional (SpellsAs .ofUInt32) p.pageSize),
    ("return_total_record_count", SpellsDefaulted false (SpellsAs .bool) p.wantsTotal)]

theorem QueryPresets.decode?_iff (p : QueryPresets) (v : Json) : QueryPresets.decode? v = some p ↔ p.Spells v := by
  obtain ⟨noLock, pageSize, wantsTotal⟩ := p
  refine bind_partialFields?_iff rfl fun given => ?_
  rcases given with _ | ⟨a, _ | ⟨b, _ | ⟨c, _ | _⟩⟩⟩ <;>
    simp [Option.bind_eq_some_iff, default?_iff asBool?_iff, optional?_iff asUInt32?_iff rfl, -Bool.exists_bool]

/-- The spellings of the settings of caches. -/
def CacheSettings.Spells (s : CacheSettings) : Json → Prop :=
  SpellsPartial [("ttl_secs", SpellsDefaulted 3600 (SpellsAs fun n => .number (.ofUInt64 n)) s.ttlSecs)]

theorem CacheSettings.decode?_iff (s : CacheSettings) (v : Json) : CacheSettings.decode? v = some s ↔ s.Spells v := by
  obtain ⟨ttlSecs⟩ := s
  refine bind_partialFields?_iff rfl fun given => ?_
  rcases given with _ | ⟨a, _ | _⟩ <;> simp [Option.bind_eq_some_iff, default?_iff asUInt64?_iff]

/-- The spellings of settings. -/
def Settings.Spells (s : Settings) : Json → Prop :=
  SpellsPartial [
    ("query", SpellsDefaulted {} QueryPresets.Spells s.query),
    ("cache", SpellsDefaulted {} CacheSettings.Spells s.cache)]

theorem Settings.decode?_iff (s : Settings) (v : Json) : Settings.decode? v = some s ↔ s.Spells v := by
  obtain ⟨query, cache⟩ := s
  refine bind_partialFields?_iff rfl fun given => ?_
  rcases given with _ | ⟨a, _ | ⟨b, _ | _⟩⟩ <;>
    simp [Option.bind_eq_some_iff, default?_iff QueryPresets.decode?_iff, default?_iff CacheSettings.decode?_iff]

/-! ## Writing -/

theorem QueryPresets.decode?_encode (p : QueryPresets) : QueryPresets.decode? p.encode = some p := by
  refine (decode?_iff p _).mpr (.object ?_)
  simp only [List.forall_mem_cons, List.not_mem_nil, false_implies, forall_const, and_true]
  refine ⟨.inr ⟨_, rfl, rfl⟩, ?_, .inr ?_⟩
  · -- a missing page size is left out, so what follows it is looked at
    cases p.pageSize with
    | none => exact .inl rfl
    | some n => exact ⟨_, rfl, rfl⟩
  · cases p.pageSize with
    | none => exact ⟨_, rfl, rfl⟩
    | some n => exact ⟨_, rfl, rfl⟩

theorem CacheSettings.decode?_encode (s : CacheSettings) : CacheSettings.decode? s.encode = some s := by
  refine (decode?_iff s _).mpr (.object ?_)
  simp only [List.forall_mem_cons, List.not_mem_nil, false_implies, forall_const, and_true]
  exact .inr ⟨_, rfl, rfl⟩

/-- Written settings read back. -/
theorem Settings.decode?_encode (s : Settings) : Settings.decode? s.encode = some s := by
  have hquery := (QueryPresets.decode?_iff s.query _).mp s.query.decode?_encode
  have hcache := (CacheSettings.decode?_iff s.cache _).mp s.cache.decode?_encode
  refine (decode?_iff s _).mpr (.object ?_)
  simp only [List.forall_mem_cons, List.not_mem_nil, false_implies, forall_const, and_true]
  exact ⟨.inr ⟨_, rfl, hquery⟩, .inr ⟨_, rfl, hcache⟩⟩

end EntityQuery
