import EntityQuery.Proofs.Json.ValueText
import EntityQuery.Proofs.Query.RoundTrip
import EntityQuery.Query.Fingerprint
import EntityQuery.Query.Steps

/-!
# A cache key determines query and extent

The canonical text is written so that it reads in one way only. A key ends with sixty-four digits of a
fingerprint and starts with an extent, so an entity name between them may hold colons or look like a key.

* `Query.canonicalBytes_injective`: queries with the same canonical bytes are the same;
* `Query.eq_of_cacheKey_eq`: so are queries with the same key, unless their texts are a collision of SHA-256.
-/

namespace EntityQuery

/-! ## Bytes and digits -/

theorem byteArray_toList_loop (bytes : ByteArray) (i : Nat) (r : List UInt8) :
    ByteArray.toList.loop bytes i r = r.reverse ++ bytes.data.toList.drop i := by
  fun_induction ByteArray.toList.loop bytes i r with
  | case1 i r hlt ih =>
    have hnext : bytes.data.toList.drop i = bytes.get! i :: bytes.data.toList.drop (i + 1) := by
      rw [List.drop_eq_getElem_cons (show i < bytes.data.toList.length from hlt)]
      obtain ⟨data⟩ := bytes
      have hi : i < data.size := hlt
      show data[i] :: _ = data[i]! :: _
      rw [getElem!_pos data i hi]
    rw [ih, hnext, List.reverse_cons, List.append_assoc, List.singleton_append]
  | case2 i r hge =>
    have hend : bytes.data.toList.length ≤ i := Nat.le_of_not_lt hge
    rw [List.drop_eq_nil_of_le hend, List.append_nil]

theorem byteArray_toList_eq (bytes : ByteArray) : bytes.toList = bytes.data.toList := by
  rw [ByteArray.toList, byteArray_toList_loop]
  rfl

theorem byteArray_toList_injective : Function.Injective ByteArray.toList := by
  intro a b h
  rw [byteArray_toList_eq, byteArray_toList_eq] at h
  exact ByteArray.ext (Array.toList_inj.mp h)

namespace Text

theorem bytesOfHex?_hexOfBytes (bytes : List UInt8) : bytesOfHex? (hexOfBytes bytes) = some bytes := by
  induction bytes with
  | nil => rfl
  | cons b bytes ih =>
    have hb := b.toNat_lt
    have hbyte : UInt8.ofNat (16 * (b.toNat / 16) + b.toNat % 16) = b := by
      rw [Nat.div_add_mod, UInt8.ofNat_toNat]
    have hcons : hexOfBytes (b :: bytes) =
      hexDigit (b.toNat / 16) :: hexDigit (b.toNat % 16) :: hexOfBytes bytes := rfl
    rw [hcons, bytesOfHex?, hexValue?_hexDigit (by omega), hexValue?_hexDigit (by omega), ih]
    simp only [Option.bind_eq_bind, Option.bind_some, Option.pure_def, hbyte]

theorem hexOfBytes_injective : Function.Injective hexOfBytes := by
  intro as bs h
  have hread := bytesOfHex?_hexOfBytes as
  rw [h, bytesOfHex?_hexOfBytes] at hread
  exact (Option.some.inj hread).symm

theorem length_hexOfBytes (bytes : List UInt8) : (hexOfBytes bytes).length = 2 * bytes.length := by
  induction bytes with
  | nil => rfl
  | cons b bytes ih =>
    rw [List.length_cons, Nat.mul_succ, ← ih]
    rfl

end Text

namespace Sha256

theorem length_bigEndian (count n : Nat) : (bigEndian count n).length = count := by
  induction count generalizing n with
  | zero => rfl
  | succ count ih => rw [bigEndian, List.length_append, ih, List.length_singleton]

/-- A digest has eight words of four bytes. -/
theorem length_digest (message : List UInt8) : (digest message).length = 32 := by
  simp [digest, State.words, length_bigEndian]

end Sha256

/-! ## Keys -/

namespace Query

/-- The bytes of the canonical text. -/
def canonicalBytes (q : Query) : List UInt8 := q.canonical.toUTF8.toList

/-- The canonical bytes of two queries are not a collision of SHA-256. -/
def NoCollision (q r : Query) : Prop :=
  Sha256.digest q.canonicalBytes = Sha256.digest r.canonicalBytes → q.canonicalBytes = r.canonicalBytes

/-- Queries with the same canonical bytes are the same. -/
theorem canonicalBytes_injective : Function.Injective canonicalBytes := by
  intro q r h
  have hutf8 : q.canonical.toUTF8 = r.canonical.toUTF8 := byteArray_toList_injective h
  have htext : q.canonical = r.canonical := String.toByteArray_inj.mp hutf8
  exact encode_injective (Json.text_injective htext)

theorem toList_fingerprint (q : Query) :
    q.fingerprint.toList = Text.hexOfBytes (Sha256.digest q.canonicalBytes) := String.toList_ofList

theorem length_fingerprint (q : Query) : q.fingerprint.toList.length = 64 := by
  rw [toList_fingerprint, Text.length_hexOfBytes, Sha256.length_digest]

theorem eq_of_fingerprint_eq {q r : Query} (hsha : NoCollision q r) (h : q.fingerprint = r.fingerprint) :
    q = r := by
  have hdigits := congrArg String.toList h
  rw [toList_fingerprint, toList_fingerprint] at hdigits
  exact canonicalBytes_injective (hsha (Text.hexOfBytes_injective hdigits))

theorem toList_cacheKey (q : Query) (extent : Extent) : (q.cacheKey extent).toList =
    extent.name.toList ++ ':' :: q.entity.toList ++ [':'] ++ q.fingerprint.toList := by
  simp [cacheKey]

/-- The first character of a key tells the extent. -/
theorem extent_eq_of_cacheKey_eq {q r : Query} {extent extent' : Extent}
    (h : q.cacheKey extent = r.cacheKey extent') : extent = extent' := by
  have hchars := congrArg String.toList h
  rw [toList_cacheKey, toList_cacheKey] at hchars
  cases extent <;> cases extent' <;> first | rfl | exact absurd (List.cons_eq_cons.mp hchars).1 (by decide)

/-- The last sixty-four characters of a key are the fingerprint, whatever the entity is called. -/
theorem fingerprint_eq_of_cacheKey_eq {q r : Query} {extent extent' : Extent}
    (h : q.cacheKey extent = r.cacheKey extent') : q.fingerprint = r.fingerprint := by
  have hchars := congrArg String.toList h
  rw [toList_cacheKey, toList_cacheKey] at hchars
  have hlen : q.fingerprint.toList.length = r.fingerprint.toList.length := by
    rw [length_fingerprint, length_fingerprint]
  exact String.toList_injective (List.append_inj_right' hchars hlen)

/-- Queries with the same key are the same and of the same extent, unless their texts are a collision. -/
theorem eq_of_cacheKey_eq {q r : Query} {extent extent' : Extent} (hsha : NoCollision q r)
    (h : q.cacheKey extent = r.cacheKey extent') : extent = extent' ∧ q = r :=
  ⟨extent_eq_of_cacheKey_eq h, eq_of_fingerprint_eq hsha (fingerprint_eq_of_cacheKey_eq h)⟩

/-- **Canonical texts and cache keys determine the query**, down to the kind and the sign of every number in a
condition, and keys the extent as well, whatever the entities are called. -/
theorem cacheKey_determines_query (q r : Query) :
    (q.canonicalBytes = r.canonicalBytes → q = r) ∧
      ∀ extent extent' : Extent, NoCollision q r → q.cacheKey extent = r.cacheKey extent' →
        extent = extent' ∧ q = r :=
  ⟨fun h => canonicalBytes_injective h, fun _ _ hsha h => eq_of_cacheKey_eq hsha h⟩

/-- Naming columns in another order, of an entity that is called like the start of a key. -/
theorem cacheKey_determines_query_reordered :
    let q := ({ entity := "all:page:" } : Query).build [.columns ["name", "id"]]
    let r := ({ entity := "all:page:" } : Query).build [.columns ["id"], .columns ["name", "id"]]
    q.canonicalBytes = r.canonicalBytes ∧ NoCollision q r ∧ q.cacheKey .all = r.cacheKey .all ∧
      Extent.all = .all ∧ q = r := by
  intro q r
  have hsame : q = r := rfl
  have hbytes : q.canonicalBytes = r.canonicalBytes := congrArg canonicalBytes hsame
  have hkey : q.cacheKey .all = r.cacheKey .all := congrArg (fun q : Query => q.cacheKey .all) hsame
  have hsha : NoCollision q r := fun _ => hbytes
  exact ⟨hbytes, hsha, hkey, (cacheKey_determines_query q r).2 .all .all hsha hkey⟩

end Query

end EntityQuery
