import EntityQuery.Settings.Basic
import EntityQuery.Toml.Parser

/-!
# Settings in TOML documents

The settings are the tables `query` and `cache` of a document; entries that are no settings are skipped, but
their numbers have to be readable. A table may also be given as the array of its fields in order, where missing
fields have their defaults and further items do not count, or as a date or time, which gives no field at all.
-/

namespace EntityQuery

/-- Why settings cannot be had. -/
inductive SettingsError where
  /-- There is no such file. -/
  | missingFile
  /-- The file is not UTF-8 text. -/
  | notUtf8
  /-- The text is not a document with settings. -/
  | malformed
deriving DecidableEq

namespace Toml.Value

/-- Reads a truth value. -/
def asBool? : Value → Option Bool
  | .boolean b => some b
  | _ => none

/-- Reads an unsigned integer of 32 bits. -/
def asUInt32? : Value → Option UInt32
  | .integer n => if 0 ≤ n ∧ n < 2 ^ 32 then some (UInt32.ofNat n.toNat) else none
  | _ => none

/-- Reads an unsigned integer of 64 bits. -/
def asUInt64? : Value → Option UInt64
  | .integer n => if 0 ≤ n ∧ n < 2 ^ 64 then some (UInt64.ofNat n.toNat) else none
  | _ => none

/-- The fields of a structure given as entries; what is not a field has to be readable. -/
def entryFields? (names : List String) (entries : List (String × Value)) : Option (List (Option Value)) :=
  if entries.all fun e => names.contains e.1 || e.2.isReadable then
    some (names.map fun name => entries.lookup name)
  else none

/-- The fields of a structure. -/
def fields? (names : List String) : Value → Option (List (Option Value))
  | .table entries => entryFields? names entries
  | .array items => some ((items.map some ++ List.replicate names.length none).take names.length)
  | .moment _ => some (names.map fun _ => none)
  | _ => none

/-- Reads a field that has a value when it is missing. -/
def default? {α : Type} (missing : α) (field : Option Value) (item : Value → Option α) : Option α :=
  match field with
  | none => some missing
  | some v => item v

end Toml.Value

open Toml.Value

/-- Reads the presets of queries. -/
def QueryPresets.ofToml? (v : Toml.Value) : Option QueryPresets := do
  match ← v.fields? ["no_lock", "page_size", "return_total_record_count"] with
  | [noLock, pageSize, wantsTotal] =>
    let noLock ← default? true noLock asBool?
    let pageSize ← default? none pageSize fun v => v.asUInt32?.map some
    let wantsTotal ← default? false wantsTotal asBool?
    return { noLock, pageSize, wantsTotal }
  | _ => none

/-- Reads the settings of caches. -/
def CacheSettings.ofToml? (v : Toml.Value) : Option CacheSettings := do
  match ← v.fields? ["ttl_secs"] with
  | [ttlSecs] => return { ttlSecs := ← default? 3600 ttlSecs asUInt64? }
  | _ => none

namespace Settings

/-- Reads the settings of a root table. -/
def ofEntries? (entries : List (String × Toml.Value)) : Option Settings := do
  match ← entryFields? ["query", "cache"] entries with
  | [query, cache] =>
    let query ← default? {} query QueryPresets.ofToml?
    let cache ← default? {} cache CacheSettings.ofToml?
    return { query, cache }
  | _ => none

/-- The settings of a document. -/
def parse (text : String) : Except SettingsError Settings :=
  match (Toml.parse? text).bind ofEntries? with
  | some s => .ok s
  | none => .error .malformed

/-- The settings of a file with given bytes, `none` standing for a file that is not there. -/
def ofFile (contents : Option ByteArray) : Except SettingsError Settings :=
  match contents with
  | none => .error .missingFile
  | some bytes =>
    match String.fromUTF8? bytes with
    | none => .error .notUtf8
    | some text => parse text

end Settings

/-- The wording of a failure to have settings. -/
def SettingsError.message : SettingsError → String
  | .missingFile => "Failed to read config file: No such file or directory (os error 2)"
  | .notUtf8 => "Failed to read config file: stream did not contain valid UTF-8"
  | .malformed => "Failed to parse config"

end EntityQuery
