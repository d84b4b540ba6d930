import EntityQuery.Digest.Sha256
import EntityQuery.Json.Printer
import EntityQuery.Query.Encoding

/-!
# Fingerprints and cache keys

The canonical text of a query is its JSON text; its fingerprint is the SHA-256 digest of the canonical text
in hexadecimal digits. The key of a query says how far its retrieval goes, then the entity, then the
fingerprint.
-/

namespace EntityQuery

/-- How far a retrieval goes. -/
inductive Extent where
  /-- One page. -/
  | page
  /-- Every page from the configured one on. -/
  | all
deriving DecidableEq

/-- The name of the extent in cache keys. -/
def Extent.name : Extent → String
  | .page => "page"
  | .all => "all"

namespace Query

/-- The canonical text. -/
def canonical (q : Query) : String := q.encode.text

/-- The digest of the canonical text. -/
def fingerprint (q : Query) : String :=
  String.ofList (Text.hexOfBytes (Sha256.digest q.canonical.toUTF8.toList))

/-- The key under which the records of a query are cached. -/
def cacheKey (q : Query) (extent : Extent) : String :=
  extent.name ++ ":" ++ q.entity ++ ":" ++ q.fingerprint

end Query

end EntityQuery
