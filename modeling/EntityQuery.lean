import EntityQuery.Json.Parser
import EntityQuery.Query.Decoding
import EntityQuery.Query.Equality
import EntityQuery.Query.Steps
import EntityQuery.Record.Schema
import EntityQuery.Retrieval.Cached
import EntityQuery.Settings.Codec
import EntityQuery.Settings.File
import EntityQuery.Proofs.Numeric.Shortest
import EntityQuery.Proofs.Json.NumberText
import EntityQuery.Proofs.Json.StringText
import EntityQuery.Proofs.Json.ValueText
import EntityQuery.Proofs.Query.RoundTrip
import EntityQuery.Proofs.Query.CacheKey
import EntityQuery.Proofs.Query.Equality
import EntityQuery.Proofs.Retrieval.Protocol
import EntityQuery.Proofs.Retrieval.StorePages
import EntityQuery.Proofs.Retrieval.Session
import EntityQuery.Proofs.Retrieval.Calls
import EntityQuery.Proofs.Retrieval.PageZero
import EntityQuery.Proofs.Retrieval.Progress
import EntityQuery.Proofs.Retrieval.TimedMap
import EntityQuery.Proofs.Retrieval.FetchedOnce
import EntityQuery.Proofs.Store.Combinations
import EntityQuery.Proofs.Store.Scopes
import EntityQuery.Proofs.Store.Conjunction
import EntityQuery.Proofs.Store.MovedCriteria
import EntityQuery.Proofs.Store.OuterLinks
import EntityQuery.Proofs.Json.Spellings
import EntityQuery.Proofs.Query.Spellings
import EntityQuery.Proofs.Record.Identifiers
import EntityQuery.Proofs.Record.Spellings
import EntityQuery.Proofs.Settings.Spellings
import EntityQuery.Proofs.Descriptors
import EntityQuery.Proofs.Text.Wildcard
import EntityQuery.Proofs.Json.Order
import EntityQuery.Proofs.StableSort
import EntityQuery.Proofs.Store.Sorting
import EntityQuery.Proofs.Store.Ranking
import EntityQuery.Proofs.Store.SiblingOrder
import EntityQuery.Proofs.Store.Rejections
import EntityQuery.Proofs.Store.Integers
import EntityQuery.Proofs.Bounds.Answer
import EntityQuery.Proofs.Retrieval.DistinctPages
import EntityQuery.Proofs.Store.Projection
import EntityQuery.Proofs.Store.FilterOrder
import EntityQuery.Proofs.Store.Expansions
import EntityQuery.Proofs.Store.UnrelatedRecords
import EntityQuery.Proofs.Record.Renamed
import EntityQuery.Proofs.Store.Aliases
import EntityQuery.Proofs.Building.Scripts
import EntityQuery.Proofs.Store.EquivalentValues
import EntityQuery.Proofs.Store.TextOperators
import EntityQuery.Proofs.Building.ColumnRequests
import EntityQuery.Proofs.Settings.Expiry
