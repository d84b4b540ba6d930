import EntityQuery.Query.Link
import EntityQuery.Record.Fault

/-!
# Failures of query operations

A `QueryError` names the cause of a failure. `QueryError.kind` groups the causes, `QueryError.detail` words
one, and `QueryError.message` puts the heading of its group before it.
-/

namespace EntityQuery

/-- The groups of failures. -/
inductive ErrorKind where
  /-- A page of a query could not be had. -/
  | backend
  /-- The cache could not be read or written. -/
  | cache
  /-- The operation could not have succeeded. -/
  | misuse
  /-- A record or attribute is not of the type asked for. -/
  | mapping
  /-- A query could not be fingerprinted. -/
  | fingerprint
deriving DecidableEq

/-- The heading of a group. -/
def ErrorKind.heading : ErrorKind → String
  | .backend => "Backend error: "
  | .cache => "Cache error: "
  | .misuse => "Misuse: "
  | .mapping => "Mapping error: "
  | .fingerprint => "Fingerprint error: "

/-- The cause of a failure. -/
inductive QueryError where
  /-- The store was given a query without an entity name. -/
  | noEntityName
  /-- A link lacks one of the parts it joins by. -/
  | missingJoinKey (key : JoinKey)
  /-- A condition has too few or too many values for its operator. -/
  | wrongValueCount (attributeName : String) (operator : Operator) (given : Nat)
  /-- The page with the greatest number is not the last one. -/
  | pagesExhausted
  /-- A retrieval was asked of a query without an entity name. -/
  | unnamedQuery
  /-- An attribute cannot be read as the type asked for. -/
  | attributeMismatch (name : String) (fault : Fault)
  /-- A record cannot be read by its schema. -/
  | recordMismatch (logicalName : String) (fault : Fault)
  /-- A backend or a cache failed with words of its own. -/
  | reported (kind : ErrorKind) (text : String)

namespace QueryError

/-- The group of a cause. -/
def kind : QueryError → ErrorKind
  | .noEntityName | .missingJoinKey _ | .wrongValueCount .. | .pagesExhausted => .backend
  | .unnamedQuery => .misuse
  | .attributeMismatch .. | .recordMismatch .. => .mapping
  | .reported kind _ => kind

/-- The wording of a cause. -/
def detail : QueryError → String
  | .noEntityName => "query has no entity name"
  | .missingJoinKey key => "link entity is missing " ++ key.name
  | .wrongValueCount attributeName operator given =>
    "condition on '" ++ attributeName ++ "' with " ++ operator.label ++ " expects " ++
      toString (operator.arity.getD 0) ++ " value(s), got " ++ toString given
  | .pagesExhausted => "backend reported more records past the last page number"
  | .unnamedQuery => "query executed without an entity name"
  | .attributeMismatch name fault => "attribute '" ++ name ++ "': " ++ fault.message
  | .recordMismatch logicalName fault => logicalName ++ ": " ++ fault.message
  | .reported _ text => text

/-- The heading of the group and the wording of the cause. -/
def message (e : QueryError) : String := e.kind.heading ++ e.detail

end QueryError

end EntityQuery
