import EntityQuery.Store.Matching

/-!
# Joins

`Link.follow` takes rows to rows. A link looks, for every row, through the records of its target entity in
store order and binds its scope to each that has the row's source value and passes the link's criteria; the
criteria see the candidate alone. Then the links below it are followed, from its scope.
-/

namespace EntityQuery

/-- The parts of a link that can be followed. -/
structure JoinKeys where
  fromAttribute : String
  toEntity : String
  toAttribute : String

namespace Link

/-- The parts that a link joins by; the first one missing is an error. The name of the source entity has to
be there but the source record is that of the enclosing scope. -/
def keys (l : Link) : Except QueryError JoinKeys :=
  match l.fromEntity, l.fromAttribute, l.toEntity, l.toAttribute with
  | none, _, _, _ => .error (.missingJoinKey .fromEntity)
  | _, none, _, _ => .error (.missingJoinKey .fromAttribute)
  | _, _, none, _ => .error (.missingJoinKey .toEntity)
  | _, _, _, none => .error (.missingJoinKey .toAttribute)
  | some _, some fromAttribute, some toEntity, some toAttribute => .ok { fromAttribute, toEntity, toAttribute }

/-- Whether a candidate alone passes the criteria of a link. -/
def admits (l : Link) (scope : String) (candidate : Record) : Except QueryError Bool :=
  match l.criteria with
  | none => .ok true
  | some criteria => criteria.holds (.single scope candidate) scope

/-- The records of the target entity that have a source value, which is none for null. -/
def candidates (records : List Record) (keys : JoinKeys) (source : Json) : List Record :=
  if source.isNull then []
  else records.filter fun r => r.logicalName == keys.toEntity && source.equivalent (r.value keys.toAttribute)

/-- The rows that a row becomes. -/
def extendRow (records : List Record) (l : Link) (keys : JoinKeys) (parent scope : String) (row : Row) :
    Except QueryError (List Row) := do
  let found ← keepThat (l.admits scope) (candidates records keys (row.value parent keys.fromAttribute))
  return if found.isEmpty && l.kind == .leftOuter then [row] else found.map fun r => row.bind scope r

/-- The rows that the rows of a list become, in order. -/
def extendRows (records : List Record) (l : Link) (keys : JoinKeys) (parent scope : String) :
    List Row → Except QueryError (List Row)
  | [] => .ok []
  | row :: rest => do
    let rows ← extendRow records l keys parent scope row
    let rest ← extendRows records l keys parent scope rest
    return rows ++ rest

mutual

/-- Follows a link and the links below it from every row. -/
def follow (records : List Record) (parent : String) : Link → List Row → Except QueryError (List Row)
  | ⟨fromEntity, fromAttribute, toEntity, toAttribute, aliasName, kind, columns, criteria, links⟩, rows => do
    let l : Link :=
      { fromEntity, fromAttribute, toEntity, toAttribute, aliasName, kind, columns, criteria, links }
    let keys ← l.keys
    let scope := l.scope?.getD keys.toEntity
    let rows ← extendRows records l keys parent scope rows
    followAll records scope links rows

/-- Follows the links of a list one after the other. -/
def followAll (records : List Record) (parent : String) : List Link → List Row → Except QueryError (List Row)
  | [], rows => .ok rows
  | l :: rest, rows => do
    let rows ← follow records parent l rows
    followAll records parent rest rows

end

end Link

end EntityQuery
