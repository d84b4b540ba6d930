import EntityQuery.Query.Basic

/-!
# Building queries step by step

A step changes one part of a query, or of a condition, filter, link, sort key or paging that becomes part of
one. Parts with structure of their own are built by steps from an empty part, so a list of steps is a value
that describes how a query is built.

`apply` makes one step; `ofSteps` builds a part from nothing.
-/

namespace EntityQuery

/-! ## Conditions -/

/-- A step in building a condition. -/
inductive ConditionStep where
  | scope (name : String)
  | attributeName (name : String)
  | operator (op : Operator)
  | values (vs : List Json)

/-- Makes a step. -/
def ConditionStep.apply (c : Condition) : ConditionStep → Condition
  | .scope name => { c with scope := some name }
  | .attributeName name => { c with attributeName := name }
  | .operator op => { c with operator := op }
  | .values vs => { c with values := c.values ++ vs }

/-- The condition that steps build. -/
def Condition.ofSteps (steps : List ConditionStep) : Condition := steps.foldl ConditionStep.apply {}

/-! ## Filters -/

/-- A step in building a filter. -/
inductive FilterStep where
  | condition (steps : List ConditionStep)
  | filter (steps : List FilterStep)
  | junction (j : Junction)

mutual

/-- Makes a step. -/
def FilterStep.apply : FilterStep → Filter → Filter
  | .condition steps, f => f.addCondition (Condition.ofSteps steps)
  | .filter steps, f => f.addNested (FilterStep.applyAll steps {})
  | .junction j, f => { f with junction := j }

/-- Makes the steps of a list in order. -/
def FilterStep.applyAll : List FilterStep → Filter → Filter
  | [], f => f
  | step :: rest, f => FilterStep.applyAll rest (FilterStep.apply step f)

end

/-- The filter that steps build. -/
def Filter.ofSteps (steps : List FilterStep) : Filter := FilterStep.applyAll steps {}

/-! ## Links -/

/-- A step in building a link. -/
inductive LinkStep where
  | key (k : JoinKey) (name : String)
  | columns (names : List String)
  | allColumns
  | criteria (steps : List FilterStep)
  | link (steps : List LinkStep)
  | aliasName (name : String)
  | kind (k : JoinKind)

/-- Sets one of the parts that a link joins by. -/
def Link.setKey (l : Link) (key : JoinKey) (name : String) : Link :=
  match key with
  | .fromEntity => { l with fromEntity := some name }
  | .fromAttribute => { l with fromAttribute := some name }
  | .toEntity => { l with toEntity := some name }
  | .toAttribute => { l with toAttribute := some name }

mutual

/-- Makes a step. -/
def LinkStep.apply : LinkStep → Link → Link
  | .key k name, l => l.setKey k name
  | .columns names, l => { l with columns := l.columns.add names }
  | .allColumns, l => { l with columns := .all }
  | .criteria steps, l => { l with criteria := some (Filter.ofSteps steps) }
  | .link steps, l => { l with links := l.links ++ [LinkStep.applyAll steps {}] }
  | .aliasName name, l => { l with aliasName := some name }
  | .kind k, l => { l with kind := k }

/-- Makes the steps of a list in order. -/
def LinkStep.applyAll : List LinkStep → Link → Link
  | [], l => l
  | step :: rest, l => LinkStep.applyAll rest (LinkStep.apply step l)

end

/-- The link that steps build. -/
def Link.ofSteps (steps : List LinkStep) : Link := LinkStep.applyAll steps {}

/-! ## Sort keys -/

/-- A step in building a sort key. -/
inductive SortStep where
  | attributeName (name : String)
  | direction (d : Direction)

/-- Makes a step. -/
def SortStep.apply (k : SortKey) : SortStep → SortKey
  | .attributeName name => { k with attributeName := name }
  | .direction d => { k with direction := d }

/-- The sort key that steps build. -/
def SortKey.ofSteps (steps : List SortStep) : SortKey := steps.foldl SortStep.apply {}

/-! ## Paging -/

/-- A step in building a paging. -/
inductive PagingStep where
  | pageNumber (n : UInt32)
  | pageSize (n : UInt32)
  | cookie (token : String)
  | wantsTotal (wanted : Bool)

/-- Makes a step. -/
def PagingStep.apply (p : Paging) : PagingStep → Paging
  | .pageNumber n => { p with pageNumber := n }
  | .pageSize n => { p with pageSize := some n }
  | .cookie token => { p with cookie := some token }
  | .wantsTotal wanted => { p with wantsTotal := wanted }

/-- The paging that steps build. -/
def Paging.ofSteps (steps : List PagingStep) : Paging := steps.foldl PagingStep.apply {}

/-! ## Queries -/

/-- A step in building a query. -/
inductive QueryStep where
  | columns (names : List String)
  | allColumns
  | criteria (steps : List FilterStep)
  | restrict (steps : List FilterStep)
  | link (steps : List LinkStep)
  | sortKey (steps : List SortStep)
  | top (count : Option UInt32)
  | lock (locked : Bool)
  | distinct (once : Bool)
  | buildPaging (steps : List PagingStep)
  | paging (p : Paging)
  | wantsTotal (wanted : Bool)

/-- Makes a step. -/
def QueryStep.apply (q : Query) : QueryStep → Query
  | .columns names => { q with columns := q.columns.add names }
  | .allColumns => { q with columns := .all }
  | .criteria steps => { q with criteria := some (Filter.ofSteps steps) }
  | .restrict steps => q.restrict (Filter.ofSteps steps)
  | .link steps => { q with links := q.links ++ [Link.ofSteps steps] }
  | .sortKey steps => { q with sortKeys := q.sortKeys ++ [SortKey.ofSteps steps] }
  | .top count => { q with top := count }
  | .lock locked => { q with noLock := !locked }
  | .distinct once => { q with distinct := once }
  | .buildPaging steps => { q with paging := Paging.ofSteps steps }
  | .paging p => { q with paging := p }
  | .wantsTotal wanted => { q with paging := { q.paging with wantsTotal := wanted } }

/-- The query after the steps of a list. -/
def Query.build (q : Query) (steps : List QueryStep) : Query := steps.foldl QueryStep.apply q

end EntityQuery
