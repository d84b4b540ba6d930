import EntityQuery.Store.Answer

/-!
# Backends

A backend answers a query with a page or a failure and may change its state by that. Two backends are given:
a store of records, which counts the queries it was asked, and a list of prepared answers.
-/

namespace EntityQuery

/-- Answers a query, from a state and with a new one. -/
abbrev Backend (σ : Type) := Query → σ → Except QueryError Page × σ

/-! ## Stores -/

/-- Records in memory. -/
structure Store where
  records : List Record := []
  /-- The number of queries asked so far, failed ones included. -/
  executions : Nat := 0

namespace Store

/-- Adds a record after the others. -/
def insert (s : Store) (r : Record) : Store := { s with records := s.records ++ [r] }

/-- The number of records. -/
def size (s : Store) : Nat := s.records.length

/-- Answers from the records and counts the query. -/
def backend : Backend Store := fun q s => (q.answer s.records, { s with executions := s.executions + 1 })

end Store

/-! ## Prepared answers -/

/-- Answers to give one after the other, whatever the query, and the failure to give when none is left. -/
structure Replay where
  answers : List (Except QueryError Page)
  exhausted : QueryError

/-- Gives the next answer. -/
def Replay.backend : Backend Replay := fun _ r =>
  match r.answers with
  | [] => (.error r.exhausted, r)
  | answer :: rest => (answer, { r with answers := rest })

/-! ## Combinations -/

/-- A store or a list of prepared answers. -/
inductive Source where
  | store (store : Store)
  | replay (replay : Replay)

/-- Answers as the source does. -/
def Source.backend : Backend Source := fun q s =>
  match s with
  | .store s =>
    match Store.backend q s with
    | (answer, s) => (answer, .store s)
  | .replay r =>
    match Replay.backend q r with
    | (answer, r) => (answer, .replay r)

/-- Answers as a backend does, and notes every query asked, in order. -/
def Backend.noting {σ : Type} (b : Backend σ) : Backend (σ × List Query) := fun q s =>
  match b q s.1 with
  | (answer, state) => (answer, state, s.2 ++ [q])

end EntityQuery
