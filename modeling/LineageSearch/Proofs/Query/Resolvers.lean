import LineageSearch.Query.Engine

/-!
# Searching other records

An engine asks its graph about subjects and cases names as the records do.  A host may have records
of its own, or cases names in another way, and then answers with another `Resolver`.  The engine
reads and notes in the same way whatever the answers are.

What is proved of `searchInBy` and `searchBy` holds for all resolvers.  With the resolver of the
engine's graph they are the engine's own searches (`searchInBy_resolver`, `searchBy_resolver`).
-/

namespace LineageSearch

namespace Engine

variable (engine : Engine)

/-- Searches in an environment, with the answers of a resolver. -/
def searchInBy (resolver : Resolver) (input : Text) (env : Environment) :
    Except QueryError SearchResult × Environment :=
  match engine.grammar.expression? input with
  | some expression =>
    let (found, left) := engine.reduceBy resolver expression env
    (.ok found, left)
  | none => (.error .emptyQuery, env)

/-- Searches in an environment of its own, with the answers of a resolver. -/
def searchBy (resolver : Resolver) (input : Text) :
    Except QueryError (SearchResult × Environment) :=
  match engine.searchInBy resolver input .fresh with
  | (.ok found, env) => .ok (found, env)
  | (.error reason, _) => .error reason

theorem searchInBy_resolver : engine.searchInBy engine.resolver = engine.searchIn := rfl

theorem searchBy_resolver : engine.searchBy engine.resolver = engine.search := rfl

/-- A search is the reduction of what its text is read as, in an environment of its own. -/
theorem searchBy_eq (resolver : Resolver) (input : Text) :
    engine.searchBy resolver input = match engine.grammar.expression? input with
      | some expression => .ok (engine.reduceBy resolver expression .fresh)
      | none => .error .emptyQuery := by
  unfold searchBy searchInBy
  cases engine.grammar.expression? input <;> rfl

theorem search_eq (input : Text) :
    engine.search input = match engine.grammar.expression? input with
      | some expression => .ok (engine.reduce expression .fresh)
      | none => .error .emptyQuery :=
  engine.searchBy_eq engine.resolver input

end Engine

end LineageSearch
