import LineageSearch.Json.Printer
import LineageSearch.Query.Engine

/-!
# Reports

The tool reports each search as a JSON document: what was found, and behind it the
environment that the search left.  The keyword, the type and the candidates are written
only if the result has them.
-/

namespace LineageSearch

def EntityId.toJson (id : EntityId) : Json := .ofNat id.toNat

def Entity.toJson : Entity → Json
  | panda id => .ofFields [("kind", .ofText "panda".toList), ("id", EntityId.toJson id)]
  | zoo id => .ofFields [("kind", .ofText "zoo".toList), ("id", EntityId.toJson id)]

def Hit.toJson : Hit → Json
  | panda id => .ofFields [("panda", EntityId.toJson id)]
  | zoo id => .ofFields [("zoo", EntityId.toJson id)]
  | photo owner index =>
    .ofFields [("photo", .ofFields [("owner", owner.toJson), ("index", .ofNat index)])]

def hitsToJson (hits : List Hit) : Json := .array (hits.map Hit.toJson)

/-- A field that is written only if there is something to write. -/
def optionalField {α : Type} (name : String) (write : α → Json) (value : Option α) :
    List (String × Json) :=
  (value.map fun present => (name, write present)).toList

namespace SearchResult

def fields (found : SearchResult) : List (String × Json) :=
  [("query", .ofText found.query), ("parsed", .ofText found.parsed.rule.name),
    ("hits", hitsToJson found.hits)]
  ++ optionalField "keyword" .ofText found.keyword
  ++ optionalField "resolved" (.ofText ·.name) found.resolved
  ++ optionalField "candidates" (fun candidates => .ofFields
      [("panda", hitsToJson candidates.panda), ("zoo", hitsToJson candidates.zoo),
        ("credit", hitsToJson candidates.credit)]) found.candidates

end SearchResult

def Environment.toJson (env : Environment) : Json :=
  .ofFields
    [("output", .ofText env.output.name),
      ("credit", (env.credit.map Json.ofText).getD .null),
      ("preserve_case", .bool env.preserveCase),
      ("specific", (env.specific.map EntityId.toJson).getD .null),
      ("terms", .array (env.terms.map Json.ofText))]

def report (found : SearchResult) (env : Environment) : Json :=
  .ofFields (found.fields ++ [("environment", env.toJson)])

end LineageSearch
