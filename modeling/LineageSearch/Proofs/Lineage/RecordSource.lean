import LineageSearch.Query.Subject

/-!
# Sources of records

A search asks nine questions about the records: which id digits denote, who has an id, who bears a
name, who was born or died in a year, which photos are by an author, and which ones bear a tag.  The
graph answers all of them (`Graph.source`).  A host may have its records elsewhere and answer in
its own way, as a `RecordSource`.

What a subject denotes is put together from the answers as it is for a graph, so searching the
source of a graph is searching the graph (`Graph.resolver_source`).
-/

namespace LineageSearch

/-- What answers the questions about records, under the names that a graph has for them. -/
structure RecordSource where
  knownId? : Text → Option EntityId
  pandaHit : EntityId → List Hit
  zooHit : EntityId → List Hit
  pandasNamed : Text → List Hit
  zoosNamed : Text → List Hit
  births : Option Int → List Hit
  deaths : Option Int → List Hit
  photosBy : Text → List Hit
  searchTags : List Hit → List Text → TagListing → WhenUntagged → List Hit

namespace RecordSource

variable (source : RecordSource)

def denotedAlone : Option TypeOperator → List Hit
  | some .baby => source.births none
  | some .dead => source.deaths none
  | _ => []

/-- What a subject denotes as a thing of some type, or without a type. -/
def denoted (language : Language) (subject : Subject) : Option TypeOperator → List Hit
  | some .baby => source.births (yearAtom? subject.text)
  | some .dead => source.deaths (yearAtom? subject.text)
  | some .credit => source.photosBy subject.text
  | some .panda =>
    match subject.id with
    | some id => source.pandaHit id
    | none => source.pandasNamed (language.nameOf subject.text)
  | some .zoo =>
    match subject.id with
    | some id => source.zooHit id
    | none => source.zoosNamed (language.nameOf subject.text)
  | none =>
    match subject.id with
    | some id => source.pandaHit id
    | none => []

/-- What a source answers, with names in the casing of a language. -/
def resolver (language : Language) : Resolver where
  knownId? := source.knownId?
  nameOf := language.capitalizeNames
  alone := source.denotedAlone
  denoted := source.denoted language
  tagged := fun hits tag => source.searchTags hits [tag] .photos .none

end RecordSource

namespace Graph

variable (graph : Graph)

/-- The answers of a graph. -/
def source : RecordSource where
  knownId? := graph.knownId?
  pandaHit := graph.pandaHit
  zooHit := graph.zooHit
  pandasNamed := graph.pandasNamed
  zoosNamed := graph.zoosNamed
  births := graph.births
  deaths := graph.deaths
  photosBy := graph.photosBy
  searchTags := graph.searchTags

theorem denotedAlone_source : graph.source.denotedAlone = graph.denotedAlone := by
  funext kind
  cases kind with
  | none => rfl
  | some kind => cases kind <;> rfl

theorem denoted_source (language : Language) (subject : Subject) :
    graph.source.denoted language subject = graph.denoted language subject := by
  funext kind
  cases kind with
  | none => rfl
  | some kind => cases kind <;> rfl

/-- **Searching the answers of a graph is searching the graph.** -/
theorem resolver_source (language : Language) :
    graph.source.resolver language = graph.resolver language := by
  unfold RecordSource.resolver resolver
  rw [denotedAlone_source, funext (graph.denoted_source language)]
  rfl

end Graph

end LineageSearch
