import LineageSearch.Lineage.Graph
import LineageSearch.Query.Environment
import LineageSearch.Query.Expression

/-!
# Subjects and what they denote

A subject denotes pandas, zoos or photos, depending on the type operator before it.  The
id of a subject goes before its text, and a name is brought into the casing of recorded
names before it is looked up.  A subject that denotes nothing has no hits.

A search asks all this of a `Resolver`, which a graph is with a language
(`Graph.resolver`).
-/

namespace LineageSearch

/-- A subject: its text and, if the text is the id of an entity, that id. -/
structure Subject where
  text : Text
  id : Option EntityId := none
deriving Repr, DecidableEq

/-- What a search asks about subjects.

* `knownId?`: the id that digits denote, if an entity has it;
* `nameOf`: the words of a name in the casing of recorded names;
* `alone`: what a keyword of some type denotes that stands alone;
* `denoted`: what a subject denotes as a thing of some type, or without a type;
* `tagged`: the photos behind some hits that bear a tag. -/
structure Resolver where
  knownId? : Text → Option EntityId
  nameOf : List Text → Text
  alone : Option TypeOperator → List Hit
  denoted : Subject → Option TypeOperator → List Hit
  tagged : List Hit → Text → List Hit

/-- The subject that an atom denotes.  A name whose case is kept keeps its words. -/
def Resolver.subjectOf (resolver : Resolver) (preserveCase : Bool) : Atom → Subject
  | .id digits => ⟨digits, resolver.knownId? digits⟩
  | .name words =>
    if preserveCase then ⟨Text.unwords (Text.words words), none⟩
    else ⟨resolver.nameOf (Text.words words), none⟩

namespace Graph

/-- What a keyword denotes that stands alone: the latest births, or all deaths. -/
def denotedAlone (graph : Graph) : Option TypeOperator → List Hit
  | some .baby => graph.births none
  | some .dead => graph.deaths none
  | _ => []

/-- What a subject denotes as a thing of some type, or without a type.  Births and deaths
are those of the year that the subject is, if it is one. -/
def denoted (graph : Graph) (language : Language) (subject : Subject) :
    Option TypeOperator → List Hit
  | some .baby => graph.births (yearAtom? subject.text)
  | some .dead => graph.deaths (yearAtom? subject.text)
  | some .credit => graph.photosBy subject.text
  | some .panda =>
    match subject.id with
    | some id => graph.pandaHit id
    | none => graph.pandasNamed (language.nameOf subject.text)
  | some .zoo =>
    match subject.id with
    | some id => graph.zooHit id
    | none => graph.zoosNamed (language.nameOf subject.text)
  | none =>
    match subject.id with
    | some id => graph.pandaHit id
    | none => []

/-- What a subject denotes behind a keyword, or without one.  A keyword that names no type
leaves nothing to denote. -/
def denotedBehind (graph : Graph) (registry : Registry) (language : Language)
    (subject : Subject) : Option Text → List Hit
  | none => graph.denoted language subject none
  | some keyword =>
    match registry.typeOperator? keyword with
    | some kind => graph.denoted language subject (some kind)
    | none => []

/-- What the graph answers, with names in the casing of a language. -/
def resolver (graph : Graph) (language : Language) : Resolver where
  knownId? := graph.knownId?
  nameOf := language.capitalizeNames
  alone := graph.denotedAlone
  denoted := graph.denoted language
  tagged := fun hits tag => graph.searchTags hits [tag] .photos .none

def subjectOf (graph : Graph) (language : Language) : Bool → Atom → Subject :=
  (graph.resolver language).subjectOf

end Graph

end LineageSearch
