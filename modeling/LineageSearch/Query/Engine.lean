import LineageSearch.Query.Subject

/-!
# Searching

The engine reads a search text as an expression and reduces it to hits.  The
reduction goes from left to right: the keyword is noted in the environment before its
subject is reduced, because a credit keyword decides how the subject is read.

A subject without a keyword is looked for as a panda, as a zoo and as the author of
photos.  Pandas go before zoos, and a number is a panda's id first.

What is asked on the way is answered by a `Resolver`.  An engine has that of its graph.
-/

namespace LineageSearch

/-- Why a search is refused: its text is blank. -/
inductive QueryError where
  | emptyQuery
deriving Repr, DecidableEq

def QueryError.message : QueryError → Text
  | emptyQuery => "Empty query".toList

/-- The hits of a bare subject by what it may denote. -/
structure Candidates where
  panda : List Hit
  zoo : List Hit
  credit : List Hit
deriving Repr, DecidableEq

/-- The outcome of a search.

* `query`: the search in its normal form;
* `keyword`: the operator or tag as typed;
* `resolved`: the type under which the hits were found;
* `candidates`: for a bare subject, the hits of each type. -/
structure SearchResult where
  query : Text
  parsed : Alternative
  hits : List Hit
  keyword : Option Text := none
  resolved : Option TypeOperator := none
  candidates : Option Candidates := none
deriving Repr, DecidableEq

/-- A subject with what it denotes as a panda, as a zoo and as an author. -/
structure DenotedSubject where
  subject : Subject
  panda : List Hit
  zoo : List Hit
  credit : List Hit
deriving Repr, DecidableEq

/-- What a subject is taken for: its pandas, or else its zoos, with their type. -/
def DenotedSubject.preferred (reduced : DenotedSubject) : Option TypeOperator × List Hit :=
  if !reduced.panda.isEmpty then (some .panda, reduced.panda)
  else if !reduced.zoo.isEmpty then (some .zoo, reduced.zoo)
  else (none, [])

/-- What an atom denotes, read as the environment has it. -/
def Resolver.denote (resolver : Resolver) (atom : Atom) (env : Environment) : DenotedSubject :=
  let subject := resolver.subjectOf env.preserveCase atom
  let denoted := resolver.denoted subject
  ⟨subject, denoted (some .panda), denoted (some .zoo), denoted (some .credit)⟩

/-- What a search needs: the graph, the keywords, and the language of names. -/
structure Engine where
  graph : Graph
  registry : Registry
  grammar : Grammar
  language : Language

namespace Engine

/-- The engine over a graph with the keywords of a dictionary and the photo tags. -/
def build (graph : Graph) (operators : Dictionary) (tags : Tags) (strict : Bool)
    (language : Language) : Except RegistryError Engine := do
  let registry ← Registry.ofDictionary operators strict
  return ⟨graph, registry, .ofVocabulary registry tags, language⟩

def withLanguage (engine : Engine) (language : Language) : Engine :=
  { engine with language }

/-- What the searches of the engine ask. -/
def resolver (engine : Engine) : Resolver := engine.graph.resolver engine.language

theorem resolver_denoted (engine : Engine) (subject : Subject) (kind : Option TypeOperator) :
    engine.resolver.denoted subject kind = engine.graph.denoted engine.language subject kind := rfl

theorem resolver_tagged (engine : Engine) (hits : List Hit) (tag : Text) :
    engine.resolver.tagged hits tag = engine.graph.searchTags hits [tag] .photos .none := rfl

def denote (engine : Engine) (atom : Atom) (env : Environment) : DenotedSubject :=
  engine.resolver.denote atom env

theorem resolver_denote (engine : Engine) (atom : Atom) (env : Environment) :
    engine.resolver.denote atom env = engine.denote atom env := rfl

/-- The result of a keyword that stands alone. -/
def zeroaryResultBy (engine : Engine) (resolver : Resolver) (keyword : Text) : SearchResult :=
  let kind := engine.registry.typeOperator? keyword
  { query := keyword
    parsed := .zeroaryExpression
    hits := resolver.alone kind
    keyword := some keyword
    resolved := kind }

/-- The result of a subject behind a type operator. -/
def typeResultBy (engine : Engine) (resolver : Resolver) (keyword : Text)
    (reduced : DenotedSubject) : SearchResult :=
  let kind := engine.registry.typeOperator? keyword
  let hits := match kind with
    | some .panda => reduced.panda
    | some .zoo => reduced.zoo
    | some .credit => reduced.credit
    | some .baby => resolver.denoted reduced.subject (some .baby)
    | some .dead => resolver.denoted reduced.subject (some .dead)
    | none => []
  { query := Text.unwords [keyword, reduced.subject.text]
    parsed := .typeExpression
    hits
    keyword := some keyword
    resolved := kind }

/-- The result of a subject behind a tag: the tagged photos of the pandas that the subject
denotes, or else of the zoos. -/
def tagResultBy (engine : Engine) (resolver : Resolver) (tag : Text)
    (reduced : DenotedSubject) : SearchResult :=
  let scope := reduced.preferred
  { query := Text.unwords [tag, reduced.subject.text]
    parsed := .tagExpression
    hits := resolver.tagged scope.2 (engine.grammar.tagOf tag)
    keyword := some tag
    resolved := scope.1 }

/-- The result of a subject without a keyword. -/
def bareResultBy (resolver : Resolver) (reduced : DenotedSubject) : SearchResult :=
  -- an id without a type is looked up as a panda's
  let untyped := match reduced.subject.id with
    | some _ => resolver.denoted reduced.subject none
    | none => []
  let chosen := if !untyped.isEmpty then (some .panda, untyped) else reduced.preferred
  { query := reduced.subject.text
    parsed := .subjectTerm
    hits := chosen.2
    resolved := chosen.1
    candidates := some ⟨reduced.panda, reduced.zoo, reduced.credit⟩ }

/-! The results with the answers of the engine's own graph. -/

def zeroaryResult (engine : Engine) : Text → SearchResult :=
  engine.zeroaryResultBy engine.resolver

def typeResult (engine : Engine) : Text → DenotedSubject → SearchResult :=
  engine.typeResultBy engine.resolver

def tagResult (engine : Engine) : Text → DenotedSubject → SearchResult :=
  engine.tagResultBy engine.resolver

def bareResult (engine : Engine) : DenotedSubject → SearchResult := bareResultBy engine.resolver

/-- The result of an expression with the answers of a resolver, and the environment it leaves. -/
def reduceBy (engine : Engine) (resolver : Resolver) (expression : Expression)
    (env : Environment) : SearchResult × Environment :=
  match expression with
  | .zeroary keyword => (engine.zeroaryResultBy resolver keyword, env.noteTerm keyword)
  | .typed keyword atom =>
    -- noted before the subject is read, whose case a credit keyword keeps
    let typed := env.noteType (engine.registry.typeOperator? keyword) keyword
    let reduced := resolver.denote atom typed
    (engine.typeResultBy resolver keyword reduced, typed.noteSubject reduced.subject.text)
  | .tagged tag atom =>
    let tagged := env.noteTag tag
    let reduced := resolver.denote atom tagged
    (engine.tagResultBy resolver tag reduced, tagged.noteSubject reduced.subject.text)
  | .bare atom =>
    let reduced := resolver.denote atom env
    (bareResultBy resolver reduced, env.noteSubject reduced.subject.text)

def reduce (engine : Engine) : Expression → Environment → SearchResult × Environment :=
  engine.reduceBy engine.resolver

/-- Searches in an environment.  A refused search leaves the environment as it was. -/
def searchIn (engine : Engine) (input : Text) (env : Environment) :
    Except QueryError SearchResult × Environment :=
  match engine.grammar.expression? input with
  | some expression =>
    let (found, left) := engine.reduce expression env
    (.ok found, left)
  | none => (.error .emptyQuery, env)

/-- Searches in an environment of its own. -/
def search (engine : Engine) (input : Text) : Except QueryError (SearchResult × Environment) :=
  match engine.searchIn input .fresh with
  | (.ok found, env) => .ok (found, env)
  | (.error reason, _) => .error reason

end Engine

end LineageSearch
