import LineageSearch.Vocabulary.Dictionary

/-!
# The registry of keywords

The registry is drawn up once from a dictionary.  It holds the lists of words that the
grammar and the classification need, and the indexes that classify a word whatever its
case: which type operator it names, and whether it belongs to the operators that stand
alone, before one subject, or between two.

A dictionary is refused for a type operator of unknown name and, where keywords have to
be strict, for any ambiguity; the ambiguities come first.
-/

namespace LineageSearch

/-- The operators that say what kind of thing is searched for. -/
inductive TypeOperator where
  | baby
  | credit
  | dead
  | panda
  | zoo
deriving Repr, DecidableEq

namespace TypeOperator

/-- All type operators, in the order of their names. -/
def all : List TypeOperator := [baby, credit, dead, panda, zoo]

/-- The name a type operator is declared under. -/
def name : TypeOperator → Text
  | baby => "baby".toList
  | credit => "credit".toList
  | dead => "dead".toList
  | panda => "panda".toList
  | zoo => "zoo".toList

def ofName? (name : Text) : Option TypeOperator := all.find? (·.name == name)

@[simp] theorem ofName?_name (kind : TypeOperator) : ofName? kind.name = some kind := by
  cases kind <;> decide

theorem name_of_ofName? {name : Text} {kind : TypeOperator} (h : ofName? name = some kind) :
    kind.name = name := by
  simpa using List.find?_some h

end TypeOperator

/-- Why a dictionary is refused. -/
inductive RegistryError where
  | ambiguous (found : List Ambiguity)
  | unknownType (name : Text)
deriving Repr, DecidableEq

def RegistryError.message : RegistryError → Text
  | ambiguous found =>
    "Ambiguous keywords: ".toList ++ Text.joinWith "; ".toList (found.map Ambiguity.describe)
  | unknownType name =>
    "Config error: Unknown type operator '".toList ++ name ++ "'".toList

/-- The keywords of a dictionary by use, with their indexes. -/
structure Registry where
  types : List Text
  zeroary : List Text
  unary : List Text
  binary : List Text
  typeSynonyms : List (TypeOperator × List Text)
  typeIndex : Entries TypeOperator
  zeroaryIndex : List Text
  unaryIndex : List Text
  binaryIndex : List Text

/-- The words of each type operator in declared order, or the first name that is none. -/
def Dictionary.typeGroups (dictionary : Dictionary) :
    Except RegistryError (List (TypeOperator × List Text)) :=
  dictionary.types.groups.mapM fun (name, words) =>
    match TypeOperator.ofName? name with
    | some kind => .ok (kind, words)
    | none => .error (.unknownType name)

/-- The words of the type operators that may stand alone: births, then deaths. -/
def Dictionary.zeroaryWords (dictionary : Dictionary) : List Text :=
  [TypeOperator.baby, TypeOperator.dead].flatMap fun kind =>
    match dictionary.types.get? kind.name with
    | some keywords => keywords.flatten
    | none => []

namespace Registry

def ofDictionary (dictionary : Dictionary) (strict : Bool) : Except RegistryError Registry :=
  if strict && !dictionary.ambiguities.isEmpty then .error (.ambiguous dictionary.ambiguities)
  else do
    let typeGroups ← dictionary.typeGroups
    let types := dictionary.types.words
    let zeroary := dictionary.zeroaryWords
    let unary := types ++ dictionary.subtype.words ++ dictionary.family.words
    let binary := dictionary.logical.words ++ dictionary.family.words
    return {
      types, zeroary, unary, binary
      typeSynonyms := typeGroups
      typeIndex := typeGroups.flatMap fun (kind, words) => words.map fun w => (indexKey w, kind)
      zeroaryIndex := zeroary.map indexKey
      unaryIndex := unary.map indexKey
      binaryIndex := binary.map indexKey }

def synonyms (registry : Registry) (kind : TypeOperator) : List Text :=
  (registry.typeSynonyms.lookup kind).getD []

/-- The type operator a word names.  Of two operators that declare the word, the first
declared one has it. -/
def typeOperator? (registry : Registry) (word : Text) : Option TypeOperator :=
  registry.typeIndex.get? (indexKey word)

/-- Whether the word is an operator that may stand alone. -/
def isZeroary (registry : Registry) (word : Text) : Bool :=
  registry.zeroaryIndex.contains (indexKey word)

/-- Whether the word is an operator that stands before a subject. -/
def isUnary (registry : Registry) (word : Text) : Bool :=
  registry.unaryIndex.contains (indexKey word)

/-- Whether the word is an operator that stands between two subjects. -/
def isBinary (registry : Registry) (word : Text) : Bool :=
  registry.binaryIndex.contains (indexKey word)

end Registry

end LineageSearch
