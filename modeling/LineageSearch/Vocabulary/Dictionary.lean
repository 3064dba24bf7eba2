import LineageSearch.FirstSeen
import LineageSearch.Vocabulary.Basic

/-!
# The operator dictionary and its ambiguities

Operators are declared in five categories.  A keyword is ambiguous when it occurs inside
a keyword of an unrelated operator: typing the longer one then also types the shorter.
Operators are related when one name begins with the other, as `born` and `born before`
do; their keywords are meant to share words.
-/

namespace LineageSearch

/-- The operators of the search language by category. -/
structure Dictionary where
  types : Vocabulary := .empty
  subtype : Vocabulary := .empty
  glob : Vocabulary := .empty
  logical : Vocabulary := .empty
  family : Vocabulary := .empty
deriving Inhabited

/-- An operator with its category and its words. -/
structure OperatorGroup where
  category : Text
  name : Text
  words : List Text
deriving Repr, DecidableEq

namespace OperatorGroup

/-- The name an operator is reported under. -/
def label (group : OperatorGroup) : Text := group.category ++ '.' :: group.name

/-- The distinct forms under which the words of an operator are looked up.  A blank word
has none. -/
def keys (group : OperatorGroup) : List Text :=
  firstSeen ((group.words.map indexKey).filter (!·.isEmpty))

/-- Whether the name of one operator begins with that of the other, whatever the case. -/
def related (a b : OperatorGroup) : Bool :=
  let first := Text.lower a.name
  let second := Text.lower b.name
  second.isPrefixOf first || first.isPrefixOf second

end OperatorGroup

/-- A keyword of one operator that occurs in a keyword of an unrelated one. -/
structure Ambiguity where
  group : Text
  synonym : Text
  otherGroup : Text
  otherSynonym : Text
deriving Repr, DecidableEq

def Ambiguity.describe (ambiguity : Ambiguity) : Text :=
  '\'' :: ambiguity.synonym ++ "' (".toList ++ ambiguity.group ++ ") occurs in '".toList
    ++ ambiguity.otherSynonym ++ "' (".toList ++ ambiguity.otherGroup ++ ")".toList

namespace Dictionary

/-- The categories in the order in which their operators are listed. -/
def categories (dictionary : Dictionary) : List (Text × Vocabulary) :=
  [("type".toList, dictionary.types), ("subtype".toList, dictionary.subtype),
    ("glob".toList, dictionary.glob), ("logical".toList, dictionary.logical),
    ("family".toList, dictionary.family)]

/-- Every operator with its words, category by category. -/
def groups (dictionary : Dictionary) : List OperatorGroup :=
  dictionary.categories.flatMap fun (category, vocabulary) =>
    vocabulary.groups.map fun (name, words) => ⟨category, name, words⟩

/-- The ambiguities between two operators, which are none if they are one or related. -/
def ambiguitiesBetween (group other : OperatorGroup) : List Ambiguity :=
  if group.label == other.label || group.related other then []
  else group.keys.flatMap fun synonym =>
    (other.keys.filter (Text.occursIn synonym)).map fun otherSynonym =>
      ⟨group.label, synonym, other.label, otherSynonym⟩

/-- All ambiguities, by the operator of the shorter keyword and then by the other one. -/
def ambiguities (dictionary : Dictionary) : List Ambiguity :=
  dictionary.groups.flatMap fun group =>
    dictionary.groups.flatMap fun other => ambiguitiesBetween group other

end Dictionary

end LineageSearch
