import LineageSearch.Query.Pattern
import LineageSearch.Text.Digits
import LineageSearch.Vocabulary.Registry

/-!
# The search language

```text
expression        ::= zeroaryExpression | typeExpression | tagExpression | subjectTerm
zeroaryExpression ::= zeroaryTerm
typeExpression    ::= typeTerm space? subjectTerm
tagExpression     ::= tagTerm space? subjectTerm
subjectTerm       ::= idAtom | nameAtom
idAtom            ::= digit{1,5}
nameAtom          ::= word (space word)*
yearAtom          ::= digit{4}
```

The alternatives of an expression are tried in this order and the first that fits is
taken.  A text without any keyword is a bare subject, and that is seen at once.  Only a
blank text is no expression.
-/

namespace LineageSearch

/-- The rules of the language. -/
inductive Rule where
  | idAtom
  | nameAtom
  | yearAtom
  | subjectTerm
  | tagTerm
  | typeTerm
  | zeroaryTerm
  | zeroaryExpression
  | typeExpression
  | tagExpression
deriving Repr, DecidableEq

namespace Rule

/-- All rules, atoms before terms before expressions. -/
def all : List Rule :=
  [idAtom, nameAtom, yearAtom, subjectTerm, tagTerm, typeTerm, zeroaryTerm,
    zeroaryExpression, typeExpression, tagExpression]

def name : Rule → Text
  | idAtom => "idAtom".toList
  | nameAtom => "nameAtom".toList
  | yearAtom => "yearAtom".toList
  | subjectTerm => "subjectTerm".toList
  | tagTerm => "tagTerm".toList
  | typeTerm => "typeTerm".toList
  | zeroaryTerm => "zeroaryTerm".toList
  | zeroaryExpression => "zeroaryExpression".toList
  | typeExpression => "typeExpression".toList
  | tagExpression => "tagExpression".toList

end Rule

/-- The alternatives of an expression. -/
inductive Alternative where
  | zeroaryExpression
  | typeExpression
  | tagExpression
  | subjectTerm
deriving Repr, DecidableEq

namespace Alternative

/-- The order in which the alternatives are tried. -/
def priority : List Alternative :=
  [zeroaryExpression, typeExpression, tagExpression, subjectTerm]

def rule : Alternative → Rule
  | zeroaryExpression => .zeroaryExpression
  | typeExpression => .typeExpression
  | tagExpression => .tagExpression
  | subjectTerm => .subjectTerm

end Alternative

/-- A subject: the digits of an id, or a name. -/
inductive Atom where
  | id (digits : Text)
  | name (words : Text)
deriving Repr, DecidableEq

def Atom.text : Atom → Text
  | id digits => digits
  | name words => words

/-- An expression with its keyword and its subject as written. -/
inductive Expression where
  | zeroary (keyword : Text)
  | typed (keyword : Text) (subject : Atom)
  | tagged (tag : Text) (subject : Atom)
  | bare (subject : Atom)
deriving Repr, DecidableEq

/-- The alternative that an expression belongs to. -/
def Expression.kind : Expression → Alternative
  | zeroary _ => .zeroaryExpression
  | typed _ _ => .typeExpression
  | tagged _ _ => .tagExpression
  | bare _ => .subjectTerm

/-- Whether a text is an id: one to five ASCII digits. -/
def isIdAtom (text : Text) : Bool := Text.isDigits text && text.length ≤ 5

/-- Whether a text is a name: words with blanks between them, and none at the ends. -/
def isNameAtom (text : Text) : Bool :=
  text.head?.any (!isBlank ·) && text.getLast?.any (!isBlank ·)

/-- The year that a text denotes, which takes exactly four ASCII digits. -/
def yearAtom? (text : Text) : Option Int :=
  if Text.isDigits text && text.length == 4 then some (Text.decimalValue text) else none

/-- The subject that a text denotes, blanks at its ends aside.  A blank text is none. -/
def subjectAtom? (text : Text) : Option Atom :=
  let inner := Text.trim text
  if isIdAtom inner then some (.id inner)
  else if isNameAtom inner then some (.name inner)
  else none

/-- The patterns of the keywords that a search may contain, and the tags by their surface
forms. -/
structure Grammar where
  tagTerm : Pattern
  typeTerm : Pattern
  zeroaryTerm : Pattern
  plain : Pattern
  tagIndex : Entries Text

namespace Grammar

/-- The grammar of a registry of operators and the photo tags. -/
def ofVocabulary (registry : Registry) (tags : Tags) : Grammar where
  tagTerm := .ofKeywords .portion tags.words
  typeTerm := .ofKeywords .portion registry.types
  zeroaryTerm := .ofKeywords .single registry.zeroary
  plain := .ofKeywords .none (tags.words ++ registry.types ++ registry.zeroary)
  tagIndex := tags.groups.flatMap fun (name, words) => words.map fun w => (indexKey w, name)

/-- The name of the tag that a surface form stands for.  A form of no tag stands for
itself, in the form under which words are looked up. -/
def tagOf (grammar : Grammar) (form : Text) : Text :=
  (grammar.tagIndex.get? (indexKey form)).getD (indexKey form)

/-- The keyword that a pattern finds at the beginning of a text, and what follows it. -/
def term? (pattern : Pattern) (text : Text) : Option (Text × Text) :=
  (pattern.find? text).map fun found => (Text.trim found.keyword, Text.trimStart found.rest)

/-- A text read as one alternative of an expression. -/
def readAs? (grammar : Grammar) (text : Text) : Alternative → Option Expression
  | .zeroaryExpression =>
    (term? grammar.zeroaryTerm text).map fun (keyword, _) => .zeroary keyword
  | .typeExpression =>
    (term? grammar.typeTerm text).bind fun (keyword, rest) =>
      (subjectAtom? rest).map (.typed keyword)
  | .tagExpression =>
    (term? grammar.tagTerm text).bind fun (tag, rest) =>
      (subjectAtom? rest).map (.tagged tag)
  | .subjectTerm => (subjectAtom? text).map .bare

/-- The expression that a search text denotes; a blank one denotes none. -/
def expression? (grammar : Grammar) (input : Text) : Option Expression :=
  let text := Text.trim input
  if text.isEmpty then none
  else if grammar.plain.accepts text then (subjectAtom? text).map .bare
  else Alternative.priority.findSome? (grammar.readAs? text)

end Grammar

end LineageSearch
