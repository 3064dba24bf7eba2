import LineageSearch.Lineage.Hit
import LineageSearch.Vocabulary.Registry

/-!
# The environment of a search

A search leaves notes for whoever shows its results: whether to show entities or a spread
of photos, whose photos to show, and the terms that were understood.  The notes are read
while the search goes on: a credit keyword switches to photos before its subject is
reduced, and the subject then names the author.

Nothing is cleared by itself.  Notes of an earlier search stay until `Environment.reset`.
-/

namespace LineageSearch

/-- What the results of a search are shown as. -/
inductive OutputMode where
  | entities
  | photos
deriving Repr, DecidableEq, Inhabited

def OutputMode.name : OutputMode → Text
  | entities => "entities".toList
  | photos => "photos".toList

/-- The notes of a search.

* `credit`: the author on whom the shown photos are filtered;
* `preserveCase`: whether a name keeps its casing;
* `specific`: the one entity that the host was asked to show;
* `terms`: the text of every term understood so far. -/
structure Environment where
  output : OutputMode := .entities
  credit : Option Text := none
  preserveCase : Bool := false
  specific : Option EntityId := none
  terms : List Text := []
deriving Repr, DecidableEq, Inhabited

namespace Environment

def fresh : Environment := {}

def reset (_ : Environment) : Environment := fresh

def noteTerm (env : Environment) (term : Text) : Environment :=
  { env with terms := env.terms ++ [term] }

/-- Notes a tag: photos are shown. -/
def noteTag (env : Environment) (tag : Text) : Environment :=
  { env with output := .photos }.noteTerm tag

/-- Notes a type operator: a credit keyword shows photos and keeps the case of its subject,
any other one shows entities and does not. -/
def noteType (env : Environment) (kind : Option TypeOperator) (keyword : Text) : Environment :=
  if kind = some .credit then
    { env with preserveCase := true, output := .photos }.noteTerm keyword
  else { env with preserveCase := false, output := .entities }.noteTerm keyword

/-- Notes a subject.  Where photos are shown it is also their author. -/
def noteSubject (env : Environment) (text : Text) : Environment :=
  let noted := env.noteTerm text
  if env.output = .photos then { noted with credit := some text } else noted

end Environment

end LineageSearch
