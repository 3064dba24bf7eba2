import LineageSearch.Lineage.Calendar
import LineageSearch.Lineage.Hit
import LineageSearch.Lineage.Language

/-!
# Records

The lineage is exported as records of pandas and zoos with their photos.  An export may
hold several records of one id; the graph keeps the last of them.
-/

namespace LineageSearch

/-- A photo with its author, if known, and its tags. -/
structure Photo where
  url : Text
  author : Option Text := none
  tags : List Text := []
deriving Repr, DecidableEq

/-- The name in each language that has one. -/
structure Names where
  en : Option Text := none
  jp : Option Text := none
deriving Repr, DecidableEq, Inhabited

def Names.toList (names : Names) : List Text := names.en.toList ++ names.jp.toList

/-- A red panda. -/
structure Panda where
  id : EntityId
  names : Names := {}
  othernames : List Text := []
  birthday : Option Date := none
  death : Option Date := none
  zoo : Option EntityId := none
  photos : List Photo := []
deriving Repr, DecidableEq

/-- All names a panda is found under. -/
def Panda.allNames (panda : Panda) : List Text := panda.names.toList ++ panda.othernames

/-- A zoo. -/
structure Zoo where
  id : EntityId
  names : Names := {}
  photos : List Photo := []
deriving Repr, DecidableEq

/-- The records that a graph is loaded from. -/
structure Export where
  pandas : List Panda := []
  zoos : List Zoo := []
deriving Repr, DecidableEq, Inhabited

end LineageSearch
