import LineageSearch.Entries
import LineageSearch.Text.Blank
import LineageSearch.Text.Lower

/-!
# Keyword values

The surface forms of an operator or a tag are declared as one word, as a list, or under
further names such as languages, nested to any depth.  Whatever the nesting, the value
stands for the list of its words from left to right.
-/

namespace LineageSearch

/-- A keyword value: a word, a list of values, or values under names. -/
inductive Keywords where
  | word (text : Text)
  | list (members : List Keywords)
  | group (members : List (Text × Keywords))
deriving Repr

namespace Keywords

mutual

/-- The words of a value from left to right, repeats included. -/
def flatten : Keywords → List Text
  | word text => [text]
  | list members => flattenList members
  | group members => flattenGroup members

def flattenList : List Keywords → List Text
  | [] => []
  | member :: rest => flatten member ++ flattenList rest

/-- The words of named values; the names are no words. -/
def flattenGroup : List (Text × Keywords) → List Text
  | [] => []
  | (_, member) :: rest => flatten member ++ flattenGroup rest

end

def ofWords (words : List Text) : Keywords := list (words.map word)

theorem flatten_ofWords (words : List Text) : (ofWords words).flatten = words := by
  rw [ofWords, flatten]
  induction words with
  | nil => rfl
  | cons text rest ih => simp [flattenList, flatten, ih]

end Keywords

/-- The form under which a word is looked up: without blanks at its ends, in lowercase. -/
def indexKey (word : Text) : Text := Text.lower (Text.trim word)

end LineageSearch
