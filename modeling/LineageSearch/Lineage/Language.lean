import LineageSearch.Text.Blank
import LineageSearch.Text.Upper

/-!
# Languages and the casing of names

Names are recorded with their conventional casing, such as `Harumaki` and `Aka-Chan`,
while a search is typed in any casing.  In English every word, and every part of a word
between hyphens, begins with a capital.  Japanese has no case, so its words stay as they
are.
-/

namespace LineageSearch

/-- The languages that names are recorded and displayed in. -/
inductive Language where
  | en
  | jp
deriving Repr, DecidableEq, Inhabited

namespace Language

def all : List Language := [en, jp]

def code : Language → Text
  | en => "en".toList
  | jp => "jp".toList

def ofCode? (code : Text) : Option Language := all.find? (·.code == code)

@[simp] theorem ofCode?_code (language : Language) : ofCode? language.code = some language := by
  cases language <;> decide

end Language

/-- A part of a word with its first character in uppercase. -/
def capitalizePart : Text → Text
  | [] => []
  | c :: rest => upperChar c ++ rest

/-- A word with every part between hyphens capitalized. -/
def capitalizeWord (word : Text) : Text :=
  Text.joinWith ['-'] ((cut (· == '-') word).map capitalizePart)

namespace Language

/-- Words in the casing of recorded names, with one space between them. -/
def capitalizeNames : Language → List Text → Text
  | en, words => Text.unwords (words.map capitalizeWord)
  | jp, words => Text.unwords words

/-- Free text as a name: its words in the casing of recorded names. -/
def nameOf (language : Language) (text : Text) : Text :=
  language.capitalizeNames (Text.words text)

end Language

end LineageSearch
