import LineageSearch.Vocabulary.Dictionary

/-!
# The built-in keywords

The operators and photo tags that are known without any settings file, in English and in
Japanese.
-/

namespace LineageSearch

private def wordList (words : List String) : Keywords := .ofWords (words.map String.toList)

/-- The surface forms of a tag in English and in Japanese. -/
private def tagForms (english japanese : List String) : Keywords :=
  .group [("en".toList, wordList english), ("jp".toList, wordList japanese)]

def Dictionary.builtin : Dictionary where
  types := { entries :=
    [("baby".toList, wordList
        ["Baby", "baby", "Babies", "babies", "Aka-Chan", "Aka-chan", "aka-chan", "赤ちゃん"]),
      ("credit".toList, wordList ["Credit", "credit", "Author", "author", "著者"]),
      ("dead".toList, wordList
        ["Dead", "dead", "Died", "died", "死", "Rainbow", "rainbow", "虹"]),
      ("panda".toList, wordList ["Panda", "panda", "red panda", "パンダ", "レッサーパンダ"]),
      ("zoo".toList, wordList ["Zoo", "zoo", "動物園"])] }
  subtype := { entries :=
    [("alive".toList, wordList ["alive", "living"]),
      ("born".toList, wordList ["born"]),
      ("born before".toList, wordList ["born before"]),
      ("born after".toList, wordList ["born after"]),
      ("dead".toList, wordList ["dead"]),
      ("died".toList, wordList ["died"]),
      ("died before".toList, wordList ["died before"]),
      ("died after".toList, wordList ["died after"]),
      ("in".toList, wordList ["in", "at"])] }
  glob := { entries := [("*".toList, wordList ["*"]), ("?".toList, wordList ["?"])] }
  logical := { entries :=
    [("and".toList, wordList ["and"]), ("or".toList, wordList ["or"]),
      ("not".toList, wordList ["not"]), ("nor".toList, wordList ["nor"])] }
  family := { entries :=
    [("aunt".toList, wordList ["aunt"]),
      ("brother".toList, wordList ["brother"]),
      ("cousin".toList, wordList ["cousin"]),
      ("children".toList, wordList ["children"]),
      ("dad".toList, wordList ["dad", "father", "papa"]),
      ("grandma".toList, wordList ["grandma", "grandmother"]),
      ("grandpa".toList, wordList ["grandpa", "grandfather"]),
      ("litter".toList, wordList ["litter"]),
      ("mate".toList, wordList ["husband", "mate", "wife"]),
      ("mom".toList, wordList ["mom", "mother"]),
      ("nephew".toList, wordList ["nephew"]),
      ("niece".toList, wordList ["niece"]),
      ("parents".toList, wordList ["parents"]),
      ("relatives".toList, wordList ["relative", "relatives"]),
      ("siblings".toList, wordList ["sibling", "siblings"]),
      ("uncle".toList, wordList ["uncle"])] }

def Tags.builtin : Tags where
  entries :=
    [("sleeping".toList, tagForms ["sleeping", "asleep"] ["寝ている"]),
      ("eating".toList, tagForms ["eating"] ["食べている"]),
      ("tongue".toList, tagForms ["tongue"] ["舌"]),
      ("yawn".toList, tagForms ["yawn", "yawning"] ["あくび"]),
      ("climb".toList, tagForms ["climb", "climbing"] ["木登り"])]

end LineageSearch
