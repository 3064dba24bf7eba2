import LineageSearch.Json.Reader
import LineageSearch.Vocabulary.Dictionary

/-!
# Keywords as JSON documents

A keyword value is a string, an array of keyword values, or an object of them; nothing
else stands for keywords.  Values are nested to 127 levels at most, counting the
containers around them.
-/

namespace LineageSearch

/-- How many containers may be open at once. -/
def nestingLimit : Nat := 127

namespace Keywords

mutual

/-- The keyword value that a document denotes inside `depth` open containers. -/
def ofJson? (depth : Nat) : Json → Option Keywords
  | .string text => text.map word
  | .array items =>
    if depth < nestingLimit then (listOfJson? (depth + 1) items).map list else none
  | .object fields =>
    if depth < nestingLimit then
      (groupOfJson? (depth + 1) fields).map fun members => group (Entries.ofList members)
    else none
  | _ => none

def listOfJson? (depth : Nat) : List Json → Option (List Keywords)
  | [] => some []
  | item :: rest =>
    match ofJson? depth item, listOfJson? depth rest with
    | some member, some members => some (member :: members)
    | _, _ => none

/-- The keyword values of an object with their names. -/
def groupOfJson? (depth : Nat) : List (Option Text × Json) → Option (List (Text × Keywords))
  | [] => some []
  | (name, value) :: rest =>
    match name, ofJson? depth value, groupOfJson? depth rest with
    | some name, some member, some members => some ((name, member) :: members)
    | _, _, _ => none

end

end Keywords

/-- The vocabulary that a document denotes inside `depth` open containers. -/
def Vocabulary.ofJson? (depth : Nat) : Json → Option Vocabulary
  | .object fields => (Keywords.groupOfJson? (depth + 1) fields).map Vocabulary.ofList
  | _ => none

/-- The names of the categories, in the order of a dictionary. -/
def Dictionary.form : List Text :=
  ["type".toList, "subtype".toList, "glob".toList, "logical".toList, "family".toList]

/-- The dictionary that a document denotes.  Categories that are missing are empty. -/
def Dictionary.ofJson? (document : Json) : Option Dictionary := do
  let category := Json.fieldOr Vocabulary.empty (Vocabulary.ofJson? 1)
  match ← document.record? Dictionary.form with
  | [types, subtype, glob, logical, family] =>
    return {
      types := ← category types
      subtype := ← category subtype
      glob := ← category glob
      logical := ← category logical
      family := ← category family }
  | _ => none

end LineageSearch
