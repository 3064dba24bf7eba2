import LineageSearch.Json.Reader
import LineageSearch.Lineage.Record

/-!
# Exports as JSON documents

An export is a record of two lists of records.  Fields that a record does not name are
disregarded; all but the id of an entity and the address of a photo may be missing.
Ids are whole numbers of at most 64 bits, written as such.
-/

namespace LineageSearch

def entityIdOfJson? : Json → Option EntityId
  | .number number => do
    let n ← number.natural?
    if n < UInt64.size then some (UInt64.ofNat n) else none
  | _ => none

def Date.ofJson? (document : Json) : Option Date := document.text?.bind Date.ofText?

/-- The names by language.  Of a language given twice the last name counts. -/
def Names.ofJson? : Json → Option Names
  | .object fields =>
    fields.foldlM (fun names (code, value) => do
      let name ← value.text?
      match ← Language.ofCode? (← code) with
      | .en => return { names with en := some name }
      | .jp => return { names with jp := some name }) {}
  | _ => none

def Photo.ofJson? (document : Json) : Option Photo := do
  match ← document.record? ["url".toList, "author".toList, "tags".toList] with
  | [url, author, tags] =>
    return {
      url := ← (← url).text?
      author := ← Json.fieldOr none (Json.optional? Json.text?) author
      tags := ← Json.fieldOr [] (Json.listOf? Json.text?) tags }
  | _ => none

def Panda.ofJson? (document : Json) : Option Panda := do
  match ← document.record? ["id".toList, "names".toList, "othernames".toList,
    "birthday".toList, "death".toList, "zoo".toList, "photos".toList] with
  | [id, names, othernames, birthday, death, zoo, photos] =>
    return {
      id := ← entityIdOfJson? (← id)
      names := ← Json.fieldOr {} Names.ofJson? names
      othernames := ← Json.fieldOr [] (Json.listOf? Json.text?) othernames
      birthday := ← Json.fieldOr none (Json.optional? Date.ofJson?) birthday
      death := ← Json.fieldOr none (Json.optional? Date.ofJson?) death
      zoo := ← Json.fieldOr none (Json.optional? entityIdOfJson?) zoo
      photos := ← Json.fieldOr [] (Json.listOf? Photo.ofJson?) photos }
  | _ => none

def Zoo.ofJson? (document : Json) : Option Zoo := do
  match ← document.record? ["id".toList, "names".toList, "photos".toList] with
  | [id, names, photos] =>
    return {
      id := ← entityIdOfJson? (← id)
      names := ← Json.fieldOr {} Names.ofJson? names
      photos := ← Json.fieldOr [] (Json.listOf? Photo.ofJson?) photos }
  | _ => none

def Export.ofJson? (document : Json) : Option Export := do
  match ← document.record? ["pandas".toList, "zoos".toList] with
  | [pandas, zoos] =>
    return {
      pandas := ← Json.fieldOr [] (Json.listOf? Panda.ofJson?) pandas
      zoos := ← Json.fieldOr [] (Json.listOf? Zoo.ofJson?) zoos }
  | _ => none

def Export.ofText? (text : Text) : Option Export := (Json.ofText? text).bind Export.ofJson?

end LineageSearch
