import LineageSearch.Settings.Setting
import LineageSearch.Vocabulary.Document

/-!
# Keywords as settings

Dictionaries and tags are laid over the built-in ones as tables, so they are written as
settings and read back from them.  `Keywords.ofSetting?_toSetting` says that nothing is
lost on the way.
-/

namespace LineageSearch

namespace Keywords

mutual

def toSetting : Keywords → Setting
  | word text => .text text
  | list members => .list (listToSettings members)
  | group members => .table (groupToSettings members)

def listToSettings : List Keywords → List Setting
  | [] => []
  | member :: rest => member.toSetting :: listToSettings rest

def groupToSettings : List (Text × Keywords) → List (Text × Setting)
  | [] => []
  | (name, member) :: rest => (name, member.toSetting) :: groupToSettings rest

end

mutual

/-- The keyword value that a setting denotes: a text, a list or a table. -/
def ofSetting? : Setting → Option Keywords
  | .text text => some (word text)
  | .list items => (listOfSettings? items).map list
  | .table entries => (groupOfSettings? entries).map group
  | _ => none

/-- The keyword values that a list of settings denotes. -/
def listOfSettings? : List Setting → Option (List Keywords)
  | [] => some []
  | item :: rest =>
    match ofSetting? item, listOfSettings? rest with
    | some member, some members => some (member :: members)
    | _, _ => none

/-- The named keyword values that the entries of a table denote. -/
def groupOfSettings? : List (Text × Setting) → Option (List (Text × Keywords))
  | [] => some []
  | (name, value) :: rest =>
    match ofSetting? value, groupOfSettings? rest with
    | some member, some members => some ((name, member) :: members)
    | _, _ => none

end

mutual

/-- A keyword value written as a setting reads back as itself. -/
theorem ofSetting?_toSetting : ∀ keywords : Keywords, ofSetting? keywords.toSetting = some keywords
  | word _ => by simp [toSetting, ofSetting?]
  | list members => by simp [toSetting, ofSetting?, listOfSettings?_listToSettings members]
  | group members => by simp [toSetting, ofSetting?, groupOfSettings?_groupToSettings members]

theorem listOfSettings?_listToSettings : ∀ members : List Keywords,
    listOfSettings? (listToSettings members) = some members
  | [] => by simp [listToSettings, listOfSettings?]
  | member :: rest => by
    simp [listToSettings, listOfSettings?, ofSetting?_toSetting member,
      listOfSettings?_listToSettings rest]

theorem groupOfSettings?_groupToSettings : ∀ members : List (Text × Keywords),
    groupOfSettings? (groupToSettings members) = some members
  | [] => by simp [groupToSettings, groupOfSettings?]
  | (_, member) :: rest => by
    simp [groupToSettings, groupOfSettings?, ofSetting?_toSetting member,
      groupOfSettings?_groupToSettings rest]

end

end Keywords

def Vocabulary.toSetting (vocabulary : Vocabulary) : Setting :=
  .table (Keywords.groupToSettings vocabulary.entries)

def Vocabulary.ofSetting? : Setting → Option Vocabulary
  | .table entries => (Keywords.groupOfSettings? entries).map Vocabulary.ofList
  | _ => none

def Dictionary.toSetting (dictionary : Dictionary) : Setting :=
  .table (dictionary.categories.map fun (name, vocabulary) => (name, vocabulary.toSetting))

/-- The dictionary that a setting denotes: a table of categories, or a list of them in the
order of a dictionary.  Categories that are missing are empty. -/
def Dictionary.ofSetting? (setting : Setting) : Option Dictionary := do
  let category : Option Setting → Option Vocabulary
    | some value => Vocabulary.ofSetting? value
    | none => some .empty
  let pick (name : String) (place : Nat) : Option (Option Setting) :=
    match setting with
    | .table entries => some (Entries.get? name.toList entries)
    | .list items => some items[place]?
    | _ => none
  return {
    types := ← category (← pick "type" 0)
    subtype := ← category (← pick "subtype" 1)
    glob := ← category (← pick "glob" 2)
    logical := ← category (← pick "logical" 3)
    family := ← category (← pick "family" 4) }

end LineageSearch
