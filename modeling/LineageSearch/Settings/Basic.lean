import LineageSearch.Lineage.Language
import LineageSearch.Settings.JsonFile
import LineageSearch.Settings.Layer
import LineageSearch.Settings.Vocabulary
import LineageSearch.Text.Utf8
import LineageSearch.Toml.Document
import LineageSearch.Vocabulary.Builtin

/-!
# Settings

Settings come in three layers: the built-in ones, those of a settings file, and those of
environment variables whose names begin with `PANDAQUERY_`.  The layers are laid over one
another, and the result is read as settings.

Reading is generous with scalars: truth values may be written as words or numbers, and a
path as a number.  A setting that cannot be read refuses the whole.
-/

namespace LineageSearch

/-- What can be set.

* `language`: the language of names;
* `strictKeywords`: whether ambiguous keywords are refused;
* `graph`: the path of the export that the command line tool searches. -/
structure Settings where
  language : Language := .en
  strictKeywords : Bool := false
  graph : Option Text := none
  operators : Dictionary := {}
  tags : Tags := .empty

/-- The notations of settings files that are read. -/
inductive SettingsFormat where
  | toml
  | json
deriving Repr, DecidableEq

/-- The notation that the extension of a file name stands for. -/
def SettingsFormat.ofExtension? (extension : Text) : Option SettingsFormat :=
  if extension = "toml".toList then some .toml
  else if extension = "json".toList then some .json
  else none

namespace Setting

/-- The truth value that a setting denotes.  Numbers are true unless they are zero. -/
def truth? : Setting → Option Bool
  | bool value => some value
  | integer value => some (value != 0)
  | decimal value => some (!value.isZero)
  | text value =>
    let word := Text.lower value
    if ["1", "true", "on", "yes"].any (·.toList == word) then some true
    else if ["0", "false", "off", "no"].any (·.toList == word) then some false
    else none
  | _ => none

def scalarText? : Setting → Option Text
  | text value => some value
  | bool true => some "true".toList
  | bool false => some "false".toList
  | integer value => some (Text.ofInt value)
  | decimal value => some value.toText
  | _ => none

/-- The language that a setting denotes: its code, or a table whose only name is a code. -/
def language? : Setting → Option Language
  | text code => Language.ofCode? code
  | table [(code, _)] => Language.ofCode? code
  | _ => none

end Setting

namespace Settings

def builtinLayer : Entries Setting :=
  [("language".toList, .text Language.en.code),
    ("strict_keywords".toList, .bool false),
    ("operators".toList, Dictionary.builtin.toSetting),
    ("tags".toList, Tags.builtin.toSetting)]

/-- The table that the text of a settings file denotes.  A mark of the byte order at its
beginning is disregarded. -/
def fileLayer? (format : SettingsFormat) (text : Text) : Option (Entries Setting) :=
  let content := Text.dropByteOrderMark text
  match format with
  | .toml => Toml.tableOf? content
  | .json => Setting.tableOfJsonText? content

/-- The beginning of the names of variables that hold settings, in lowercase. -/
def variableMark : Text := "pandaquery_".toList

/-- The entry that an environment variable stands for.  The case of its name is
disregarded, and its value is a text. -/
def variableEntry? (name value : Text) : Option (Text × Setting) :=
  let key := Text.lower name
  if variableMark.isPrefixOf key then some (key.drop variableMark.length, .text value)
  else none

def variableLayer (environ : List (Text × Text)) : Entries Setting :=
  Entries.ofList (environ.filterMap fun (name, value) => variableEntry? name value)

/-- The settings that a table denotes.  Names that set nothing are disregarded. -/
def ofTable? (entries : Entries Setting) : Option Settings := do
  let field {α : Type} (name : String) (default : α) (read : Setting → Option α) : Option α :=
    match entries.get? name.toList with
    | some value => read value
    | none => some default
  let path : Setting → Option (Option Text)
    | .null => some none
    | value => value.scalarText?.map some
  return {
    language := ← field "language" .en Setting.language?
    strictKeywords := ← field "strict_keywords" false Setting.truth?
    graph := ← field "graph" none path
    operators := ← field "operators" {} Dictionary.ofSetting?
    tags := ← field "tags" .empty Vocabulary.ofSetting? }

/-- The settings of the built-in layer, a layer of a file and a layer of variables. -/
def ofLayers? (file environ : Entries Setting) : Option Settings :=
  ofTable? (overlayLayers [builtinLayer, file, environ])

/-- The settings with the text of a settings file, if there is one, and the environment
variables. -/
def load? (file : Option (SettingsFormat × Text)) (environ : List (Text × Text)) :
    Option Settings := do
  let fileEntries ← match file with
    | some (format, text) => fileLayer? format text
    | none => some []
  ofLayers? fileEntries (variableLayer environ)

end Settings

end LineageSearch
