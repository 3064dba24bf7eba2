import LineageSearch.Text.Utf8
import LineageSearch.Toml.Reader

/-!
# TOML documents

The statements of a document build one table.  A header opens a table once; the tables on
the way to it come into being by themselves and may be opened later.  A key with points
builds tables too, and a table in which such a key is written is opened by no header after
that.  No such key enters a table that a header has opened, but it may pass through the
last table of an array of tables.  Arrays and tables that are written as values are
finished where they stand.

Entries keep the order in which they first appear, except that a table which a header opens
goes behind the tables beside it.  A table whose first name is `timeName` is another way to
write a time.
-/

namespace LineageSearch.Toml

/-- What is known of a table: that it lies on the way to another one, that a header has
opened it, or that a key with points has been written in it. -/
inductive Origin where
  | implied
  | header
  | dotted
deriving Repr, DecidableEq

/-- A part of a document that is being built.  The last table of an array of tables is
held first. -/
inductive Node where
  | value (value : Setting)
  | table (origin : Origin) (entries : List (Text × Node))
  | tables (items : List (List (Text × Node)))
deriving Repr

abbrev Draft := List (Text × Node)

/-- Writes a node under a key with points, whose tables it builds.  A key is written once.
The table in which its last part is written becomes one of keys with points. -/
def assign (node : Node) (entries : Draft) : List Text → Option Draft
  | [] => none
  | [name] =>
    match Entries.get? name entries with
    | none => some (Entries.put name node entries)
    | some _ => none
  | name :: path =>
    match Entries.get? name entries with
    | none => (assign node [] path).map fun inner => Entries.put name (.table .dotted inner) entries
    -- what a header has opened is closed to keys with points
    | some (.table .header _) => none
    | some (.table origin inner) =>
      let origin := if path.length = 1 then .dotted else origin
      (assign node inner path).map fun changed => Entries.put name (.table origin changed) entries
    | some (.tables (last :: others)) =>
      if path.length = 1 then none
      else
        (assign node last path).map fun changed =>
          Entries.put name (.tables (changed :: others)) entries
    | some _ => none

/-- Opens the table of a header.  A table on the way to another one moves to the end. -/
def openTable (entries : Draft) : List Text → Option Draft
  | [] => none
  | [name] =>
    match Entries.get? name entries with
    | none => some (Entries.put name (.table .header []) entries)
    -- only a table that lay on the way is opened late, and it gives up its old place
    | some (.table .implied inner) =>
      some (Entries.put name (.table .header inner) (Entries.erase name entries))
    | some _ => none
  | name :: path =>
    match Entries.get? name entries with
    | none => (openTable [] path).map fun inner => Entries.put name (.table .implied inner) entries
    | some (.table origin inner) =>
      (openTable inner path).map fun changed => Entries.put name (.table origin changed) entries
    | some (.tables (last :: others)) =>
      (openTable last path).map fun changed =>
        Entries.put name (.tables (changed :: others)) entries
    | some _ => none

def openArrayTable (entries : Draft) : List Text → Option Draft
  | [] => none
  | [name] =>
    match Entries.get? name entries with
    | none => some (Entries.put name (.tables [[]]) entries)
    | some (.tables items) => some (Entries.put name (.tables ([] :: items)) entries)
    | some _ => none
  | name :: path =>
    match Entries.get? name entries with
    | none =>
      (openArrayTable [] path).map fun inner => Entries.put name (.table .implied inner) entries
    | some (.table origin inner) =>
      (openArrayTable inner path).map fun changed =>
        Entries.put name (.table origin changed) entries
    | some (.tables (last :: others)) =>
      (openArrayTable last path).map fun changed =>
        Entries.put name (.tables (changed :: others)) entries
    | some _ => none

/-- Writes a node under a key in the table that a path leads to. -/
def assignAt (key : List Text) (node : Node) (entries : Draft) : List Text → Option Draft
  | [] => assign node entries key
  | name :: path =>
    match Entries.get? name entries with
    | some (.table origin inner) =>
      (assignAt key node inner path).map fun changed =>
        Entries.put name (.table origin changed) entries
    | some (.tables (last :: others)) =>
      (assignAt key node last path).map fun changed =>
        Entries.put name (.tables (changed :: others)) entries
    | _ => none

mutual

def Node.toSetting : Node → Setting
  | .value value => value
  | .table _ entries => .table (settingsOf entries)
  | .tables items => .list (tableSettings items).reverse

def settingsOf : List (Text × Node) → List (Text × Setting)
  | [] => []
  | (name, node) :: rest => (name, node.toSetting) :: settingsOf rest

def tableSettings : List (List (Text × Node)) → List Setting
  | [] => []
  | entries :: rest => .table (settingsOf entries) :: tableSettings rest

end

mutual

/-- A value that is written as one. -/
def Value.toSetting? : Value → Option Setting
  | .scalar value => some value
  | .array items => (itemSettings? items).map .list
  | .inlineTable fields =>
    (fieldDraft? [] fields).map fun entries => .table (settingsOf entries)

def itemSettings? : List Value → Option (List Setting)
  | [] => some []
  | item :: rest =>
    match item.toSetting?, itemSettings? rest with
    | some setting, some settings => some (setting :: settings)
    | _, _ => none

/-- The table that the fields in braces build. -/
def fieldDraft? (entries : Draft) : List (List Text × Value) → Option Draft
  | [] => some entries
  | (path, value) :: rest =>
    match value.toSetting? with
    | some setting =>
      match assign (.value setting) entries path with
      | some changed => fieldDraft? changed rest
      | none => none
    | none => none

end

/-- Adds a statement to a document; the path is that of the table last opened. -/
def addStatement (state : Draft × List Text) (statement : Statement) :
    Option (Draft × List Text) :=
  let (entries, current) := state
  match statement with
  | .header path => (openTable entries path).map (·, path)
  | .arrayHeader path => (openArrayTable entries path).map (·, path)
  | .assign key value => do
    let setting ← value.toSetting?
    let changed ← assignAt key (.value setting) entries current
    return (changed, current)

/-- The name of the entry by which a table stands for a time. -/
def timeName : Text := "$__toml_private_datetime".toList

/-- The time that a table with this first entry stands for. -/
def timeOf? : List (Text × Setting) → Option Setting
  | (_, .text time) :: _ => dateTime? time
  | _ => none

mutual

/-- A value in which every table that stands for a time is that time. -/
def withTimes? : Setting → Option Setting
  | .list items => (itemsWithTimes? items).map .list
  | .table entries =>
    if (entries.head?.map Prod.fst) = some timeName then timeOf? entries
    else (entriesWithTimes? entries).map .table
  | value => some value

def itemsWithTimes? : List Setting → Option (List Setting)
  | [] => some []
  | item :: rest =>
    match withTimes? item, itemsWithTimes? rest with
    | some setting, some settings => some (setting :: settings)
    | _, _ => none

def entriesWithTimes? : List (Text × Setting) → Option (List (Text × Setting))
  | [] => some []
  | (name, value) :: rest =>
    match withTimes? value, entriesWithTimes? rest with
    | some setting, some settings => some ((name, setting) :: settings)
    | _, _ => none

end

/-- The table that a document denotes.  A mark of the byte order at its beginning is
disregarded. -/
def tableOf? (document : Text) : Option (Entries Setting) := do
  let document := Text.dropByteOrderMark document
  let statements ← statements? (document.length + 1) document
  let (entries, _) ← statements.foldlM addStatement ([], [])
  match ← withTimes? (.table (settingsOf entries)) with
  | .table finished => some finished
  | _ => none

end LineageSearch.Toml
