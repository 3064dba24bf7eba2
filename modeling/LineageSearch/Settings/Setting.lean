import LineageSearch.Decimal.Binary64
import LineageSearch.Entries

/-!
# Settings values

A settings value is a scalar, a list or a table of named values.  Values are laid over one
another: a table laid over a table is merged with it entry by entry, where a name that is
present keeps its place, and a new name follows the ones before it.  Anything else replaces
what lies below it.
-/

namespace LineageSearch

/-- A settings value. -/
inductive Setting where
  | null
  | bool (value : Bool)
  | integer (value : Int)
  | decimal (value : Binary64)
  | text (value : Text)
  | list (items : List Setting)
  | table (entries : List (Text × Setting))
deriving Repr, Inhabited

namespace Setting

/-- The entries of a table; anything else has none. -/
def entriesOf : Option Setting → Entries Setting
  | some (table entries) => entries
  | _ => []

mutual

/-- A value laid over the one below it, if there is one. -/
def overlay (below : Option Setting) : Setting → Setting
  | table entries => table (overlayEntries (entriesOf below) entries)
  | value => value

/-- The entries of a table with others laid over them, one after the other. -/
def overlayEntries (below : Entries Setting) : List (Text × Setting) → Entries Setting
  | [] => below
  | (name, value) :: rest =>
    overlayEntries (below.put name (overlay (below.get? name) value)) rest

end

end Setting

end LineageSearch
