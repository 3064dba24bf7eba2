import LineageSearch.FirstSeen

/-!
# Lookups

A lookup lists, under each key, the distinct values that were inserted under it, in the
order of their first insertion.  Names and authors lead to their records this way.
-/

namespace LineageSearch

/-- Lists of values under keys, each key once. -/
structure Lookup (K V : Type) where
  entries : List (K × List V)
deriving Repr

namespace Lookup

def empty {K V : Type} : Lookup K V := ⟨[]⟩

variable {K V : Type} [DecidableEq K]

/-- The values of the first entry of a key. -/
def findEntry (key : K) : List (K × List V) → List V
  | [] => []
  | (other, values) :: rest => if other = key then values else findEntry key rest

def find (lookup : Lookup K V) (key : K) : List V := findEntry key lookup.entries

@[simp] theorem find_empty (key : K) : (empty : Lookup K V).find key = [] := rfl

variable [DecidableEq V]

/-- The values with one more behind them, unless it is among them. -/
def appendNew (values : List V) (value : V) : List V :=
  if value ∈ values then values else values ++ [value]

def insertEntry (key : K) (value : V) : List (K × List V) → List (K × List V)
  | [] => [(key, [value])]
  | (other, values) :: rest =>
    if other = key then (other, appendNew values value) :: rest
    else (other, values) :: insertEntry key value rest

def insert (lookup : Lookup K V) (key : K) (value : V) : Lookup K V :=
  ⟨insertEntry key value lookup.entries⟩

/-- The lookup that insertions build one after the other. -/
def ofList (pairs : List (K × V)) : Lookup K V :=
  pairs.foldl (fun lookup pair => lookup.insert pair.1 pair.2) empty

/-- An insertion changes the values under its own key only. -/
theorem find_insert (lookup : Lookup K V) (key other : K) (value : V) :
    (lookup.insert key value).find other =
      if key = other then appendNew (lookup.find other) value else lookup.find other := by
  have hentries : ∀ entries : List (K × List V),
      findEntry other (insertEntry key value entries) =
        if key = other then appendNew (findEntry other entries) value
        else findEntry other entries := by
    intro entries
    induction entries with
    | nil => by_cases h : key = other <;> simp [insertEntry, findEntry, appendNew, h]
    | cons entry rest ih =>
      obtain ⟨first, values⟩ := entry
      by_cases hkey : first = key
      · subst hkey
        by_cases h : first = other <;> simp [insertEntry, findEntry, h]
      · by_cases hother : first = other
        · subst hother
          simp [insertEntry, findEntry, hkey, Ne.symm hkey]
        · simp [insertEntry, findEntry, hkey, hother, ih]
  exact hentries lookup.entries

end Lookup

end LineageSearch
