import LineageSearch.Text.Basic

/-!
# Named entries in the order they were declared

Groups of keywords, tables of settings and objects of a data file all hold named entries
whose order matters: of two groups that share a word, the one declared first wins it.
Writing an entry under a name that is present keeps its place and changes its value;
writing under a new name appends.

`Entries.names_put` says so for the names, `Entries.get?_put` for the values, and
`Entries.nodup_names_put` that no write repeats a name.
-/

namespace LineageSearch

abbrev Entries (α : Type) := List (Text × α)

namespace Entries

variable {α : Type}

def names (entries : Entries α) : List Text := entries.map Prod.fst

def get? (name : Text) : Entries α → Option α
  | [] => none
  | (other, value) :: rest => if other = name then some value else get? name rest

/-- The entries with a value written under a name. -/
def put (name : Text) (value : α) : Entries α → Entries α
  | [] => [(name, value)]
  | (other, old) :: rest =>
    if other = name then (name, value) :: rest else (other, old) :: put name value rest

def erase (name : Text) (entries : Entries α) : Entries α := entries.filter (·.1 != name)

/-- The entries written one after the other: a repeated name keeps its first place and
takes its last value. -/
def ofList (entries : List (Text × α)) : Entries α :=
  entries.foldl (fun written entry => put entry.1 entry.2 written) []

theorem names_put (name : Text) (value : α) (entries : Entries α) :
    names (put name value entries) =
      if name ∈ names entries then names entries else names entries ++ [name] := by
  induction entries with
  | nil => simp [put, names]
  | cons entry rest ih =>
    obtain ⟨other, old⟩ := entry
    by_cases hname : other = name
    · simp [put, names, hname]
    · simp only [names, List.map_cons] at ih ⊢
      simp only [put, hname, if_false, List.map_cons, ih, List.mem_cons, Ne.symm hname,
        false_or]
      by_cases hmem : name ∈ rest.map Prod.fst <;> simp [hmem]

/-- A write changes the value under its own name only. -/
theorem get?_put (name other : Text) (value : α) (entries : Entries α) :
    get? other (put name value entries) =
      if name = other then some value else get? other entries := by
  induction entries with
  | nil => rfl
  | cons entry rest ih =>
    obtain ⟨first, old⟩ := entry
    by_cases hfirst : first = name
    · subst hfirst
      by_cases hother : first = other <;> simp [put, get?, hother]
    · by_cases hother : first = other
      · subst hother
        simp [put, get?, hfirst, Ne.symm hfirst]
      · simp [put, get?, hfirst, hother, ih]

theorem nodup_names_put {entries : Entries α} (h : (names entries).Nodup) (name : Text)
    (value : α) : (names (put name value entries)).Nodup := by
  rw [names_put]
  split
  · exact h
  · next hnew =>
    refine List.nodup_append.mpr ⟨h, by simp, ?_⟩
    intro other hother last hlast heq
    rw [List.mem_singleton.mp hlast] at heq
    exact hnew (heq ▸ hother)

theorem nodup_names_ofList (entries : List (Text × α)) : (names (ofList entries)).Nodup := by
  have hfold : ∀ (rest : List (Text × α)) (written : Entries α), (names written).Nodup →
      (names (rest.foldl (fun w entry => put entry.1 entry.2 w) written)).Nodup := by
    intro rest
    induction rest with
    | nil => exact fun _ h => h
    | cons entry rest ih => exact fun written h => ih _ (nodup_names_put h _ _)
  exact hfold entries [] (by simp [names])

end Entries

end LineageSearch
