import LineageSearch.Entries
import Mathlib.Data.List.Nodup

/-!
# What named entries hold

Entries are looked up by name, and the first one of a name answers.  Where no name repeats, looking
up a name and finding its entry are one and the same (`get?_eq_some_iff`), and writing entries down
one after the other gives them back (`ofList_of_nodup`).  `Once` says of entries that no name
repeats and that every value has a property; writing to them keeps it.
-/

namespace LineageSearch

namespace Entries

variable {α : Type} {entries : Entries α} {name : Text} {value : α}

theorem get?_eq_none_iff : entries.get? name = none ↔ name ∉ entries.names := by
  induction entries with
  | nil => simp [get?, names]
  | cons entry rest ih =>
    rw [get?, names, List.map_cons, List.mem_cons, not_or]
    by_cases hname : entry.1 = name
    · simp [hname]
    · rw [if_neg hname, ih]
      exact ⟨fun h => ⟨Ne.symm hname, h⟩, fun h => h.2⟩

theorem mem_of_get? (h : entries.get? name = some value) : (name, value) ∈ entries := by
  induction entries with
  | nil => simp [get?] at h
  | cons entry rest ih =>
    rw [get?] at h
    split at h
    · next hname =>
      obtain rfl := Option.some.inj h
      exact hname ▸ List.mem_cons_self
    · exact List.mem_cons_of_mem _ (ih h)

/-- Where no name repeats, a name leads to its one entry. -/
theorem get?_eq_some_iff (hnodup : entries.names.Nodup) :
    entries.get? name = some value ↔ (name, value) ∈ entries := by
  constructor
  · exact mem_of_get?
  · intro hmem
    cases hget : entries.get? name with
    | none => exact absurd (List.mem_map_of_mem hmem) (get?_eq_none_iff.mp hget)
    | some found =>
      have hsame := List.inj_on_of_nodup_map hnodup (mem_of_get? hget) hmem rfl
      rw [(Prod.mk.inj hsame).2]

theorem put_of_notMem (h : name ∉ entries.names) :
    entries.put name value = entries ++ [(name, value)] := by
  induction entries with
  | nil => rfl
  | cons entry rest ih =>
    rw [names, List.map_cons, List.mem_cons, not_or] at h
    rw [put, if_neg (Ne.symm h.1), ih h.2, List.cons_append]

theorem mem_put {entry : Text × α} (h : entry ∈ entries.put name value) :
    entry = (name, value) ∨ entry ∈ entries := by
  induction entries with
  | nil => exact Or.inl (List.mem_singleton.mp h)
  | cons first rest ih =>
    rw [put] at h
    split at h
    · exact (List.mem_cons.mp h).imp_right (List.mem_cons_of_mem _)
    · rcases List.mem_cons.mp h with rfl | hrest
      · exact Or.inr List.mem_cons_self
      · exact (ih hrest).imp_right (List.mem_cons_of_mem _)

/-- Entries without a repeated name are what they are written down from. -/
theorem ofList_of_nodup (h : entries.names.Nodup) : ofList entries = entries := by
  have hfold : ∀ (rest written : Entries α), (written ++ rest).names.Nodup →
      rest.foldl (fun written entry => put entry.1 entry.2 written) written = written ++ rest := by
    intro rest
    induction rest with
    | nil => simp
    | cons entry rest ih =>
      intro written hnodup
      have hnew : entry.1 ∉ written.names := by
        rw [names, List.map_append, List.map_cons, List.nodup_append] at hnodup
        intro hmem
        exact hnodup.2.2 _ hmem _ List.mem_cons_self rfl
      rw [List.foldl_cons, put_of_notMem hnew, ih _ (by simpa using hnodup)]
      simp
  exact hfold entries [] h

/-! ## A property of every value -/

/-- Entries under names that do not repeat, with a property of every value. -/
structure Once (P : α → Prop) (entries : Entries α) : Prop where
  nodup : entries.names.Nodup
  values : ∀ entry ∈ entries, P entry.2

section Once

variable {P : α → Prop}

theorem once_nil : Once P ([] : Entries α) := ⟨List.nodup_nil, by simp⟩

theorem Once.of_get? (h : entries.Once P) (hget : entries.get? name = some value) : P value :=
  h.values _ (mem_of_get? hget)

theorem Once.put (h : entries.Once P) (hvalue : P value) : (entries.put name value).Once P where
  nodup := nodup_names_put h.nodup name value
  values := by
    intro entry hentry
    rcases mem_put hentry with rfl | hentry
    · exact hvalue
    · exact h.values entry hentry

theorem Once.erase (h : entries.Once P) (name : Text) : (entries.erase name).Once P where
  nodup := h.nodup.sublist (List.filter_sublist.map Prod.fst)
  values := fun entry hentry => h.values entry (List.mem_of_mem_filter hentry)

/-- Entries that are written down one after the other, and of which a property holds. -/
theorem Once.ofList {entries : List (Text × α)} (h : ∀ entry ∈ entries, P entry.2) :
    Once P (Entries.ofList entries) := by
  have hfold : ∀ (rest : List (Text × α)) (written : Entries α), written.Once P →
      (∀ entry ∈ rest, P entry.2) →
      Once P (rest.foldl (fun written entry => Entries.put entry.1 entry.2 written) written) := by
    intro rest
    induction rest with
    | nil => exact fun _ hwritten _ => hwritten
    | cons entry rest ih =>
      intro written hwritten hrest
      rw [List.forall_mem_cons] at hrest
      exact ih _ (hwritten.put hrest.1) hrest.2
  exact hfold entries [] once_nil h

end Once

end Entries

end LineageSearch
