import LineageSearch.Proofs.Settings.Writes
import LineageSearch.Settings.Vocabulary

/-!
# Groups of keywords under writes

Groups of keywords are laid over one another as settings and then read back.  What becomes of a
group can be told without either, from the group and the writes to it alone (`Keywords.Overlaid`):

| group                                          | keywords                                    |
|------------------------------------------------|---------------------------------------------|
| no write under its name                        | those below                                 |
| the last write gives it a value, but no table  | those of that value                         |
| all writes lead inside it                      | a group, of which the same holds again      |

The names below come first, as they were, and new ones follow in the order of their first writes.

Main statement: `Keywords.overlaid_of_lay`, wherever the writes leave something that can be read.
-/

namespace LineageSearch

namespace Keywords

/-- The members of a group; anything else has none. -/
def membersOf : Option Keywords → Entries Keywords
  | some (group members) => members
  | _ => []

/-- What a group of keywords becomes under writes. -/
inductive Overlaid : (below : Entries Keywords) → Writes → (result : Entries Keywords) → Prop
  | intro {below : Entries Keywords} {writes : Writes} {result : Entries Keywords}
    (names : result.names =
      below.names ++ (firstSeen writes.names).filter (· ∉ below.names))
    (kept : ∀ name, name ∉ writes.names → result.get? name = below.get? name)
    (replaced : ∀ name value, (writes.under name).getLast? = some ⟨[], value⟩ →
      (∀ entries, value ≠ .table entries) →
      ∃ keywords, ofSetting? value = some keywords ∧ result.get? name = some keywords)
    (isGroup : ∀ name inner, name ∈ writes.names → writes.inside? name = some inner →
      ∃ members, result.get? name = some (group members))
    (merged : ∀ name inner members, name ∈ writes.names → writes.inside? name = some inner →
      result.get? name = some (group members) →
      Overlaid (membersOf (below.get? name)) inner members) :
    Overlaid below writes result

/-! ## Reading groups -/

section Reading

variable {entries : Entries Setting} {members : Entries Keywords} {name : Text} {value : Setting}

theorem names_of_groupOfSettings? (h : groupOfSettings? entries = some members) :
    members.names = entries.names := by
  induction entries generalizing members with
  | nil =>
    rw [groupOfSettings?] at h
    obtain rfl := Option.some.inj h
    rfl
  | cons entry rest ih =>
    rw [groupOfSettings?] at h
    split at h
    · next hrest =>
      obtain rfl := Option.some.inj h
      exact congrArg (entry.1 :: ·) (ih hrest)
    · cases h

/-- What is read under a name is read from the value that stands there. -/
theorem get?_of_groupOfSettings? (h : groupOfSettings? entries = some members) (name : Text) :
    members.get? name = (entries.get? name).bind ofSetting? := by
  induction entries generalizing members with
  | nil =>
    rw [groupOfSettings?] at h
    obtain rfl := Option.some.inj h
    rfl
  | cons entry rest ih =>
    rw [groupOfSettings?] at h
    split at h
    · next hvalue hrest =>
      obtain rfl := Option.some.inj h
      rw [Entries.get?, Entries.get?]
      split
      · exact hvalue.symm
      · exact ih hrest
    · cases h

theorem exists_of_get? (h : groupOfSettings? entries = some members)
    (hget : entries.get? name = some value) :
    ∃ keywords, ofSetting? value = some keywords ∧ members.get? name = some keywords := by
  have hmember := get?_of_groupOfSettings? h name
  rw [hget, Option.bind_some] at hmember
  have hname : name ∈ members.names := by
    rw [names_of_groupOfSettings? h]
    exact List.mem_map_of_mem (Entries.mem_of_get? hget)
  cases hread : ofSetting? value with
  | none => exact absurd hname (Entries.get?_eq_none_iff.mp (hmember.trans hread))
  | some keywords => exact ⟨keywords, rfl, hmember.trans hread⟩

/-- The members of what stands under a name are read from its entries. -/
theorem groupOfSettings?_entriesOf (h : groupOfSettings? entries = some members) (name : Text) :
    groupOfSettings? (Setting.entriesOf (entries.get? name)) =
      some (membersOf (members.get? name)) := by
  cases hget : entries.get? name with
  | none =>
    rw [get?_of_groupOfSettings? h, hget]
    rfl
  | some value =>
    obtain ⟨keywords, hread, hmember⟩ := exists_of_get? h hget
    rw [hmember]
    cases value with
    | table inner =>
      rw [ofSetting?] at hread
      obtain ⟨inner, hinner, rfl⟩ := Option.map_eq_some_iff.mp hread
      exact hinner
    | list items =>
      rw [ofSetting?] at hread
      obtain ⟨_, _, rfl⟩ := Option.map_eq_some_iff.mp hread
      rfl
    | text t =>
      rw [ofSetting?] at hread
      obtain rfl := Option.some.inj hread
      rfl
    | null | bool _ | integer _ | decimal _ => simp [ofSetting?] at hread

end Reading

/-! ## Writes -/

/-- A group that is read from settings under writes is what the writes make of the group below. -/
theorem overlaid_of_lay {below : Entries Setting} {writes : Writes}
    {base result : Entries Keywords} (hbase : groupOfSettings? below = some base)
    (hresult : groupOfSettings? (writes.lay below) = some result) :
    Overlaid base writes result := by
  have hnames := names_of_groupOfSettings? hbase
  have hget := get?_of_groupOfSettings? hresult
  refine .intro ?names ?kept ?replaced ?isGroup ?merged
  case names => rw [names_of_groupOfSettings? hresult, Writes.names_lay, hnames]
  case kept =>
    intro name hname
    rw [hget, Writes.get?_lay_of_notMem hname, get?_of_groupOfSettings? hbase]
  case replaced =>
    intro name value hlast hvalue
    exact exists_of_get? hresult (Writes.get?_lay_of_under below hlast hvalue)
  case isGroup =>
    intro name inner hname hinner
    have hlaid := Writes.get?_lay_of_inside?_of_mem below hinner hname
    obtain ⟨keywords, hread, hmember⟩ := exists_of_get? hresult hlaid
    rw [ofSetting?] at hread
    obtain ⟨members, _, rfl⟩ := Option.map_eq_some_iff.mp hread
    exact ⟨members, hmember⟩
  case merged =>
    intro name inner members hname hinner hmember
    have hlaid := Writes.get?_lay_of_inside?_of_mem below hinner hname
    obtain ⟨keywords, hread, hsame⟩ := exists_of_get? hresult hlaid
    rw [ofSetting?] at hread
    obtain ⟨read, hinside, rfl⟩ := Option.map_eq_some_iff.mp hread
    obtain rfl : read = members := by
      rw [hmember] at hsame
      exact (Keywords.group.inj (Option.some.inj hsame)).symm
    exact overlaid_of_lay (groupOfSettings?_entriesOf hbase name) hinside
termination_by sizeOf result
decreasing_by
  have hmem := List.sizeOf_lt_of_mem (Entries.mem_of_get? hmember)
  simp only [Prod.mk.sizeOf_spec, group.sizeOf_spec] at hmem
  omega

end Keywords

end LineageSearch
