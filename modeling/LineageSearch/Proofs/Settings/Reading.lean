import LineageSearch.Proofs.Settings.Overlaid
import LineageSearch.Settings.Basic

/-!
# Settings read from a table

What settings are read from, field by field (`Settings.ReadFrom`), and where their groups of
keywords stand (`Settings.GroupTable`):

| groups                       | path                    |
|------------------------------|-------------------------|
| the tags                     | `tags`                  |
| the operators of a category  | `operators.`*category*  |

Groups are read from the table at their place (`ReadFrom.members_of_tableAt?`), and nothing but a
table can be read there; only operators may be listed as well (`ReadFrom.exists_entries`).
-/

namespace LineageSearch

namespace Settings

/-! ## Reading tables -/

/-- The path that a setting denotes, if it denotes one. -/
def path? : Setting → Option (Option Text)
  | .null => some none
  | value => value.scalarText?.map some

/-- The tables of groups that settings hold: the tags, and the operators of each category. -/
inductive GroupTable where
  | tags
  | types
  | subtype
  | glob
  | logical
  | family

namespace GroupTable

/-- The name at the top of a layer under which a table stands. -/
def root : GroupTable → Text
  | tags => "tags".toList
  | _ => "operators".toList

/-- The names that lead from there to the table. -/
def branch : GroupTable → List Text
  | tags => []
  | types => ["type".toList]
  | subtype => ["subtype".toList]
  | glob => ["glob".toList]
  | logical => ["logical".toList]
  | family => ["family".toList]

/-- The names that lead to a table in a layer. -/
def path (table : GroupTable) : List Text := table.root :: table.branch

def groups (settings : Settings) : GroupTable → Vocabulary
  | tags => settings.tags
  | types => settings.operators.types
  | subtype => settings.operators.subtype
  | glob => settings.operators.glob
  | logical => settings.operators.logical
  | family => settings.operators.family

end GroupTable

/-- What is read from a table, field by field; a name that is missing has a default. -/
structure ReadFrom (entries : Entries Setting) (settings : Settings) : Prop where
  language : (entries.get? "language".toList).elim (some .en) Setting.language? =
    some settings.language
  strictKeywords : (entries.get? "strict_keywords".toList).elim (some false) Setting.truth? =
    some settings.strictKeywords
  graph : (entries.get? "graph".toList).elim (some none) path? = some settings.graph
  operators : (entries.get? "operators".toList).elim (some {}) Dictionary.ofSetting? =
    some settings.operators
  tags : (entries.get? "tags".toList).elim (some .empty) Vocabulary.ofSetting? =
    some settings.tags

theorem readFrom_of_ofTable? {entries : Entries Setting} {settings : Settings}
    (h : ofTable? entries = some settings) : ReadFrom entries settings := by
  obtain ⟨language, hlanguage, h⟩ := Option.bind_eq_some_iff.mp h
  obtain ⟨strict, hstrict, h⟩ := Option.bind_eq_some_iff.mp h
  obtain ⟨graph, hgraph, h⟩ := Option.bind_eq_some_iff.mp h
  obtain ⟨operators, hoperators, h⟩ := Option.bind_eq_some_iff.mp h
  obtain ⟨tags, htags, h⟩ := Option.bind_eq_some_iff.mp h
  obtain rfl := Option.some.inj h
  refine ⟨Eq.trans ?_ hlanguage, Eq.trans ?_ hstrict, Eq.trans ?_ hgraph, Eq.trans ?_ hoperators,
    Eq.trans ?_ htags⟩
  · beta_reduce
    cases entries.get? "language".toList <;> rfl
  · beta_reduce
    cases entries.get? "strict_keywords".toList <;> rfl
  · beta_reduce
    cases entries.get? "graph".toList <;> rfl
  · beta_reduce
    cases entries.get? "operators".toList <;> rfl
  · beta_reduce
    cases entries.get? "tags".toList <;> rfl

/-- A category is read from its entry in the table of a dictionary. -/
theorem groups_of_dictionary {entries : Entries Setting} {dictionary : Dictionary}
    (h : Dictionary.ofSetting? (.table entries) = some dictionary) (name : Text)
    (vocabulary : Vocabulary) (hmem : (name, vocabulary) ∈ dictionary.categories) :
    (entries.get? name).elim (some .empty) Vocabulary.ofSetting? = some vocabulary := by
  simp only [Dictionary.ofSetting?, Option.bind_eq_bind, Option.bind_some] at h
  obtain ⟨types, htypes, h⟩ := Option.bind_eq_some_iff.mp h
  obtain ⟨subtype, hsubtype, h⟩ := Option.bind_eq_some_iff.mp h
  obtain ⟨glob, hglob, h⟩ := Option.bind_eq_some_iff.mp h
  obtain ⟨logical, hlogical, h⟩ := Option.bind_eq_some_iff.mp h
  obtain ⟨family, hfamily, h⟩ := Option.bind_eq_some_iff.mp h
  obtain rfl := Option.some.inj h
  simp only [Dictionary.categories, List.mem_cons, List.not_mem_nil, or_false,
    Prod.mk.injEq] at hmem
  rcases hmem with ⟨rfl, rfl⟩ | ⟨rfl, rfl⟩ | ⟨rfl, rfl⟩ | ⟨rfl, rfl⟩ | ⟨rfl, rfl⟩
  · refine Eq.trans ?_ htypes
    cases entries.get? "type".toList <;> rfl
  · refine Eq.trans ?_ hsubtype
    cases entries.get? "subtype".toList <;> rfl
  · refine Eq.trans ?_ hglob
    cases entries.get? "glob".toList <;> rfl
  · refine Eq.trans ?_ hlogical
    cases entries.get? "logical".toList <;> rfl
  · refine Eq.trans ?_ hfamily
    cases entries.get? "family".toList <;> rfl

theorem GroupTable.eq_tags_or_category (table : GroupTable) (settings : Settings) :
    table = .tags ∨ ∃ name, table.path = ["operators".toList, name] ∧
      (name, table.groups settings) ∈ settings.operators.categories := by
  cases table with
  | tags => exact Or.inl rfl
  | types | subtype | glob | logical | family =>
    exact Or.inr ⟨_, rfl, by simp [Dictionary.categories, GroupTable.groups]⟩

section Reading

variable {entries inner : Entries Setting} {settings : Settings} {value : Setting}

theorem members_of_ofSetting? {vocabulary : Vocabulary}
    (h : Vocabulary.ofSetting? (.table entries) = some vocabulary) :
    ∃ members, Keywords.groupOfSettings? entries = some members ∧
      vocabulary = Vocabulary.ofList members := by
  obtain ⟨members, hmembers, rfl⟩ := Option.map_eq_some_iff.mp h
  exact ⟨members, hmembers, rfl⟩

/-- Groups are read from the table that stands at their place. -/
theorem ReadFrom.members_of_tableAt? (h : ReadFrom entries settings) (table : GroupTable)
    (htable : Setting.tableAt? table.path entries = some inner) :
    ∃ members, Keywords.groupOfSettings? inner = some members ∧
      table.groups settings = Vocabulary.ofList members := by
  rcases table.eq_tags_or_category settings with rfl | ⟨name, hpath, hmem⟩
  · change Setting.tableAt? ["tags".toList] entries = some inner at htable
    obtain ⟨inner', hget, htable⟩ := Setting.get?_of_tableAt?_cons htable
    obtain rfl := Option.some.inj htable
    have htags := h.tags
    rw [hget] at htags
    exact members_of_ofSetting? htags
  · rw [hpath] at htable
    obtain ⟨categories, hget, htable⟩ := Setting.get?_of_tableAt?_cons htable
    obtain ⟨inner', hcategory, htable⟩ := Setting.get?_of_tableAt?_cons htable
    obtain rfl := Option.some.inj htable
    have hoperators := h.operators
    rw [hget] at hoperators
    have hread := groups_of_dictionary hoperators name _ hmem
    rw [hcategory] at hread
    exact members_of_ofSetting? hread

/-- Tags are given as a table, and so are operators, unless they are listed. -/
theorem ReadFrom.exists_entries (h : ReadFrom entries settings) (table : GroupTable)
    (hget : entries.get? table.root = some value) (hlist : ∀ items, value ≠ .list items) :
    ∃ inner, value = .table inner := by
  have hread : (Vocabulary.ofSetting? value).isSome ∨ (Dictionary.ofSetting? value).isSome := by
    cases table with
    | tags =>
      have htags := h.tags
      rw [show entries.get? "tags".toList = some value from hget] at htags
      exact Or.inl (Option.isSome_of_eq_some htags)
    | types | subtype | glob | logical | family =>
      have hoperators := h.operators
      rw [show entries.get? "operators".toList = some value from hget] at hoperators
      exact Or.inr (Option.isSome_of_eq_some hoperators)
  cases value with
  | table inner => exact ⟨inner, rfl⟩
  | list items => exact absurd rfl (hlist items)
  | null | bool _ | integer _ | decimal _ | text _ =>
    simp [Vocabulary.ofSetting?, Dictionary.ofSetting?] at hread

end Reading

end Settings

end LineageSearch
