import LineageSearch.Vocabulary.Registry
import Mathlib.Data.List.Nodup

/-!
# What the indexes of a vocabulary say

Type operators and photo tags are looked up in indexes that list the words of every group,
one group after the other.  Here an index is described by the groups it was drawn up from.

* `Entries.get?_indexOf_eq_some_iff`: a key leads to the first group that has a word of that
  key, and to nothing if there is no such group.
* `Registry.DrawnFrom`: the lists and the index of a registry by its dictionary, which is all
  that later proofs use of `Registry.ofDictionary`.
* `mem_typeSynonyms_iff`: the words of a type operator are those of its one group.
-/

namespace LineageSearch

/-! ## Indexes of groups -/

namespace Entries

variable {α : Type}

/-- The index of groups of words. -/
def indexOf (groups : List (α × List Text)) : Entries α :=
  groups.flatMap fun (value, words) => words.map fun w => (indexKey w, value)

/-- Whether one of the words has a key. -/
def HasKey (key : Text) (words : List Text) : Prop := ∃ w ∈ words, indexKey w = key

instance (key : Text) (words : List Text) : Decidable (HasKey key words) :=
  inferInstanceAs (Decidable (∃ w ∈ words, indexKey w = key))

/-- In front of other entries, the words of one group answer for their own keys only. -/
theorem get?_group_append (key : Text) (value : α) (words : List Text) (rest : Entries α) :
    (HasKey key words → get? key (words.map (fun w => (indexKey w, value)) ++ rest) = some value) ∧
      (¬ HasKey key words →
        get? key (words.map (fun w => (indexKey w, value)) ++ rest) = get? key rest) := by
  induction words with
  | nil => simp [HasKey]
  | cons w words ih =>
    simp only [HasKey, List.exists_mem_cons_iff, List.map_cons, List.cons_append, get?] at ih ⊢
    by_cases hw : indexKey w = key
    · simp [hw]
    · simpa [hw] using ih

/-- An index asks group after group for a word of the key. -/
theorem get?_indexOf (groups : List (α × List Text)) (key : Text) :
    get? key (indexOf groups) =
      (groups.find? fun group => decide (HasKey key group.2)).map Prod.fst := by
  induction groups with
  | nil => rfl
  | cons group rest ih =>
    have hstep : indexOf (group :: rest) =
        group.2.map (fun w => (indexKey w, group.1)) ++ indexOf rest := List.flatMap_cons
    obtain ⟨hhere, hbehind⟩ := get?_group_append key group.1 group.2 (indexOf rest)
    rw [hstep]
    by_cases hkey : HasKey key group.2
    · rw [hhere hkey, List.find?_cons, decide_eq_true hkey, Option.map_some]
    · rw [hbehind hkey, List.find?_cons, decide_eq_false hkey, ih]

/-- **An index leads to the first group that has a word of the key.** -/
theorem get?_indexOf_eq_some_iff {groups : List (α × List Text)} {key : Text} {value : α} :
    get? key (indexOf groups) = some value ↔
      ∃ before words after, groups = before ++ (value, words) :: after ∧
        (∀ earlier ∈ before, ¬ HasKey key earlier.2) ∧ HasKey key words := by
  simp only [get?_indexOf, Option.map_eq_some_iff, List.find?_eq_some_iff_append,
    decide_eq_true_eq, Bool.not_eq_true', decide_eq_false_iff_not]
  constructor
  · rintro ⟨⟨_, words⟩, ⟨hkey, before, after, hsplit, hbefore⟩, rfl⟩
    exact ⟨before, words, after, hsplit, hbefore, hkey⟩
  · rintro ⟨before, words, after, hsplit, hbefore, hkey⟩
    exact ⟨(value, words), ⟨hkey, before, after, hsplit, hbefore⟩, rfl⟩

theorem get?_indexOf_eq_none_iff {groups : List (α × List Text)} {key : Text} :
    get? key (indexOf groups) = none ↔ ∀ group ∈ groups, ¬ HasKey key group.2 := by
  simp only [get?_indexOf, Option.map_eq_none_iff, List.find?_eq_none, decide_eq_true_eq]

end Entries

/-! ## The words of a vocabulary -/

namespace Vocabulary

variable {vocabulary : Vocabulary}

theorem mem_words_iff {w : Text} :
    w ∈ vocabulary.words ↔ ∃ group ∈ vocabulary.groups, w ∈ group.2 := by
  rw [words_eq_flatMap_groups, List.mem_flatMap]

theorem map_fst_groups (vocabulary : Vocabulary) :
    vocabulary.groups.map Prod.fst = vocabulary.entries.names := by
  simp [groups, Entries.names]

theorem nodup_names_groups (vocabulary : Vocabulary) :
    (vocabulary.groups.map Prod.fst).Nodup := by
  rw [map_fst_groups]
  exact vocabulary.nodup

theorem mem_groups_of_get? {name : Text} {keywords : Keywords}
    (h : vocabulary.get? name = some keywords) :
    (name, keywords.flatten) ∈ vocabulary.groups := by
  have hentries : ∀ entries : Entries Keywords, entries.get? name = some keywords →
      (name, keywords) ∈ entries := by
    intro entries
    induction entries with
    | nil => simp [Entries.get?]
    | cons entry rest ih =>
      intro hget
      rw [Entries.get?] at hget
      split at hget
      · next hname =>
        obtain rfl := Option.some_inj.mp hget
        exact hname ▸ List.mem_cons_self ..
      · exact List.mem_cons_of_mem _ (ih hget)
  exact List.mem_map.mpr ⟨(name, keywords), hentries _ h, rfl⟩

end Vocabulary

/-! ## The registry of a dictionary -/

/-- The words that may stand alone are words of type operators. -/
theorem Dictionary.mem_types_of_mem_zeroaryWords {dictionary : Dictionary} {w : Text}
    (h : w ∈ dictionary.zeroaryWords) : w ∈ dictionary.types.words := by
  obtain ⟨kind, -, hw⟩ := List.mem_flatMap.mp h
  cases hget : dictionary.types.get? kind.name with
  | none => simp [hget] at hw
  | some keywords =>
    rw [hget] at hw
    exact Vocabulary.mem_words_iff.mpr ⟨_, Vocabulary.mem_groups_of_get? hget, hw⟩

/-- The groups of the type operators are those of the dictionary, under the names of the
operators. -/
theorem Dictionary.groups_of_typeGroups {dictionary : Dictionary}
    {groups : List (TypeOperator × List Text)} (h : dictionary.typeGroups = .ok groups) :
    dictionary.types.groups = groups.map fun (kind, words) => (kind.name, words) := by
  unfold typeGroups at h
  generalize dictionary.types.groups = declared at h
  induction declared generalizing groups with
  | nil =>
    rw [List.mapM_nil] at h
    obtain rfl := Except.ok.inj h
    rfl
  | cons group rest ih =>
    obtain ⟨name, words⟩ := group
    rw [List.mapM_cons] at h
    cases hkind : TypeOperator.ofName? name with
    | none => simp [hkind, bind, Except.bind] at h
    | some kind =>
      simp only [hkind, bind, Except.bind] at h
      split at h
      · simp at h
      · next others hothers =>
        obtain rfl := Except.ok.inj h
        obtain rfl := TypeOperator.name_of_ofName? hkind
        rw [List.map_cons, ih hothers]

/-- How a registry comes from its dictionary. -/
structure Registry.DrawnFrom (registry : Registry) (dictionary : Dictionary) : Prop where
  groups : dictionary.types.groups =
    registry.typeSynonyms.map fun (kind, words) => (kind.name, words)
  types : registry.types = dictionary.types.words
  zeroary : registry.zeroary = dictionary.zeroaryWords
  typeIndex : registry.typeIndex = Entries.indexOf registry.typeSynonyms

namespace Registry

variable {registry : Registry} {dictionary : Dictionary} {strict : Bool}

theorem drawnFrom_of_ofDictionary (h : ofDictionary dictionary strict = .ok registry) :
    registry.DrawnFrom dictionary := by
  unfold ofDictionary at h
  split at h
  · simp at h
  · cases hgroups : dictionary.typeGroups with
    | error reason => simp [hgroups, bind, Except.bind] at h
    | ok groups =>
      simp only [hgroups, bind, Except.bind, pure, Except.pure, Except.ok.injEq] at h
      subst h
      exact ⟨Dictionary.groups_of_typeGroups hgroups, rfl, rfl, rfl⟩

namespace DrawnFrom

theorem mem_types_iff (hdrawn : registry.DrawnFrom dictionary) {w : Text} :
    w ∈ registry.types ↔ ∃ group ∈ registry.typeSynonyms, w ∈ group.2 := by
  rw [hdrawn.types, Vocabulary.mem_words_iff, hdrawn.groups]
  constructor
  · rintro ⟨_, hgroup, hw⟩
    obtain ⟨group, hmem, rfl⟩ := List.mem_map.mp hgroup
    exact ⟨group, hmem, hw⟩
  · rintro ⟨group, hmem, hw⟩
    exact ⟨_, List.mem_map_of_mem hmem, hw⟩

theorem mem_types_of_mem_zeroary (hdrawn : registry.DrawnFrom dictionary) {w : Text}
    (h : w ∈ registry.zeroary) : w ∈ registry.types := by
  rw [hdrawn.types]
  exact Dictionary.mem_types_of_mem_zeroaryWords (hdrawn.zeroary ▸ h)

/-- A word names the type operator of the first group that has it. -/
theorem typeOperator?_eq (hdrawn : registry.DrawnFrom dictionary) (word : Text) :
    registry.typeOperator? word =
      (dictionary.types.groups.find? fun group =>
        decide (Entries.HasKey (indexKey word) group.2)).bind fun group =>
          TypeOperator.ofName? group.1 := by
  rw [typeOperator?, hdrawn.typeIndex, Entries.get?_indexOf, hdrawn.groups, List.find?_map,
    Option.bind_map, Option.map_eq_bind]
  simp only [Function.comp_def, TypeOperator.ofName?_name]

theorem nodup_kinds (hdrawn : registry.DrawnFrom dictionary) :
    (registry.typeSynonyms.map Prod.fst).Nodup := by
  have hnames := dictionary.types.nodup_names_groups
  rw [hdrawn.groups, List.map_map] at hnames
  refine List.Nodup.of_map TypeOperator.name ?_
  rw [List.map_map]
  exact hnames

theorem synonyms_eq (hdrawn : registry.DrawnFrom dictionary) {kind : TypeOperator}
    {words : List Text} (h : (kind, words) ∈ registry.typeSynonyms) :
    registry.synonyms kind = words := by
  have hlookup : ∀ groups : List (TypeOperator × List Text), (groups.map Prod.fst).Nodup →
      (kind, words) ∈ groups → groups.lookup kind = some words := by
    intro groups
    induction groups with
    | nil => simp
    | cons group rest ih =>
      intro hnodup hmem
      rw [List.map_cons, List.nodup_cons] at hnodup
      rcases List.mem_cons.mp hmem with rfl | hmem
      · simp
      · have hne : kind ≠ group.1 := by
          rintro rfl
          exact hnodup.1 (List.mem_map.mpr ⟨_, hmem, rfl⟩)
        rw [List.lookup_cons, beq_eq_false_iff_ne.mpr hne]
        exact ih hnodup.2 hmem
  rw [synonyms, hlookup _ hdrawn.nodup_kinds h, Option.getD_some]

end DrawnFrom

end Registry

end LineageSearch
