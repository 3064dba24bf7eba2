import LineageSearch.Proofs.Listing
import LineageSearch.Proofs.Query.Matches
import LineageSearch.Proofs.Vocabulary.Indexes
import LineageSearch.Vocabulary.Document

/-!
# The ambiguities of a dictionary

The operators of a dictionary are compared two by two, and their keys two by two.  Four loops visit

```text
an operator   in declared order
another one   in declared order, but for the operator itself and the ones related to it
a key         of the first, where it first appears among the words, and never a blank one
another key   of the second in the same way, if the first key occurs in it
```

and an ambiguity is reported for each visit (`Dictionary.IsAmbiguity`), in the order of the visits
(`Dictionary.placeOf`).

A report does not hold operators but their labels.  The category in front of the first point of a
label is one of five and has no point itself, and a category declares a name once.  So a label
stands for one operator (`nodup_labels`), whatever points there are in its name.

A strict registry is refused for the ambiguities before anything else is looked at, and where there
are none strictness makes no difference (`ambiguities_decide_strictness`).
-/

namespace LineageSearch

/-! ## Operators and their keys -/

namespace OperatorGroup

variable {group other : OperatorGroup} {key : Text}

/-- Whether neither name begins with the other, whatever the case. -/
def Unrelated (group other : OperatorGroup) : Prop :=
  ¬ Text.lower group.name <+: Text.lower other.name ∧
    ¬ Text.lower other.name <+: Text.lower group.name

theorem related_eq_false_iff : group.related other = false ↔ group.Unrelated other := by
  rw [related, Bool.or_eq_false_iff, Unrelated, and_comm]
  simp only [← Bool.not_eq_true, List.isPrefixOf_iff_prefix]

/-- Whether a text is the key of one of an operator's words.  A blank word has none. -/
def HasKey (group : OperatorGroup) (key : Text) : Prop :=
  key ≠ [] ∧ Entries.HasKey key group.words

theorem mem_keys_iff : key ∈ group.keys ↔ group.HasKey key := by
  simp [keys, HasKey, Entries.HasKey, and_comm]

/-- Keys come in the order in which they first appear among the words. -/
theorem keys_ascending (group : OperatorGroup) :
    group.keys.Pairwise fun a b =>
      (group.words.map indexKey).idxOf a < (group.words.map indexKey).idxOf b := by
  unfold keys
  rw [firstSeen_filter]
  exact (pairwise_idxOf_firstSeen (group.words.map indexKey)).filter _

end OperatorGroup

namespace Dictionary

variable {dictionary : Dictionary} {group other : OperatorGroup}

/-! ## Labels -/

/-- The labels of the operators in declared order. -/
def labels (dictionary : Dictionary) : List Text := dictionary.groups.map OperatorGroup.label

theorem labels_eq (dictionary : Dictionary) :
    dictionary.labels = dictionary.categories.flatMap fun declared =>
      (declared.2.groups.map Prod.fst).map fun name => declared.1 ++ '.' :: name := by
  unfold labels groups
  rw [List.map_flatMap]
  simp only [List.map_map]
  rfl

/-- A category ends at the first point of a label. -/
theorem takeWhile_label {category : Text} (h : '.' ∉ category) (name : Text) :
    (category ++ '.' :: name).takeWhile (· ≠ '.') = category := by
  have hpoints : ∀ c ∈ category, decide (c ≠ '.') = true := by
    intro c hc
    exact decide_eq_true (ne_of_mem_of_not_mem hc h)
  rw [List.takeWhile_append_of_pos hpoints]
  simp

theorem map_fst_categories (dictionary : Dictionary) :
    dictionary.categories.map Prod.fst = form := rfl

theorem point_notMem_category {declared : Text × Vocabulary}
    (h : declared ∈ dictionary.categories) : '.' ∉ declared.1 := by
  have hpoints : ∀ category ∈ form, '.' ∉ category := by decide
  apply hpoints
  rw [← map_fst_categories dictionary]
  exact List.mem_map_of_mem h

/-- **A label stands for one operator.** -/
theorem nodup_labels (dictionary : Dictionary) : dictionary.labels.Nodup := by
  have hcategories : (dictionary.categories.map Prod.fst).Nodup := by
    rw [map_fst_categories]
    decide
  rw [labels_eq, List.nodup_flatMap]
  constructor
  · intro declared _
    refine declared.2.nodup_names_groups.map fun name other hsame => ?_
    exact (List.cons.inj (List.append_cancel_left hsame)).2
  · refine (List.pairwise_map.mp hcategories).imp_of_mem fun {a b} ha hb hne => ?_
    intro label hlabel hother
    obtain ⟨name, -, rfl⟩ := List.mem_map.mp hlabel
    obtain ⟨other, -, hsame⟩ := List.mem_map.mp hother
    apply hne
    calc a.1 = (a.1 ++ '.' :: name).takeWhile (· ≠ '.') :=
          (takeWhile_label (point_notMem_category ha) name).symm
      _ = (b.1 ++ '.' :: other).takeWhile (· ≠ '.') := by rw [hsame]
      _ = b.1 := takeWhile_label (point_notMem_category hb) other

/-- Operators come in the order of their labels. -/
theorem groups_ascending (dictionary : Dictionary) :
    dictionary.groups.Pairwise fun group other =>
      dictionary.labels.idxOf group.label < dictionary.labels.idxOf other.label := by
  have hlabels : dictionary.labels.Pairwise fun a b =>
      dictionary.labels.idxOf a < dictionary.labels.idxOf b :=
    pairwise_idxOf_of_nodup dictionary.nodup_labels
  rw [labels, List.pairwise_map] at hlabels
  exact hlabels

theorem eq_of_label_eq (h : group ∈ dictionary.groups) (hother : other ∈ dictionary.groups)
    (hlabel : group.label = other.label) : group = other :=
  List.inj_on_of_nodup_map dictionary.nodup_labels h hother hlabel

/-- The keys of the words under a label, in declared order and with their repeats. -/
def keysUnder (dictionary : Dictionary) (label : Text) : List Text :=
  match dictionary.groups.find? (·.label == label) with
  | some group => group.words.map indexKey
  | none => []

theorem keysUnder_label (h : group ∈ dictionary.groups) :
    dictionary.keysUnder group.label = group.words.map indexKey := by
  unfold keysUnder
  cases hfound : dictionary.groups.find? (·.label == group.label) with
  | none =>
    have hnone := List.find?_eq_none.mp hfound group h
    exact absurd (beq_self_eq_true _) hnone
  | some found =>
    have hlabel : found.label = group.label := by simpa using List.find?_some hfound
    rw [eq_of_label_eq (List.mem_of_find?_eq_some hfound) h hlabel]

/-! ## The ambiguities between two operators -/

/-- Whether a key of one operator occurs in a key of an unrelated one. -/
structure Confuses (group other : OperatorGroup) (synonym otherSynonym : Text) : Prop where
  different : group ≠ other
  unrelated : group.Unrelated other
  key : group.HasKey synonym
  otherKey : other.HasKey otherSynonym
  occurs : synonym <:+: otherSynonym

/-- Where an ambiguity stands in the report: by its first operator, then by the other one, then by
the two keys, each where it first appears among the words of its operator. -/
def placeOf (dictionary : Dictionary) (ambiguity : Ambiguity) : List Nat :=
  [dictionary.labels.idxOf ambiguity.group,
    dictionary.labels.idxOf ambiguity.otherGroup,
    (dictionary.keysUnder ambiguity.group).idxOf ambiguity.synonym,
    (dictionary.keysUnder ambiguity.otherGroup).idxOf ambiguity.otherSynonym]

theorem skipped_eq_false_iff (h : group ∈ dictionary.groups)
    (hother : other ∈ dictionary.groups) :
    (group.label == other.label || group.related other) = false ↔
      group ≠ other ∧ group.Unrelated other := by
  rw [Bool.or_eq_false_iff, OperatorGroup.related_eq_false_iff, beq_eq_false_iff_ne]
  refine and_congr_left fun _ => not_congr ⟨?_, ?_⟩
  · exact eq_of_label_eq h hother
  · exact congrArg OperatorGroup.label

theorem mem_ambiguitiesBetween_iff (h : group ∈ dictionary.groups)
    (hother : other ∈ dictionary.groups) {ambiguity : Ambiguity} :
    ambiguity ∈ ambiguitiesBetween group other ↔
      ∃ synonym otherSynonym, Confuses group other synonym otherSynonym ∧
        ambiguity = ⟨group.label, synonym, other.label, otherSynonym⟩ := by
  have hskipped := skipped_eq_false_iff h hother
  unfold ambiguitiesBetween
  split
  · next hskip =>
    rw [hskip, Bool.true_eq_false, false_iff] at hskipped
    constructor
    · intro hmem
      exact absurd hmem List.not_mem_nil
    · rintro ⟨synonym, otherSynonym, hconfuses, -⟩
      exact absurd ⟨hconfuses.different, hconfuses.unrelated⟩ hskipped
  · next hskip =>
    obtain ⟨hne, hunrelated⟩ := hskipped.mp (Bool.eq_false_of_not_eq_true hskip)
    simp only [List.mem_flatMap, List.mem_map, List.mem_filter, OperatorGroup.mem_keys_iff,
      Text.occursIn_iff_isInfix]
    constructor
    · rintro ⟨synonym, hkey, otherSynonym, ⟨hotherKey, hoccurs⟩, rfl⟩
      exact ⟨synonym, otherSynonym, ⟨hne, hunrelated, hkey, hotherKey, hoccurs⟩, rfl⟩
    · rintro ⟨synonym, otherSynonym, hconfuses, rfl⟩
      exact ⟨synonym, hconfuses.key, otherSynonym, ⟨hconfuses.otherKey, hconfuses.occurs⟩, rfl⟩

/-- Between two operators ambiguities come in the order of the keys. -/
theorem ambiguitiesBetween_ascending (h : group ∈ dictionary.groups)
    (hother : other ∈ dictionary.groups) :
    (ambiguitiesBetween group other).Pairwise fun a b =>
      (dictionary.placeOf a).drop 2 < (dictionary.placeOf b).drop 2 := by
  unfold ambiguitiesBetween
  split
  · exact List.Pairwise.nil
  refine pairwise_flatMap_place (fun ambiguity => (dictionary.placeOf ambiguity).drop 3)
    group.keys_ascending ?_ ?_
  · intro synonym _ ambiguity hambiguity
    obtain ⟨otherSynonym, -, rfl⟩ := List.mem_map.mp hambiguity
    rw [← keysUnder_label h]
    rfl
  · intro synonym _
    rw [List.pairwise_map]
    refine (other.keys_ascending.filter _).imp fun {a b} hlt => ?_
    simp only [placeOf, keysUnder_label hother, List.drop_succ_cons, List.drop_zero]
    exact List.cons_lt_cons_iff.mpr (Or.inl hlt)

/-! ## The report -/

/-- Whether an ambiguity is one between operators of the dictionary. -/
def IsAmbiguity (dictionary : Dictionary) (ambiguity : Ambiguity) : Prop :=
  ∃ group ∈ dictionary.groups, ∃ other ∈ dictionary.groups, ∃ synonym otherSynonym,
    Confuses group other synonym otherSynonym ∧
      ambiguity = ⟨group.label, synonym, other.label, otherSynonym⟩

theorem ambiguities_ascending (dictionary : Dictionary) :
    dictionary.ambiguities.Pairwise fun a b => dictionary.placeOf a < dictionary.placeOf b := by
  refine pairwise_flatMap_place (fun ambiguity => (dictionary.placeOf ambiguity).drop 1)
    dictionary.groups_ascending ?_ ?_
  · intro group hgroup ambiguity hambiguity
    obtain ⟨other, hother, hbetween⟩ := List.mem_flatMap.mp hambiguity
    obtain ⟨synonym, otherSynonym, -, rfl⟩ := (mem_ambiguitiesBetween_iff hgroup hother).mp hbetween
    rfl
  · intro group hgroup
    refine pairwise_flatMap_place (fun ambiguity => (dictionary.placeOf ambiguity).drop 2)
      dictionary.groups_ascending ?_ ?_
    · intro other hother ambiguity hbetween
      obtain ⟨synonym, otherSynonym, -, rfl⟩ :=
        (mem_ambiguitiesBetween_iff hgroup hother).mp hbetween
      rfl
    · intro other hother
      exact ambiguitiesBetween_ascending hgroup hother

/-- **The report is sound, complete and in order.** -/
theorem listsBy_ambiguities (dictionary : Dictionary) :
    ListsBy dictionary.placeOf dictionary.IsAmbiguity dictionary.ambiguities := by
  refine ⟨dictionary.ambiguities_ascending, fun ambiguity => ?_⟩
  unfold ambiguities IsAmbiguity
  simp only [List.mem_flatMap]
  constructor
  · rintro ⟨group, hgroup, other, hother, hbetween⟩
    exact ⟨group, hgroup, other, hother, (mem_ambiguitiesBetween_iff hgroup hother).mp hbetween⟩
  · rintro ⟨group, hgroup, other, hother, hconfuses⟩
    exact ⟨group, hgroup, other, hother, (mem_ambiguitiesBetween_iff hgroup hother).mpr hconfuses⟩

/-! ## Strict registries -/

/-- The first name under the type operators that is the name of none. -/
def unknownType? (dictionary : Dictionary) : Option Text :=
  dictionary.types.names.find? fun name => (TypeOperator.ofName? name).isNone

/-- Type operators are refused for the first unknown name. -/
theorem typeGroups_eq_error_iff {reason : RegistryError} :
    dictionary.typeGroups = .error reason ↔
      ∃ name, dictionary.unknownType? = some name ∧ reason = .unknownType name := by
  have hnames : dictionary.types.names = dictionary.types.groups.map Prod.fst :=
    dictionary.types.map_fst_groups.symm
  unfold typeGroups unknownType?
  rw [hnames]
  generalize dictionary.types.groups = declared
  induction declared with
  | nil => simp [pure, Except.pure]
  | cons group rest ih =>
    rw [List.mapM_cons, List.map_cons, List.find?_cons]
    cases hkind : TypeOperator.ofName? group.1 with
    | none => simp [hkind, bind, Except.bind, eq_comm]
    | some kind =>
      -- the name is known, so the other ones decide
      simp only [hkind, Option.isNone_some, bind, Except.bind]
      refine Iff.trans ?_ ih
      split <;> simp_all [pure, Except.pure]

end Dictionary

namespace Registry

variable {dictionary : Dictionary}

/-- A registry that is not strict is refused for an unknown type operator only. -/
theorem ofDictionary_lenient_eq_error_iff {reason : RegistryError} :
    ofDictionary dictionary false = .error reason ↔
      ∃ name, dictionary.unknownType? = some name ∧ reason = .unknownType name := by
  rw [← Dictionary.typeGroups_eq_error_iff]
  unfold ofDictionary
  rw [Bool.false_and, if_neg Bool.false_ne_true]
  cases dictionary.typeGroups <;> simp [bind, Except.bind, pure, Except.pure]

/-- Without ambiguities strictness makes no difference. -/
theorem ofDictionary_strict_of_unambiguous (h : dictionary.ambiguities = []) :
    ofDictionary dictionary true = ofDictionary dictionary false := by
  unfold ofDictionary
  rw [h]
  rfl

/-- Ambiguities come before all other reasons to refuse a dictionary. -/
theorem ofDictionary_strict_of_ambiguous (h : dictionary.ambiguities ≠ []) :
    ofDictionary dictionary true = .error (.ambiguous dictionary.ambiguities) := by
  unfold ofDictionary
  rw [if_pos]
  simpa using h

theorem ofDictionary_strict_eq_ambiguous_iff {found : List Ambiguity} :
    ofDictionary dictionary true = .error (.ambiguous found) ↔
      found = dictionary.ambiguities ∧ found ≠ [] := by
  by_cases hnone : dictionary.ambiguities = []
  · rw [ofDictionary_strict_of_unambiguous hnone]
    constructor
    · intro h
      obtain ⟨name, -, hreason⟩ := ofDictionary_lenient_eq_error_iff.mp h
      cases hreason
    · intro h
      exact absurd (h.1.trans hnone) h.2
  · rw [ofDictionary_strict_of_ambiguous hnone, Except.error.injEq, RegistryError.ambiguous.injEq]
    constructor
    · intro h
      exact ⟨h.symm, h ▸ hnone⟩
    · intro h
      exact h.1.symm

end Registry

namespace Dictionary

/-- **The report of ambiguities is sound, complete and in order, and it decides strictness.**  A
strict registry is refused with the reported ambiguities exactly if there are any, also where a type
operator is unknown.  Else it is the one that is not strict, or it is refused as that one is: for
the first type operator of unknown name. -/
theorem ambiguities_decide_strictness (dictionary : Dictionary) :
    dictionary.labels.Nodup ∧
    dictionary.ambiguities.Nodup ∧
    (∀ found, found = dictionary.ambiguities ↔
      ListsBy dictionary.placeOf dictionary.IsAmbiguity found) ∧
    (∀ found, Registry.ofDictionary dictionary true = .error (.ambiguous found) ↔
      found = dictionary.ambiguities ∧ found ≠ []) ∧
    (∀ reason, Registry.ofDictionary dictionary true = .error reason →
      dictionary.ambiguities ≠ [] →
      reason.message = "Ambiguous keywords: ".toList ++
        Text.joinWith "; ".toList (dictionary.ambiguities.map Ambiguity.describe)) ∧
    (∀ reason, Registry.ofDictionary dictionary false = .error reason ↔
      ∃ name, dictionary.unknownType? = some name ∧ reason = .unknownType name) ∧
    (dictionary.ambiguities = [] →
      Registry.ofDictionary dictionary true = Registry.ofDictionary dictionary false) := by
  have hlists := dictionary.listsBy_ambiguities
  refine ⟨dictionary.nodup_labels, hlists.nodup, hlists.eq_iff, ?_, ?_, ?_, ?_⟩
  · intro found
    exact Registry.ofDictionary_strict_eq_ambiguous_iff
  · intro reason hreason hsome
    rw [Registry.ofDictionary_strict_of_ambiguous hsome, Except.error.injEq] at hreason
    rw [← hreason]
    rfl
  · intro reason
    exact Registry.ofDictionary_lenient_eq_error_iff
  · exact Registry.ofDictionary_strict_of_unambiguous

/-- Words that repeat and blank ones, a type operator of unknown name, two operators of one name, a
name with a point, and an operator without a name, which is related to all others. -/
theorem ambiguities_decide_strictness_red_panda :
    let words (texts : List String) : Keywords := .ofWords (texts.map String.toList)
    let dictionary : Dictionary :=
      { types := { entries :=
          [("panda".toList, words ["Panda", " ", "panda"]),
            ("bird".toList, words ["Red PANDA ", "red panda", ""])] }
        subtype := { entries := [("panda".toList, words ["all panda"])] }
        logical := { entries :=
          [("red.panda".toList, words ["panda"]), ([], words ["red", "panda"])] } }
    let found : List Ambiguity :=
      [⟨"type.panda".toList, "panda".toList, "type.bird".toList, "red panda".toList⟩,
        ⟨"type.panda".toList, "panda".toList, "logical.red.panda".toList, "panda".toList⟩,
        ⟨"logical.red.panda".toList, "panda".toList, "type.panda".toList, "panda".toList⟩,
        ⟨"logical.red.panda".toList, "panda".toList, "type.bird".toList, "red panda".toList⟩,
        ⟨"logical.red.panda".toList, "panda".toList, "subtype.panda".toList,
          "all panda".toList⟩]
    ListsBy dictionary.placeOf dictionary.IsAmbiguity found ∧
      Registry.ofDictionary dictionary true = .error (.ambiguous found) ∧
      (RegistryError.ambiguous (found.take 1)).message =
        "Ambiguous keywords: 'panda' (type.panda) occurs in 'red panda' (type.bird)".toList ∧
      Registry.ofDictionary dictionary false = .error (.unknownType "bird".toList) ∧
      Registry.ofDictionary { dictionary with logical := .empty, types := .empty } true =
        Registry.ofDictionary { dictionary with logical := .empty, types := .empty } false := by
  intro words dictionary found
  obtain ⟨-, -, hexact, hstrict, -, hlenient, -⟩ := ambiguities_decide_strictness dictionary
  obtain ⟨-, -, -, -, -, -, hsame⟩ :=
    ambiguities_decide_strictness { dictionary with logical := .empty, types := .empty }
  have hfound : found = dictionary.ambiguities := by decide +kernel
  exact ⟨(hexact found).mp hfound, (hstrict found).mpr ⟨hfound, by decide⟩, by decide +kernel,
    (hlenient _).mpr ⟨_, by decide, rfl⟩, hsame (by decide +kernel)⟩

end Dictionary

end LineageSearch
