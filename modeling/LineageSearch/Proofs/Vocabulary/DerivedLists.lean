import LineageSearch.Proofs.NamedEntries
import LineageSearch.Proofs.Vocabulary.Ambiguities

/-!
# The lists and the indexes of a registry

A registry holds lists of words that it draws up from a dictionary by different routes, and it
classifies a word by the indexes of these lists, whatever the case.

```text
list       its words                                   index
types      those of the type operators, as declared    typeOperator?, by the first that has the key
zeroary    births, then deaths, however declared       isZeroary
unary      types, then subtypes, then family           isUnary
binary     logical, then family                        isBinary
```

An index knows words by their keys only, so it finds a word if the list has one of that key
(`Registry.IndexesItsLists`).  Births and deaths are types, and types stand before a subject, so the
indexes agree with one another.

A dictionary that is not refused for its ambiguities is refused for a type operator of unknown name
only, and the first one is named (`ofDictionary_lists_and_indexes`).
-/

namespace LineageSearch

open Entries (HasKey)

theorem Entries.HasKey.mono {key : Text} {words others : List Text} (h : ∀ w ∈ words, w ∈ others)
    (hkey : HasKey key words) : HasKey key others := by
  obtain ⟨w, hw, heq⟩ := hkey
  exact ⟨w, h w hw, heq⟩

/-! ## The words of a type operator -/

theorem TypeOperator.name_injective {a b : TypeOperator} (h : a.name = b.name) : a = b := by
  have hname := TypeOperator.ofName?_name a
  rw [h, TypeOperator.ofName?_name] at hname
  exact (Option.some.inj hname).symm

theorem TypeOperator.ofName?_eq_some_iff {name : Text} {kind : TypeOperator} :
    TypeOperator.ofName? name = some kind ↔ kind.name = name := by
  constructor
  · exact TypeOperator.name_of_ofName?
  · rintro rfl
    exact TypeOperator.ofName?_name kind

theorem TypeOperator.ofName?_eq_none_iff {name : Text} :
    TypeOperator.ofName? name = none ↔ ∀ kind : TypeOperator, kind.name ≠ name := by
  simp only [Option.eq_none_iff_forall_ne_some, ne_eq, TypeOperator.ofName?_eq_some_iff]

/-- A group is that of the value declared under its name. -/
theorem Vocabulary.mem_groups_iff {vocabulary : Vocabulary} {name : Text} {words : List Text} :
    (name, words) ∈ vocabulary.groups ↔
      ∃ keywords, vocabulary.get? name = some keywords ∧ keywords.flatten = words := by
  constructor
  · intro h
    obtain ⟨⟨declared, keywords⟩, hmem, heq⟩ := List.mem_map.mp h
    obtain ⟨rfl, rfl⟩ := Prod.mk.inj heq
    exact ⟨keywords, (Entries.get?_eq_some_iff vocabulary.nodup).mpr hmem, rfl⟩
  · rintro ⟨keywords, hget, rfl⟩
    exact Vocabulary.mem_groups_of_get? hget

namespace Dictionary

variable {dictionary : Dictionary} {kind : TypeOperator}

/-- The words of a type operator; one that is not declared has none. -/
def typeWords (dictionary : Dictionary) (kind : TypeOperator) : List Text :=
  match dictionary.types.get? kind.name with
  | some keywords => keywords.flatten
  | none => []

theorem zeroaryWords_eq (dictionary : Dictionary) :
    dictionary.zeroaryWords = dictionary.typeWords .baby ++ dictionary.typeWords .dead := by
  rw [zeroaryWords, List.flatMap_cons, List.flatMap_singleton]
  rfl

theorem mem_typeWords_iff {w : Text} :
    w ∈ dictionary.typeWords kind ↔
      ∃ words, (kind.name, words) ∈ dictionary.types.groups ∧ w ∈ words := by
  simp only [Vocabulary.mem_groups_iff, typeWords]
  cases dictionary.types.get? kind.name <;> simp

/-- Whether a name is the first under the type operators that is the name of none. -/
def IsFirstUnknown (dictionary : Dictionary) (name : Text) : Prop :=
  ∃ before after, dictionary.types.names = before ++ name :: after ∧
    (∀ earlier ∈ before, ∃ kind : TypeOperator, kind.name = earlier) ∧
    ∀ kind : TypeOperator, kind.name ≠ name

theorem unknownType?_eq_some_iff {name : Text} :
    dictionary.unknownType? = some name ↔ dictionary.IsFirstUnknown name := by
  unfold unknownType? IsFirstUnknown
  simp only [List.find?_eq_some_iff_append, Option.isNone_iff_eq_none,
    TypeOperator.ofName?_eq_none_iff, Bool.not_eq_true', Option.isNone_eq_false_iff,
    Option.isSome_iff_exists, TypeOperator.ofName?_eq_some_iff]
  constructor
  · rintro ⟨hnone, before, after, hsplit, hbefore⟩
    exact ⟨before, after, hsplit, hbefore, hnone⟩
  · rintro ⟨before, after, hsplit, hbefore, hnone⟩
    exact ⟨hnone, before, after, hsplit, hbefore⟩

end Dictionary

/-! ## What a dictionary is made into -/

namespace Registry

variable {registry : Registry} {dictionary : Dictionary} {strict : Bool} {word : Text}

/-- The lists of a registry by the groups of its dictionary. -/
structure ListsWordsOf (registry : Registry) (dictionary : Dictionary) : Prop where
  synonyms : ∀ kind, registry.synonyms kind = dictionary.typeWords kind
  types : registry.types = dictionary.types.groups.flatMap Prod.snd
  zeroary : registry.zeroary = registry.synonyms .baby ++ registry.synonyms .dead
  unary : registry.unary = registry.types ++ dictionary.subtype.groups.flatMap Prod.snd ++
    dictionary.family.groups.flatMap Prod.snd
  binary : registry.binary = dictionary.logical.groups.flatMap Prod.snd ++
    dictionary.family.groups.flatMap Prod.snd

/-- What the indexes of a registry say of a word: the first declared type operator with a word of
its key, and whether each of the other lists has such a word. -/
structure IndexesItsLists (registry : Registry) (dictionary : Dictionary) : Prop where
  typeOperator?_iff : ∀ word kind, registry.typeOperator? word = some kind ↔
    ∃ before words after, dictionary.types.groups = before ++ (kind.name, words) :: after ∧
      (∀ earlier ∈ before, ¬ HasKey (indexKey word) earlier.2) ∧ HasKey (indexKey word) words
  isZeroary_iff : ∀ word, registry.isZeroary word = true ↔ HasKey (indexKey word) registry.zeroary
  isUnary_iff : ∀ word, registry.isUnary word = true ↔ HasKey (indexKey word) registry.unary
  isBinary_iff : ∀ word, registry.isBinary word = true ↔ HasKey (indexKey word) registry.binary

/-- The lists of a registry that `DrawnFrom` leaves out, and the indexes of all but the types. -/
theorem fields_of_ofDictionary (h : ofDictionary dictionary strict = .ok registry) :
    registry.unary =
        dictionary.types.words ++ dictionary.subtype.words ++ dictionary.family.words ∧
      registry.binary = dictionary.logical.words ++ dictionary.family.words ∧
      registry.zeroaryIndex = registry.zeroary.map indexKey ∧
      registry.unaryIndex = registry.unary.map indexKey ∧
      registry.binaryIndex = registry.binary.map indexKey := by
  unfold ofDictionary at h
  split at h
  · simp at h
  · cases hgroups : dictionary.typeGroups with
    | error reason => simp [hgroups, bind, Except.bind] at h
    | ok groups =>
      simp only [hgroups, bind, Except.bind, pure, Except.pure, Except.ok.injEq] at h
      subst h
      exact ⟨rfl, rfl, rfl, rfl, rfl⟩

theorem contains_map_indexKey_iff {words : List Text} :
    (words.map indexKey).contains (indexKey word) = true ↔ HasKey (indexKey word) words := by
  rw [List.contains_iff_mem, List.mem_map]
  rfl

theorem DrawnFrom.synonyms_eq_typeWords (hdrawn : registry.DrawnFrom dictionary)
    (kind : TypeOperator) : registry.synonyms kind = dictionary.typeWords kind := by
  unfold Dictionary.typeWords
  cases hget : dictionary.types.get? kind.name with
  | some keywords =>
    have hmem := Vocabulary.mem_groups_of_get? hget
    rw [hdrawn.groups] at hmem
    obtain ⟨⟨declared, words⟩, hgroup, heq⟩ := List.mem_map.mp hmem
    obtain ⟨hname, hwords⟩ := Prod.mk.inj heq
    obtain rfl := TypeOperator.name_injective hname
    exact (hdrawn.synonyms_eq hgroup).trans hwords
  | none =>
    have hnone : registry.typeSynonyms.lookup kind = none := by
      rw [List.lookup_eq_none_iff]
      intro group hgroup
      rw [bne_iff_ne]
      rintro rfl
      have hmem : (group.1.name, group.2) ∈ dictionary.types.groups := by
        rw [hdrawn.groups]
        exact List.mem_map_of_mem hgroup
      obtain ⟨keywords, hsome, -⟩ := Vocabulary.mem_groups_iff.mp hmem
      rw [hget] at hsome
      cases hsome
    rw [synonyms, hnone]
    rfl

theorem listsWordsOf_of_ofDictionary (h : ofDictionary dictionary strict = .ok registry) :
    registry.ListsWordsOf dictionary := by
  have hdrawn := drawnFrom_of_ofDictionary h
  have hsynonyms := hdrawn.synonyms_eq_typeWords
  obtain ⟨hunary, hbinary, -⟩ := fields_of_ofDictionary h
  simp only [Vocabulary.words_eq_flatMap_groups] at hunary hbinary
  have htypes : registry.types = dictionary.types.groups.flatMap Prod.snd := by
    rw [hdrawn.types, Vocabulary.words_eq_flatMap_groups]
  refine ⟨hsynonyms, htypes, ?_, ?_, hbinary⟩
  · rw [hdrawn.zeroary, Dictionary.zeroaryWords_eq, hsynonyms, hsynonyms]
  · rw [hunary, htypes]

/-- A word names the first type operator that declares a word of its key. -/
theorem DrawnFrom.typeOperator?_eq_some_iff (hdrawn : registry.DrawnFrom dictionary)
    {kind : TypeOperator} :
    registry.typeOperator? word = some kind ↔
      ∃ before words after, dictionary.types.groups = before ++ (kind.name, words) :: after ∧
        (∀ earlier ∈ before, ¬ HasKey (indexKey word) earlier.2) ∧
        HasKey (indexKey word) words := by
  rw [hdrawn.typeOperator?_eq, Option.bind_eq_some_iff]
  simp only [List.find?_eq_some_iff_append, decide_eq_true_eq, Bool.not_eq_true',
    decide_eq_false_iff_not, TypeOperator.ofName?_eq_some_iff]
  constructor
  · rintro ⟨⟨name, words⟩, ⟨hkey, before, after, hsplit, hbefore⟩, rfl⟩
    exact ⟨before, words, after, hsplit, hbefore, hkey⟩
  · rintro ⟨before, words, after, hsplit, hbefore, hkey⟩
    exact ⟨(kind.name, words), ⟨hkey, before, after, hsplit, hbefore⟩, rfl⟩

theorem indexesItsLists_of_ofDictionary (h : ofDictionary dictionary strict = .ok registry) :
    registry.IndexesItsLists dictionary := by
  obtain ⟨-, -, hzeroary, hunary, hbinary⟩ := fields_of_ofDictionary h
  refine ⟨fun word kind => (drawnFrom_of_ofDictionary h).typeOperator?_eq_some_iff, ?_, ?_, ?_⟩
  · intro word
    rw [isZeroary, hzeroary, contains_map_indexKey_iff]
  · intro word
    rw [isUnary, hunary, contains_map_indexKey_iff]
  · intro word
    rw [isBinary, hbinary, contains_map_indexKey_iff]

/-! ## The indexes agree -/

theorem hasKey_types_iff (hlists : registry.ListsWordsOf dictionary) {key : Text} :
    HasKey key registry.types ↔ ∃ group ∈ dictionary.types.groups, HasKey key group.2 := by
  rw [hlists.types]
  constructor
  · rintro ⟨w, hw, heq⟩
    obtain ⟨group, hgroup, hmem⟩ := List.mem_flatMap.mp hw
    exact ⟨group, hgroup, w, hmem, heq⟩
  · rintro ⟨group, hgroup, w, hmem, heq⟩
    exact ⟨w, List.mem_flatMap.mpr ⟨group, hgroup, hmem⟩, heq⟩

/-- A word names some type operator exactly if a type operator declares a word of its key. -/
theorem DrawnFrom.isSome_typeOperator?_iff (hdrawn : registry.DrawnFrom dictionary) :
    (registry.typeOperator? word).isSome = true ↔
      ∃ group ∈ dictionary.types.groups, HasKey (indexKey word) group.2 := by
  rw [typeOperator?, hdrawn.typeIndex, Option.isSome_iff_ne_none, ne_eq,
    Entries.get?_indexOf_eq_none_iff, hdrawn.groups]
  constructor
  · intro hsome
    simp only [not_forall, not_not] at hsome
    obtain ⟨group, hgroup, hkey⟩ := hsome
    exact ⟨_, List.mem_map_of_mem hgroup, hkey⟩
  · rintro ⟨_, hmem, hkey⟩ hnone
    obtain ⟨group, hgroup, rfl⟩ := List.mem_map.mp hmem
    exact hnone group hgroup hkey

/-- **The indexes agree with one another**: births and deaths may stand alone, what may stand alone
is a type, and types stand before a subject. -/
theorem indexes_agree (h : ofDictionary dictionary strict = .ok registry) (word : Text) :
    (registry.typeOperator? word = some .baby ∨ registry.typeOperator? word = some .dead →
      registry.isZeroary word = true) ∧
    (registry.isZeroary word = true → (registry.typeOperator? word).isSome = true) ∧
    ((registry.typeOperator? word).isSome = true → registry.isUnary word = true) := by
  have hdrawn := drawnFrom_of_ofDictionary h
  have hlists := listsWordsOf_of_ofDictionary h
  have hindexes := indexesItsLists_of_ofDictionary h
  have hdeclared : ∀ kind, registry.typeOperator? word = some kind →
      HasKey (indexKey word) (registry.synonyms kind) := by
    intro kind hkind
    obtain ⟨before, words, after, hsplit, -, w, hw, heq⟩ :=
      hdrawn.typeOperator?_eq_some_iff.mp hkind
    refine ⟨w, ?_, heq⟩
    rw [hlists.synonyms, Dictionary.mem_typeWords_iff]
    exact ⟨words, by simp [hsplit], hw⟩
  rw [hindexes.isZeroary_iff, hindexes.isUnary_iff, hdrawn.isSome_typeOperator?_iff,
    ← hasKey_types_iff hlists]
  refine ⟨?_, ?_, ?_⟩
  · rw [hlists.zeroary]
    rintro (hbaby | hdead)
    · exact (hdeclared _ hbaby).mono fun w hw => List.mem_append_left _ hw
    · exact (hdeclared _ hdead).mono fun w hw => List.mem_append_right _ hw
  · intro hkey
    exact hkey.mono fun w hw => hdrawn.mem_types_of_mem_zeroary hw
  · rw [hlists.unary]
    intro hkey
    exact hkey.mono fun w hw => List.mem_append_left _ (List.mem_append_left _ hw)

/-! ## Refused dictionaries -/

/-- Unless there are ambiguities to refuse, strictness plays no part. -/
theorem ofDictionary_eq_lenient (h : strict = true → dictionary.ambiguities = []) :
    ofDictionary dictionary strict = ofDictionary dictionary false := by
  cases strict with
  | false => rfl
  | true => exact ofDictionary_strict_of_unambiguous (h rfl)

/-- **The indexes of a registry agree with its lists, and the lists with the dictionary.**  Without
ambiguities to refuse, a dictionary is refused exactly for the first type operator of unknown
name. -/
theorem ofDictionary_lists_and_indexes (dictionary : Dictionary) (strict : Bool) :
    (∀ registry, ofDictionary dictionary strict = .ok registry →
      registry.ListsWordsOf dictionary ∧ registry.IndexesItsLists dictionary ∧
      ∀ word,
        (registry.typeOperator? word = some .baby ∨ registry.typeOperator? word = some .dead →
          registry.isZeroary word = true) ∧
        (registry.isZeroary word = true → (registry.typeOperator? word).isSome = true) ∧
        ((registry.typeOperator? word).isSome = true → registry.isUnary word = true)) ∧
    ((strict = true → dictionary.ambiguities = []) →
      ∀ reason, ofDictionary dictionary strict = .error reason ↔
        ∃ name, dictionary.IsFirstUnknown name ∧ reason = .unknownType name ∧
          reason.message =
            "Config error: Unknown type operator '".toList ++ name ++ "'".toList) := by
  constructor
  · intro registry h
    exact ⟨listsWordsOf_of_ofDictionary h, indexesItsLists_of_ofDictionary h, indexes_agree h⟩
  · intro hunambiguous reason
    rw [ofDictionary_eq_lenient hunambiguous, ofDictionary_lenient_eq_error_iff]
    simp only [Dictionary.unknownType?_eq_some_iff]
    refine exists_congr fun name => and_congr_right fun _ => ?_
    constructor
    · rintro rfl
      exact ⟨rfl, rfl⟩
    · exact And.left

/-- Deaths are declared before births and places before both, a place has a word of births in
another case, and a word is nested; the second dictionary has two unknown names. -/
theorem ofDictionary_lists_and_indexes_nested :
    let word (text : String) : Keywords := .word text.toList
    let dictionary : Dictionary :=
      { types := { entries :=
          [("zoo".toList, .group [("en".toList, .list [word "Zoo", word " BABY "]),
              ("jp".toList, word "動物園")]),
            ("dead".toList, .list [word "Died", word ""]), ("baby".toList, word "Baby")] }
        family := { entries := [("mom".toList, word "mom")] } }
    let unknown : Dictionary :=
      { types := { entries :=
          [("zoo".toList, word "zoo"), ("kitten".toList, word "cat"),
            ("cub".toList, word "cub")] } }
    (∃ registry, ofDictionary dictionary false = .ok registry ∧
      registry.typeOperator? "baby".toList = some .zoo ∧
      registry.isZeroary "baby".toList = true ∧
      registry.zeroary = ["Baby".toList, "Died".toList, []]) ∧
    ofDictionary unknown true = .error (.unknownType "kitten".toList) := by
  intro word dictionary unknown
  obtain ⟨hok, -⟩ := ofDictionary_lists_and_indexes dictionary false
  obtain ⟨-, hrefused⟩ := ofDictionary_lists_and_indexes unknown true
  constructor
  · have hrun : (ofDictionary dictionary false).toOption.isSome = true := by decide +kernel
    cases hregistry : ofDictionary dictionary false with
    | error reason => simp [hregistry, Except.toOption] at hrun
    | ok registry =>
      obtain ⟨hlists, hindexes, -⟩ := hok registry hregistry
      have hzeroary : registry.zeroary = ["Baby".toList, "Died".toList, []] := by
        rw [hlists.zeroary, hlists.synonyms, hlists.synonyms]
        rfl
      refine ⟨registry, rfl, ?_, ?_, hzeroary⟩
      · exact (hindexes.typeOperator?_iff _ _).mpr ⟨[], _, _, rfl, by simp, by decide +kernel⟩
      · rw [hindexes.isZeroary_iff, hzeroary]
        decide +kernel
  · refine (hrefused (fun _ => by decide +kernel) _).mpr ⟨_, ?_, rfl, rfl⟩
    refine ⟨["zoo".toList], ["cub".toList], rfl, ?_, ?_⟩
    · intro earlier hearlier
      exact ⟨.zoo, (List.mem_singleton.mp hearlier).symm⟩
    · intro kind
      cases kind <;> decide

end Registry

end LineageSearch
