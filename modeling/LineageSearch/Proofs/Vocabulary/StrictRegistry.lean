import LineageSearch.Proofs.Text.LostCase
import LineageSearch.Proofs.Vocabulary.DerivedLists

/-!
# Strict registries classify without conflict

Of two type operators that declare a word, the first declared one has it.  In a strict registry
there are no two such operators: their names are unrelated, so a key of both would be an ambiguity,
which is a key that occurs in another one (`typeOperator?_eq_some_iff_of_strict`).

So the order of declaration plays no part.  A dictionary whose operators, and the words of each,
come in another order is accepted as well, and its registry classifies all words alike
(`strict_classifies`).  A blank word has the empty key, which is no ambiguity; it still goes to the
first operator that declares one.
-/

namespace LineageSearch

open Entries (HasKey)
open Text

/-! ## Blank words -/

/-- The words without a key are the blank ones. -/
theorem indexKey_eq_nil_iff {word : Text} : indexKey word = [] ↔ isBlankText word = true := by
  rw [indexKey, ← trim_eq_nil_iff]
  cases trim word with
  | nil => exact iff_of_true rfl rfl
  | cons c rest =>
    rw [lower_cons]
    simp [lower_singleton_ne_nil]

/-! ## The same operators in another order -/

/-- Whether a vocabulary has the names of another one, and under each name its words, in an order of
its own. -/
def Vocabulary.Rearranges (other vocabulary : Vocabulary) : Prop :=
  other.names.Perm vocabulary.names ∧
    ∀ name keywords moved, vocabulary.get? name = some keywords → other.get? name = some moved →
      moved.flatten.Perm keywords.flatten

/-- Whether the operators of another dictionary, and the words of each, are put into another
order. -/
structure Dictionary.Rearranges (other dictionary : Dictionary) : Prop where
  types : other.types.Rearranges dictionary.types
  subtype : other.subtype.Rearranges dictionary.subtype
  glob : other.glob.Rearranges dictionary.glob
  logical : other.logical.Rearranges dictionary.logical
  family : other.family.Rearranges dictionary.family

namespace Vocabulary

variable {other vocabulary : Vocabulary} {name : Text}

theorem get?_eq_none_iff : vocabulary.get? name = none ↔ name ∉ vocabulary.names :=
  Entries.get?_eq_none_iff

theorem Rearranges.get?_eq_none (h : other.Rearranges vocabulary)
    (hnone : vocabulary.get? name = none) : other.get? name = none := by
  rw [get?_eq_none_iff] at hnone ⊢
  rwa [h.1.mem_iff]

theorem Rearranges.symm (h : other.Rearranges vocabulary) : vocabulary.Rearranges other := by
  refine ⟨h.1.symm, ?_⟩
  intro name keywords moved hget hmoved
  exact (h.2 name moved keywords hmoved hget).symm

/-- A group of the one is a group of the other with its words in another order. -/
theorem Rearranges.exists_group (h : other.Rearranges vocabulary) {words : List Text}
    (hgroup : (name, words) ∈ other.groups) :
    ∃ original, (name, original) ∈ vocabulary.groups ∧ words.Perm original := by
  obtain ⟨moved, hmoved, rfl⟩ := mem_groups_iff.mp hgroup
  cases hget : vocabulary.get? name with
  | none =>
    rw [h.get?_eq_none hget] at hmoved
    cases hmoved
  | some keywords =>
    exact ⟨_, mem_groups_of_get? hget, h.2 name keywords moved hget hmoved⟩

end Vocabulary

theorem Entries.HasKey.perm {key : Text} {words others : List Text} (h : words.Perm others)
    (hkey : HasKey key words) : HasKey key others :=
  hkey.mono fun _ hw => h.mem_iff.mp hw

namespace Dictionary

variable {other dictionary : Dictionary}

theorem Rearranges.symm (h : other.Rearranges dictionary) : dictionary.Rearranges other :=
  ⟨h.types.symm, h.subtype.symm, h.glob.symm, h.logical.symm, h.family.symm⟩

theorem mem_groups_iff {group : OperatorGroup} :
    group ∈ dictionary.groups ↔ ∃ vocabulary, (group.category, vocabulary) ∈ dictionary.categories ∧
      (group.name, group.words) ∈ vocabulary.groups := by
  unfold groups
  simp only [List.mem_flatMap, List.mem_map]
  constructor
  · rintro ⟨⟨category, vocabulary⟩, hcategory, ⟨name, words⟩, hgroup, rfl⟩
    exact ⟨vocabulary, hcategory, hgroup⟩
  · rintro ⟨vocabulary, hcategory, hgroup⟩
    exact ⟨_, hcategory, _, hgroup, rfl⟩

/-- An operator of the one is an operator of the other with its words in another order. -/
theorem Rearranges.exists_group (h : other.Rearranges dictionary) {group : OperatorGroup}
    (hgroup : group ∈ other.groups) :
    ∃ original ∈ dictionary.groups, original.category = group.category ∧
      original.name = group.name ∧ group.words.Perm original.words := by
  obtain ⟨moved, hcategory, hmoved⟩ := mem_groups_iff.mp hgroup
  obtain ⟨vocabulary, hdeclared, hrearranges⟩ : ∃ vocabulary,
      (group.category, vocabulary) ∈ dictionary.categories ∧ moved.Rearranges vocabulary := by
    simp only [categories, List.mem_cons, Prod.mk.injEq, List.not_mem_nil, or_false] at hcategory
    rcases hcategory with ⟨hname, rfl⟩ | ⟨hname, rfl⟩ | ⟨hname, rfl⟩ | ⟨hname, rfl⟩ | ⟨hname, rfl⟩
    · exact ⟨dictionary.types, by simp [categories, hname], h.types⟩
    · exact ⟨dictionary.subtype, by simp [categories, hname], h.subtype⟩
    · exact ⟨dictionary.glob, by simp [categories, hname], h.glob⟩
    · exact ⟨dictionary.logical, by simp [categories, hname], h.logical⟩
    · exact ⟨dictionary.family, by simp [categories, hname], h.family⟩
  obtain ⟨words, horiginal, hperm⟩ := hrearranges.exists_group hmoved
  exact ⟨⟨group.category, group.name, words⟩, mem_groups_iff.mpr ⟨vocabulary, hdeclared, horiginal⟩,
    rfl, rfl, hperm⟩

/-! ## Ambiguities do not depend on the order -/

theorem ambiguities_eq_nil_iff :
    dictionary.ambiguities = [] ↔ ∀ group ∈ dictionary.groups, ∀ other ∈ dictionary.groups,
      ∀ synonym otherSynonym, ¬ Confuses group other synonym otherSynonym := by
  rw [List.eq_nil_iff_forall_not_mem]
  simp only [dictionary.listsBy_ambiguities.2, IsAmbiguity]
  constructor
  · intro hnone group hgroup other hother synonym otherSynonym hconfuses
    exact hnone _ ⟨group, hgroup, other, hother, synonym, otherSynonym, hconfuses, rfl⟩
  · rintro hnone ambiguity ⟨group, hgroup, other, hother, synonym, otherSynonym, hconfuses, -⟩
    exact hnone group hgroup other hother synonym otherSynonym hconfuses

theorem Rearranges.ambiguities_eq_nil (h : other.Rearranges dictionary)
    (hnone : dictionary.ambiguities = []) : other.ambiguities = [] := by
  rw [ambiguities_eq_nil_iff] at hnone ⊢
  intro first hfirst second hsecond synonym otherSynonym hconfuses
  obtain ⟨group, hgroup, hcategory, hname, hwords⟩ := h.exists_group hfirst
  obtain ⟨partner, hpartner, hpartnerCategory, hpartnerName, hpartnerWords⟩ :=
    h.exists_group hsecond
  refine hnone group hgroup partner hpartner synonym otherSynonym ⟨?_, ?_, ?_, ?_, hconfuses.occurs⟩
  · -- one operator would stand under one label
    rintro rfl
    apply hconfuses.different
    apply eq_of_label_eq hfirst hsecond
    rw [OperatorGroup.label, OperatorGroup.label, ← hcategory, ← hname, hpartnerCategory,
      hpartnerName]
  · rw [OperatorGroup.Unrelated, hname, hpartnerName]
    exact hconfuses.unrelated
  · exact ⟨hconfuses.key.1, hconfuses.key.2.perm hwords⟩
  · exact ⟨hconfuses.otherKey.1, hconfuses.otherKey.2.perm hpartnerWords⟩

theorem Rearranges.typeWords_perm (h : other.Rearranges dictionary) (kind : TypeOperator) :
    (other.typeWords kind).Perm (dictionary.typeWords kind) := by
  unfold typeWords
  cases hget : dictionary.types.get? kind.name with
  | none => rw [h.types.get?_eq_none hget]
  | some keywords =>
    cases hmoved : other.types.get? kind.name with
    | none =>
      rw [h.symm.types.get?_eq_none hmoved] at hget
      cases hget
    | some moved => exact h.types.2 kind.name keywords moved hget hmoved

end Dictionary

/-! ## Keys of type operators -/

theorem TypeOperator.mem_all (kind : TypeOperator) : kind ∈ TypeOperator.all := by
  cases kind <;> decide

/-- The names of two type operators are unrelated. -/
theorem TypeOperator.not_prefix_of_ne {a b : TypeOperator} (h : a ≠ b) :
    ¬ lower a.name <+: lower b.name := by
  have hall : ∀ a ∈ TypeOperator.all, ∀ b ∈ TypeOperator.all, a ≠ b →
      (lower a.name).isPrefixOf (lower b.name) = false := by decide +kernel
  rw [← List.isPrefixOf_iff_prefix, Bool.not_eq_true]
  exact hall a a.mem_all b b.mem_all h

namespace Registry

variable {registry : Registry} {dictionary other : Dictionary} {kind : TypeOperator} {word : Text}

theorem ambiguities_eq_nil_of_strict (h : ofDictionary dictionary true = .ok registry) :
    dictionary.ambiguities = [] := by
  by_contra hsome
  rw [ofDictionary_strict_of_ambiguous hsome] at h
  cases h

/-- **In a strict registry no key belongs to two type operators.** -/
theorem kind_unique_of_strict (h : ofDictionary dictionary true = .ok registry)
    {a b : TypeOperator} {words others : List Text} {key : Text} (hkey : key ≠ [])
    (ha : (a.name, words) ∈ dictionary.types.groups) (hkeyA : HasKey key words)
    (hb : (b.name, others) ∈ dictionary.types.groups) (hkeyB : HasKey key others) : a = b := by
  by_contra hne
  have hgroup : ∀ (kind : TypeOperator) (words : List Text),
      (kind.name, words) ∈ dictionary.types.groups →
      ⟨"type".toList, kind.name, words⟩ ∈ dictionary.groups := by
    intro kind words hmem
    exact Dictionary.mem_groups_iff.mpr ⟨dictionary.types, List.mem_cons_self, hmem⟩
  refine Dictionary.ambiguities_eq_nil_iff.mp (ambiguities_eq_nil_of_strict h) _ (hgroup a _ ha) _
    (hgroup b _ hb) key key ⟨?_, ?_, ⟨hkey, hkeyA⟩, ⟨hkey, hkeyB⟩, List.infix_rfl⟩
  · intro hsame
    exact hne (TypeOperator.name_injective (congrArg OperatorGroup.name hsame))
  · exact ⟨TypeOperator.not_prefix_of_ne hne, TypeOperator.not_prefix_of_ne (Ne.symm hne)⟩

/-- In a strict registry a word names the type operator that declares a word of its key. -/
theorem typeOperator?_eq_some_iff_of_strict (h : ofDictionary dictionary true = .ok registry)
    (hblank : isBlankText word = false) :
    registry.typeOperator? word = some kind ↔
      HasKey (indexKey word) (dictionary.typeWords kind) := by
  have hdrawn := drawnFrom_of_ofDictionary h
  have hkey : indexKey word ≠ [] := by
    rw [ne_eq, indexKey_eq_nil_iff, hblank]
    exact Bool.false_ne_true
  rw [hdrawn.typeOperator?_eq_some_iff]
  constructor
  · rintro ⟨before, words, after, hsplit, -, w, hw, heq⟩
    refine ⟨w, Dictionary.mem_typeWords_iff.mpr ⟨words, ?_, hw⟩, heq⟩
    simp [hsplit]
  · rintro ⟨w, hw, heq⟩
    obtain ⟨words, hmem, hw⟩ := Dictionary.mem_typeWords_iff.mp hw
    obtain ⟨before, after, hsplit⟩ := List.append_of_mem hmem
    refine ⟨before, words, after, hsplit, fun earlier hearlier hearlierKey => ?_, w, hw, heq⟩
    have hdeclared : earlier ∈ dictionary.types.groups := by simp [hsplit, hearlier]
    obtain ⟨⟨first, others⟩, -, rfl⟩ := List.mem_map.mp (hdrawn.groups ▸ hdeclared)
    obtain rfl := kind_unique_of_strict h hkey hdeclared hearlierKey hmem ⟨w, hw, heq⟩
    -- its name would be declared twice
    have hnodup := dictionary.types.nodup_names_groups
    rw [hsplit, List.map_append, List.map_cons, List.nodup_append] at hnodup
    exact hnodup.2.2 _ (List.mem_map_of_mem hearlier) _ List.mem_cons_self rfl

/-- In a strict registry births and deaths are what may stand alone. -/
theorem isZeroary_iff_of_strict (h : ofDictionary dictionary true = .ok registry)
    (hblank : isBlankText word = false) :
    registry.isZeroary word = true ↔
      registry.typeOperator? word = some .baby ∨ registry.typeOperator? word = some .dead := by
  have hlists := listsWordsOf_of_ofDictionary h
  rw [(indexesItsLists_of_ofDictionary h).isZeroary_iff, hlists.zeroary, hlists.synonyms,
    hlists.synonyms, typeOperator?_eq_some_iff_of_strict h hblank,
    typeOperator?_eq_some_iff_of_strict h hblank]
  simp only [HasKey, List.mem_append, or_and_right, exists_or]

/-! ## Another order -/

/-- A strict registry is accepted in any order of its operators and words. -/
theorem exists_of_rearranges (h : ofDictionary dictionary true = .ok registry)
    (hrearranges : other.Rearranges dictionary) :
    ∃ rearranged, ofDictionary other true = .ok rearranged := by
  have hnone := hrearranges.ambiguities_eq_nil (ambiguities_eq_nil_of_strict h)
  cases hother : ofDictionary other true with
  | ok rearranged => exact ⟨rearranged, rfl⟩
  | error reason =>
    -- an unknown type operator would be one of the dictionary as well
    rw [ofDictionary_strict_of_unambiguous hnone] at hother
    obtain ⟨name, hunknown, -⟩ := ofDictionary_lenient_eq_error_iff.mp hother
    obtain ⟨before, after, hsplit, -, hnoKind⟩ := Dictionary.unknownType?_eq_some_iff.mp hunknown
    have hmem : name ∈ dictionary.types.groups.map Prod.fst := by
      rw [Vocabulary.map_fst_groups]
      refine hrearranges.types.1.mem_iff.mp ?_
      simp [hsplit]
    rw [(drawnFrom_of_ofDictionary h).groups, List.map_map] at hmem
    obtain ⟨group, -, hname⟩ := List.mem_map.mp hmem
    exact absurd hname (hnoKind group.1)

/-- **A strict registry classifies without conflict.**  A word that is not blank names the type
operator that declares it, it may stand alone exactly if it names births or deaths, and no order of
the operators or of their words makes a difference. -/
theorem strict_classifies (h : ofDictionary dictionary true = .ok registry) :
    (∀ kind, ∀ word ∈ registry.synonyms kind, isBlankText word = false →
      registry.typeOperator? word = some kind) ∧
    (∀ word, isBlankText word = false → (registry.isZeroary word = true ↔
      registry.typeOperator? word = some .baby ∨ registry.typeOperator? word = some .dead)) ∧
    ∀ other : Dictionary, other.Rearranges dictionary →
      ∃ rearranged, ofDictionary other true = .ok rearranged ∧
        ∀ word, isBlankText word = false →
          rearranged.typeOperator? word = registry.typeOperator? word ∧
            rearranged.isZeroary word = registry.isZeroary word := by
  refine ⟨?_, fun word => isZeroary_iff_of_strict h, ?_⟩
  · intro kind word hword hblank
    rw [(listsWordsOf_of_ofDictionary h).synonyms] at hword
    exact (typeOperator?_eq_some_iff_of_strict h hblank).mpr ⟨word, hword, rfl⟩
  · intro other hrearranges
    obtain ⟨rearranged, hother⟩ := exists_of_rearranges h hrearranges
    refine ⟨rearranged, hother, fun word hblank => ?_⟩
    have hsame : rearranged.typeOperator? word = registry.typeOperator? word := by
      refine Option.ext fun kind => ?_
      have hperm := hrearranges.typeWords_perm kind
      rw [typeOperator?_eq_some_iff_of_strict hother hblank,
        typeOperator?_eq_some_iff_of_strict h hblank]
      exact ⟨Entries.HasKey.perm hperm, Entries.HasKey.perm hperm.symm⟩
    refine ⟨hsame, Bool.eq_iff_iff.mpr ?_⟩
    rw [isZeroary_iff_of_strict hother hblank, isZeroary_iff_of_strict h hblank, hsame]

/-- Nested words, a word declared twice in two cases, and blank words of two operators. -/
theorem strict_classifies_cub :
    let word (text : String) : Keywords := .word text.toList
    let dictionary : Dictionary :=
      { types := { entries :=
          [("panda".toList, .list [word "Panda", word "", word "panda "]),
            ("baby".toList, .group [("en".toList, .list [word "Baby", word "cub"]),
              ("jp".toList, word "赤ちゃん")]),
            ("credit".toList, .list [word " ", word "author"])] } }
    let other : Dictionary :=
      { types := { entries :=
          [("credit".toList, .list [word "author", word " "]),
            ("baby".toList, .list [word "cub", .list [word "赤ちゃん", word "Baby"]]),
            ("panda".toList, .list [word "panda ", word "Panda", word ""])] } }
    ∃ registry rearranged, ofDictionary dictionary true = .ok registry ∧
      ofDictionary other true = .ok rearranged ∧
      registry.typeOperator? "cub".toList = some .baby ∧
      registry.isZeroary "cub".toList = true ∧
      rearranged.typeOperator? "cub".toList = some .baby := by
  intro word dictionary other
  have hrearranges : other.Rearranges dictionary := by
    refine ⟨⟨by decide, ?_⟩, ?_, ?_, ?_, ?_⟩
    · intro name keywords moved hget hmoved
      have hname : name ∈ dictionary.types.names := by
        by_contra hnone
        rw [Vocabulary.get?_eq_none_iff.mpr hnone] at hget
        cases hget
      simp only [dictionary, Vocabulary.names, Entries.names, List.map_cons, List.map_nil,
        List.mem_cons, List.not_mem_nil, or_false] at hname
      rcases hname with rfl | rfl | rfl
      all_goals
        cases hget
        cases hmoved
        decide
    all_goals exact ⟨List.Perm.rfl, fun name keywords moved hget => by cases hget⟩
  have hrun : (ofDictionary dictionary true).toOption.map (fun registry =>
      decide ("cub".toList ∈ registry.synonyms .baby)) = some true := by decide +kernel
  cases hregistry : ofDictionary dictionary true with
  | error reason => simp [hregistry, Except.toOption] at hrun
  | ok registry =>
    simp only [hregistry, Except.toOption, Option.map_some, Option.some_inj,
      decide_eq_true_eq] at hrun
    obtain ⟨hsynonyms, hzeroary, horder⟩ := strict_classifies hregistry
    obtain ⟨rearranged, hother, hsame⟩ := horder other hrearranges
    have hcub := hsynonyms .baby _ hrun (by decide)
    refine ⟨registry, rearranged, rfl, hother, hcub, ?_, ?_⟩
    · exact (hzeroary _ (by decide)).mpr (Or.inl hcub)
    · exact (hsame _ (by decide)).1.trans hcub

end Registry

end LineageSearch
