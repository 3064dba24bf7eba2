import LineageSearch.Proofs.Query.Lossless
import LineageSearch.Proofs.Vocabulary.Indexes
import LineageSearch.Vocabulary.Builtin

/-!
# Which keywords the indexes know

A keyword is recognised in a search text by folding, and classified by an index of lowercase
forms.  The two agree on most letters, but not on all: `ſ` folds to `s` and stays `ſ` in
lowercase, so `babieſ` is read as the keyword `babies` and the index does not know it.

This file says exactly which keywords are known (`keyword_isKnown_iff`).

* A recognised keyword is always one of the declared words up to case
  (`Expression.IsRecognised`).
* It is known exactly if the first group with a word of its lowercase form also has a word
  that folds like it (`LeadsBack`).  Tags have one more way: a form of no tag stands for
  itself, and may be the name of a tag by chance.
* Where the letters of all declared words agree on case, as those of the built-in words do,
  it is known exactly if it contains none of the 25 letters of `lowercaseVariants`.
-/

namespace LineageSearch

open Text Entries

/-! ## Groups of words -/

/-- Whether one of the words is a keyword, up to case and the blanks at its ends. -/
def IsAmong (keyword : Text) (words : List Text) : Prop :=
  ∃ w ∈ words, sameFolded (trim w) keyword = true

/-- Whether the first group with a word of the keyword's lowercase form has a word that folds
like the keyword. -/
def LeadsBack {α : Type} (groups : List (α × List Text)) (keyword : Text) : Prop :=
  ∃ before group after, groups = before ++ group :: after ∧
    (∀ earlier ∈ before, ¬ HasKey (indexKey keyword) earlier.2) ∧
      HasKey (indexKey keyword) group.2 ∧ IsAmong keyword group.2

section Groups

variable {α : Type} {groups : List (α × List Text)} {keyword : Text}

/-- A keyword leads back if the group that the index names for it has a word like it. -/
theorem leadsBack_iff_get? (hnodup : (groups.map Prod.fst).Nodup) :
    LeadsBack groups keyword ↔
      ∃ value words, get? (indexKey keyword) (indexOf groups) = some value ∧
        (value, words) ∈ groups ∧ IsAmong keyword words := by
  constructor
  · rintro ⟨before, ⟨value, words⟩, after, rfl, hbefore, hkey, hamong⟩
    refine ⟨value, words, ?_, by simp, hamong⟩
    exact get?_indexOf_eq_some_iff.mpr ⟨before, words, after, rfl, hbefore, hkey⟩
  · rintro ⟨value, words, hget, hmem, hamong⟩
    obtain ⟨before, others, after, rfl, hbefore, hkey⟩ := get?_indexOf_eq_some_iff.mp hget
    -- no two groups stand under one name, so the group is the one that the index names
    have hwords : (value, words) = (value, others) :=
      List.inj_on_of_nodup_map hnodup hmem (by simp) rfl
    obtain rfl := (Prod.mk.inj hwords).2
    exact ⟨before, (value, words), after, rfl, hbefore, hkey, hamong⟩

section Agreeing

variable {w other : Text} (hw : ∀ c ∈ trim w, CaseAgrees c)
  (hother : ∀ c ∈ trim other, CaseAgrees c) (hfolded : sameFolded (trim w) keyword = true)

include hw hother hfolded

/-- A keyword with the lowercase form of an agreeing word contains no variant, since a variant
would stay in that form. -/
theorem not_variant_of_indexKey_eq (hkey : indexKey other = lower keyword) :
    ∀ c ∈ keyword, c ∉ lowercaseVariants := by
  intro c hc hvariant
  have hsigma := fold_ne_of_sameFolded hfolded fun d hd => (hw d hd).2.1
  have hmem : c ∈ lower (trim other) := by
    rw [← indexKey, hkey]
    exact mem_lower_of_variant hsigma hc hvariant
  exact not_variant_of_mem_lower hother c hmem hvariant

/-- Two agreeing words fold like a keyword without variants, if one does and the other has its
lowercase form. -/
theorem sameFolded_of_indexKey_eq (hvariants : ∀ c ∈ keyword, c ∉ lowercaseVariants)
    (hkey : indexKey other = lower keyword) : sameFolded (trim other) keyword = true := by
  have hlower : lower (trim other) = lower (trim w) := by
    rw [← indexKey, hkey, lower_eq_of_sameFolded hw hvariants hfolded]
  have halike := sameFolded_of_lower_eq hother hw hlower
  rw [sameFolded_iff] at halike hfolded ⊢
  exact halike.trans hfolded

end Agreeing

/-- Where the letters of all words agree on case, a keyword that folds like a word leads back
exactly if it contains no variant. -/
theorem leadsBack_iff_no_variant
    (hagree : ∀ group ∈ groups, ∀ w ∈ group.2, ∀ c ∈ w, CaseAgrees c)
    (htight : IsTight keyword) (hamong : ∃ group ∈ groups, IsAmong keyword group.2) :
    LeadsBack groups keyword ↔ ∀ c ∈ keyword, c ∉ lowercaseVariants := by
  obtain ⟨group, hgroup, w, hw, hfolded⟩ := hamong
  have hletters : ∀ group ∈ groups, ∀ w ∈ group.2, ∀ c ∈ trim w, CaseAgrees c :=
    fun group hgroup w hw c hc => hagree group hgroup w hw c (mem_of_mem_trim hc)
  have hkeyword : indexKey keyword = lower keyword := by rw [indexKey, htight.trim_eq]
  rw [LeadsBack, hkeyword]
  constructor
  · rintro ⟨before, found, after, hsplit, -, ⟨other, hother, hkey⟩, -⟩
    have hfound : found ∈ groups := by simp [hsplit]
    exact not_variant_of_indexKey_eq (hletters group hgroup w hw)
      (hletters found hfound other hother) hfolded hkey
  · intro hvariants
    have hlower : indexKey w = lower keyword :=
      lower_eq_of_sameFolded (hletters group hgroup w hw) hvariants hfolded
    cases hget : get? (lower keyword) (indexOf groups) with
    | none => exact absurd ⟨w, hw, hlower⟩ (get?_indexOf_eq_none_iff.mp hget group hgroup)
    | some value =>
      obtain ⟨before, words, after, hsplit, hbefore, other, hother, hkey⟩ :=
        get?_indexOf_eq_some_iff.mp hget
      have hfound : (value, words) ∈ groups := by simp [hsplit]
      -- the word that the index went by need not be `w`, but it folds like `w`
      have halike := sameFolded_of_indexKey_eq (hletters group hgroup w hw)
        (hletters _ hfound other hother) hfolded hvariants hkey
      exact ⟨before, (value, words), after, hsplit, hbefore, ⟨other, hother, hkey⟩,
        other, hother, halike⟩

end Groups

/-! ## Keywords of an expression -/

namespace Expression

/-- The keyword of an expression. -/
def keyword? : Expression → Option Text
  | zeroary keyword => some keyword
  | typed keyword _ => some keyword
  | tagged tag _ => some tag
  | bare _ => none

/-- Whether the keyword of an expression is a declared word up to case. -/
def IsRecognised (registry : Registry) (tags : Tags) : Expression → Prop
  | zeroary keyword => IsAmong keyword registry.types
  | typed keyword _ => IsAmong keyword registry.types
  | tagged tag _ => IsAmong tag tags.words
  | bare _ => True

/-- Whether the indexes know the keyword of an expression: they name a type operator, or a
declared tag, with a word that is the keyword up to case. -/
def IsKnown (registry : Registry) (tags : Tags) : Expression → Prop
  | zeroary keyword => ∃ kind, registry.typeOperator? keyword = some kind ∧
      IsAmong keyword (registry.synonyms kind)
  | typed keyword _ => ∃ kind, registry.typeOperator? keyword = some kind ∧
      IsAmong keyword (registry.synonyms kind)
  | tagged tag _ => ∃ words,
      ((Grammar.ofVocabulary registry tags).tagOf tag, words) ∈ tags.groups ∧ IsAmong tag words
  | bare _ => True

/-- Whether a form that no tag has is itself the name of a tag with a word like it. -/
def IsTagByChance (tags : Tags) (form : Text) : Prop :=
  (∀ group ∈ tags.groups, ¬ HasKey (indexKey form) group.2) ∧
    ∃ words, (indexKey form, words) ∈ tags.groups ∧ IsAmong form words

/-- Whether the lowercase form of a keyword leads back to words that fold like it. -/
def LeadsToWords (registry : Registry) (tags : Tags) : Expression → Prop
  | zeroary keyword => LeadsBack registry.typeSynonyms keyword
  | typed keyword _ => LeadsBack registry.typeSynonyms keyword
  | tagged tag _ => LeadsBack tags.groups tag ∨ IsTagByChance tags tag
  | bare _ => True

end Expression

/-- Whether case agrees on all letters of the words of type operators and tags, and of the
names of tags. -/
def CasesAgree (registry : Registry) (tags : Tags) : Prop :=
  ∀ w ∈ registry.types ++ tags.words ++ tags.names, ∀ c ∈ w, CaseAgrees c

instance (registry : Registry) (tags : Tags) : Decidable (CasesAgree registry tags) :=
  decidable_of_iff ((registry.types ++ tags.words ++ tags.names).all
    fun w => w.all fun c => decide (CaseAgrees c)) (by
      simp only [CasesAgree, List.all_eq_true, decide_eq_true_eq])

section Recognised

variable {registry : Registry} {dictionary : Dictionary} {tags : Tags} {input text : Text}
  {expression : Expression}

theorem isAmong_of_term?_portion {words : List Text} {keyword rest : Text}
    (h : Grammar.term? (.ofKeywords .portion words) text = some (keyword, rest)) :
    IsAmong keyword words := by
  obtain ⟨found, hfound, hpair⟩ := Option.map_eq_some_iff.mp h
  obtain ⟨rfl, -⟩ := Prod.mk.inj hpair
  obtain ⟨w, hw, -, hlead⟩ := Pattern.exists_of_find?_portion hfound
  exact ⟨w, hw, sameFolded_trim (leadingKeyword?_eq_some_iff.mp hlead).2.1⟩

/-- Whatever is read, its keyword is a declared word up to case. -/
theorem isRecognised_of_readAs? (hdrawn : registry.DrawnFrom dictionary)
    {alternative : Alternative}
    (hread : (Grammar.ofVocabulary registry tags).readAs? text alternative = some expression) :
    expression.IsRecognised registry tags := by
  cases alternative with
  | zeroaryExpression =>
    obtain ⟨pair, hterm, rfl⟩ := Option.map_eq_some_iff.mp hread
    obtain ⟨found, hfound, rfl⟩ := Option.map_eq_some_iff.mp hterm
    obtain ⟨rfl, w, hw, -, hfolded⟩ := Pattern.find?_single_eq_some_iff.mp hfound
    exact ⟨w, hdrawn.mem_types_of_mem_zeroary hw, sameFolded_trim hfolded⟩
  | typeExpression =>
    obtain ⟨keyword, rest, subject, hterm, -, rfl⟩ :=
      Grammar.bind_subject_eq_some_iff.mp hread
    exact isAmong_of_term?_portion hterm
  | tagExpression =>
    obtain ⟨tag, rest, subject, hterm, -, rfl⟩ := Grammar.bind_subject_eq_some_iff.mp hread
    exact isAmong_of_term?_portion hterm
  | subjectTerm =>
    obtain ⟨subject, -, rfl⟩ := Option.map_eq_some_iff.mp hread
    trivial

theorem isTight_of_spells (htext : IsTight text) (h : expression.Spells text) {keyword : Text}
    (hkeyword : keyword ∈ expression.keyword?) : IsTight keyword := by
  cases expression with
  | zeroary k =>
    obtain rfl := Option.some_inj.mp hkeyword
    rw [show k = text from h]
    exact htext
  | typed k subject =>
    obtain rfl := Option.some_inj.mp hkeyword
    exact h.1
  | tagged t subject =>
    obtain rfl := Option.some_inj.mp hkeyword
    exact h.1
  | bare subject => simp [Expression.keyword?] at hkeyword

theorem typeOperator?_isKnown_iff (hdrawn : registry.DrawnFrom dictionary) {keyword : Text} :
    (∃ kind, registry.typeOperator? keyword = some kind ∧
        IsAmong keyword (registry.synonyms kind)) ↔
      LeadsBack registry.typeSynonyms keyword := by
  rw [leadsBack_iff_get? hdrawn.nodup_kinds]
  simp only [Registry.typeOperator?, hdrawn.typeIndex]
  constructor
  · rintro ⟨kind, hget, hamong⟩
    obtain ⟨before, words, after, hsplit, -⟩ := get?_indexOf_eq_some_iff.mp hget
    have hmem : (kind, words) ∈ registry.typeSynonyms := by simp [hsplit]
    rw [hdrawn.synonyms_eq hmem] at hamong
    exact ⟨kind, words, hget, hmem, hamong⟩
  · rintro ⟨kind, words, hget, hmem, hamong⟩
    refine ⟨kind, hget, ?_⟩
    rw [hdrawn.synonyms_eq hmem]
    exact hamong

theorem tagOf_isKnown_iff {form : Text} :
    (∃ words, ((Grammar.ofVocabulary registry tags).tagOf form, words) ∈ tags.groups ∧
        IsAmong form words) ↔
      LeadsBack tags.groups form ∨ Expression.IsTagByChance tags form := by
  have htag : (Grammar.ofVocabulary registry tags).tagOf form =
      (get? (indexKey form) (indexOf tags.groups)).getD (indexKey form) := rfl
  rw [htag, leadsBack_iff_get? tags.nodup_names_groups, Expression.IsTagByChance,
    ← get?_indexOf_eq_none_iff]
  cases get? (indexKey form) (indexOf tags.groups) <;> simp

theorem isKnown_iff_leadsToWords (hdrawn : registry.DrawnFrom dictionary) :
    expression.IsKnown registry tags ↔ expression.LeadsToWords registry tags := by
  cases expression with
  | zeroary keyword => exact typeOperator?_isKnown_iff hdrawn
  | typed keyword subject => exact typeOperator?_isKnown_iff hdrawn
  | tagged tag subject => exact tagOf_isKnown_iff
  | bare subject => exact Iff.rfl

theorem leadsBack_types_iff (hdrawn : registry.DrawnFrom dictionary)
    (hagree : CasesAgree registry tags) {keyword : Text} (htight : IsTight keyword)
    (hamong : IsAmong keyword registry.types) :
    LeadsBack registry.typeSynonyms keyword ↔ ∀ c ∈ keyword, c ∉ lowercaseVariants := by
  refine leadsBack_iff_no_variant ?_ htight ?_
  · intro group hgroup w hw
    exact hagree w (by simp [hdrawn.mem_types_iff.mpr ⟨group, hgroup, hw⟩])
  · obtain ⟨w, hw, hfolded⟩ := hamong
    obtain ⟨group, hgroup, hmem⟩ := hdrawn.mem_types_iff.mp hw
    exact ⟨group, hgroup, w, hmem, hfolded⟩

theorem leadsBack_tags_iff (hagree : CasesAgree registry tags) {form : Text}
    (htight : IsTight form) (hamong : IsAmong form tags.words) :
    LeadsBack tags.groups form ∨ Expression.IsTagByChance tags form ↔
      ∀ c ∈ form, c ∉ lowercaseVariants := by
  obtain ⟨w, hw, hfolded⟩ := hamong
  obtain ⟨group, hgroup, hmem⟩ := Vocabulary.mem_words_iff.mp hw
  have hback : LeadsBack tags.groups form ↔ ∀ c ∈ form, c ∉ lowercaseVariants := by
    refine leadsBack_iff_no_variant ?_ htight ⟨group, hgroup, w, hmem, hfolded⟩
    intro group hgroup w hw
    exact hagree w (by simp [Vocabulary.mem_words_iff.mpr ⟨group, hgroup, hw⟩])
  rw [hback]
  refine or_iff_left_of_imp ?_
  -- a form that is the name of a tag has no variant either, since the name has none
  rintro ⟨-, words, hnamed, -⟩ c hc hvariant
  have hname : indexKey form ∈ tags.names := by
    rw [Vocabulary.names, ← Vocabulary.map_fst_groups]
    exact List.mem_map.mpr ⟨_, hnamed, rfl⟩
  have hsigma : ∀ d ∈ form, fold d ≠ 'σ' := by
    refine fold_ne_of_sameFolded hfolded fun d hd => ?_
    exact (hagree w (by simp [hw]) d (mem_of_mem_trim hd)).2.1
  have hlower : c ∈ indexKey form := by
    rw [indexKey, htight.trim_eq]
    exact mem_lower_of_variant hsigma hc hvariant
  exact (hagree _ (by simp [hname]) c hlower).1 hvariant

/-- **Which recognised keywords the indexes know.**  A keyword that is read is a declared
word up to case.  It is known exactly if its lowercase form leads to words like it; where
all letters of the vocabulary agree on case, exactly if it contains no variant. -/
theorem keyword_isKnown_iff {strict : Bool}
    (hregistry : Registry.ofDictionary dictionary strict = .ok registry)
    (hread : (Grammar.ofVocabulary registry tags).expression? input = some expression) :
    expression.IsRecognised registry tags ∧
      (expression.IsKnown registry tags ↔ expression.LeadsToWords registry tags) ∧
      (CasesAgree registry tags →
        (expression.IsKnown registry tags ↔
          ∀ keyword ∈ expression.keyword?, ∀ c ∈ keyword, c ∉ lowercaseVariants)) := by
  have hdrawn := Registry.drawnFrom_of_ofDictionary hregistry
  obtain ⟨hblank, alternative, hsome⟩ := Grammar.exists_readAs?_of_expression? hread
  have hrecognised := isRecognised_of_readAs? hdrawn hsome
  have htight := isTight_trim hblank
  have hkeyword : ∀ keyword ∈ expression.keyword?, IsTight keyword := fun keyword =>
    isTight_of_spells htight (Grammar.spells_of_readAs? htight hsome)
  refine ⟨hrecognised, isKnown_iff_leadsToWords hdrawn, fun hagree => ?_⟩
  rw [isKnown_iff_leadsToWords hdrawn]
  cases expression with
  | zeroary keyword =>
    have hiff := leadsBack_types_iff hdrawn hagree (hkeyword keyword rfl) hrecognised
    simpa [Expression.keyword?, Expression.LeadsToWords] using hiff
  | typed keyword subject =>
    have hiff := leadsBack_types_iff hdrawn hagree (hkeyword keyword rfl) hrecognised
    simpa [Expression.keyword?, Expression.LeadsToWords] using hiff
  | tagged tag subject =>
    have hiff := leadsBack_tags_iff hagree (hkeyword tag rfl) hrecognised
    simpa [Expression.keyword?, Expression.LeadsToWords] using hiff
  | bare subject => simp [Expression.keyword?, Expression.LeadsToWords]

/-- The long s folds to `s` and is its own lowercase form, so that `babieſ` is read as a
type keyword which the index does not know. -/
theorem keyword_isKnown_babies_long_s : ∃ registry expression,
    Registry.ofDictionary .builtin false = .ok registry ∧
      (Grammar.ofVocabulary registry Tags.builtin).expression? "babieſ 2019".toList =
        some expression ∧
      expression.keyword? = some "babieſ".toList ∧ ¬ expression.IsKnown registry Tags.builtin := by
  have hread : (Registry.ofDictionary .builtin false).toOption.map (fun registry =>
      ((Grammar.ofVocabulary registry Tags.builtin).expression? "babieſ 2019".toList,
        decide (CasesAgree registry Tags.builtin))) =
      some (some (.typed "babieſ".toList (.id "2019".toList)), true) := by decide +kernel
  cases hregistry : Registry.ofDictionary .builtin false with
  | error reason => simp [hregistry, Except.toOption] at hread
  | ok registry =>
    simp only [hregistry, Except.toOption, Option.map_some, Option.some_inj, Prod.mk.injEq,
      decide_eq_true_eq] at hread
    obtain ⟨hexpression, hagree⟩ := hread
    refine ⟨registry, _, rfl, hexpression, rfl, fun hknown => ?_⟩
    have hletters := ((keyword_isKnown_iff hregistry hexpression).2.2 hagree).mp hknown
    exact absurd (hletters _ rfl 'ſ' (by decide)) (by decide)

end Recognised

end LineageSearch
