import LineageSearch.Proofs.Query.Readings
import LineageSearch.Proofs.Vocabulary.Indexes
import LineageSearch.Vocabulary.Builtin

/-!
# Keywords before a text

A type keyword and a blank before a text make the text the subject of that keyword, whatever it
says (`expression?_keyword`).  The text may have keywords in it, also at its beginning: the
pattern looks at what leads and never behind it.

Only a longer keyword can come between, one that goes on behind the blank, as `red panda` would
after a keyword `red` (`Pattern.find?_portion_of_unextended`, which is true of tags as well).  A
type keyword from which no other goes on like this stands first (`Registry.StandsFirst`), and so do
the names of the built-in type operators (`standsFirst_name`).

The same is true of a tag (`expression?_tag`), which moreover must not be led by a type keyword,
since these go before tags (`Registry.TagStandsFirst`).
-/

namespace LineageSearch

open Text

/-- Whether a type keyword always takes what stands behind it and a blank: no other keyword
begins with it and the blank. -/
structure Registry.StandsFirst (registry : Registry) (keyword : Text) : Prop where
  tight : IsTight keyword
  known : ∃ w ∈ registry.types, sameFolded w keyword = true
  unextended : ∀ w ∈ registry.types, ¬ (keyword ++ [' ']).map fold <+: w.map fold

/-- Whether a tag always takes what stands behind it and a blank: no other keyword begins with it
and the blank, and no type keyword leads it. -/
structure Registry.TagStandsFirst (registry : Registry) (tags : Tags) (tag : Text) : Prop where
  tight : IsTight tag
  known : ∃ w ∈ tags.words, sameFolded w tag = true
  unextended : ∀ w ∈ registry.types ++ tags.words, ¬ (tag ++ [' ']).map fold <+: w.map fold
  unled : ∀ w ∈ registry.types, w ≠ [] → ¬ w.map fold <+: tag.map fold

/-! ## What is found in front of a blank -/

theorem prefix_text (keyword gap rest : Text) :
    (keyword ++ [' ']).map fold <+: (keyword ++ ' ' :: gap ++ rest).map fold :=
  List.IsPrefix.map fold ⟨gap ++ rest, by simp⟩

/-- A keyword and a blank stay in front of a text when blanks are trimmed. -/
theorem exists_trim_keyword {keyword input : Text} (htight : IsTight keyword)
    (hblank : isBlankText input = false) :
    isBlankText (keyword ++ ' ' :: input) = false ∧ ∃ gap, isBlankText gap = true ∧
      trim (keyword ++ ' ' :: input) = keyword ++ ' ' :: gap ++ trim input := by
  obtain ⟨gap, after, hgap, hafter, hsplit⟩ := exists_trim input
  obtain ⟨first, hfirst, hstart⟩ := htight.1
  have hpadded : keyword ++ ' ' :: input = keyword ++ ' ' :: gap ++ trim input ++ after := by
    conv_lhs => rw [hsplit]
    simp
  refine ⟨?_, gap, hgap, ?_⟩
  · rw [isBlankText_append, isBlankText_eq_false_of_head hfirst hstart, Bool.false_and]
  · rw [hpadded]
    exact (htight.append (isTight_trim hblank) (' ' :: gap)).trim_append hafter

namespace Pattern

variable {words : List Text} {keyword gap rest : Text}
  (hunextended : ∀ w ∈ words, ¬ (keyword ++ [' ']).map fold <+: w.map fold)

include hunextended

/-- A keyword is found before a blank and a text, unless another one goes on behind the blank. -/
theorem find?_portion_of_unextended (htight : IsTight keyword)
    (hknown : ∃ w ∈ words, sameFolded w keyword = true) (hgap : isBlankText gap = true)
    (hrest : IsTight rest) :
    (ofKeywords .portion words).find? (keyword ++ ' ' :: gap ++ rest) =
      some ⟨keyword, ' ' :: gap, rest⟩ := by
  obtain ⟨w, hmem, hfolded⟩ := hknown
  have hlength : w.length = keyword.length := length_eq_of_sameFolded hfolded
  have hne : w ≠ [] := by
    rintro rfl
    exact htight.ne_nil (List.length_eq_zero_iff.mp hlength.symm)
  have hblank : isBlankText (' ' :: gap) = true := by
    rw [← List.singleton_append, isBlankText_append, hgap]
    decide
  refine find?_portion_of_longest hmem hne
    (leadingKeyword?_eq_some_iff.mpr ⟨rfl, hfolded, hblank, hrest.1⟩) ?_
  intro longer hlonger hlt
  rw [Option.eq_none_iff_forall_ne_some]
  intro found hfound
  -- both begin the text, so the longer one begins with the shorter one and the blank
  refine hunextended longer hlonger (List.prefix_of_prefix_length_le (prefix_text keyword gap rest)
    (prefix_of_leadingKeyword? hfound) ?_)
  simp only [List.length_map, List.length_append, List.length_singleton]
  omega

/-- No keyword is found before a blank, if none goes on behind it and none ends in front of it. -/
theorem find?_portion_eq_none_of_unled
    (hunled : ∀ w ∈ words, w ≠ [] → ¬ w.map fold <+: keyword.map fold) :
    (ofKeywords .portion words).find? (keyword ++ ' ' :: gap ++ rest) = none := by
  rw [find?_portion_eq_none_iff]
  intro w hw hne
  rw [Option.eq_none_iff_forall_ne_some]
  intro found hfound
  have hleads := prefix_of_leadingKeyword? hfound
  by_cases hlength : w.length ≤ keyword.length
  · have hkeyword : keyword.map fold <+: (keyword ++ ' ' :: gap ++ rest).map fold :=
      List.IsPrefix.map fold ⟨' ' :: gap ++ rest, by simp⟩
    exact hunled w hw hne (List.prefix_of_prefix_length_le hleads hkeyword (by simpa using hlength))
  · refine hunextended w hw
      (List.prefix_of_prefix_length_le (prefix_text keyword gap rest) hleads ?_)
    simp only [List.length_map, List.length_append, List.length_singleton]
    omega

theorem find?_single_eq_none_of_unextended :
    (ofKeywords .single words).find? (keyword ++ ' ' :: gap ++ rest) = none := by
  rw [Option.eq_none_iff_forall_ne_some]
  intro found hfound
  obtain ⟨-, w, hw, -, hfolded⟩ := find?_single_eq_some_iff.mp hfound
  refine hunextended w hw ?_
  rw [sameFolded_iff.mp hfolded]
  exact prefix_text keyword gap rest

end Pattern

/-! ## Keywords that stand first -/

namespace Registry

variable {registry : Registry} {dictionary : Dictionary} {tags : Tags} {keyword input : Text}
  (hdrawn : registry.DrawnFrom dictionary) (hblank : isBlankText input = false)

include hdrawn hblank

/-- **A keyword that stands first takes the text behind it**, whatever the text says. -/
theorem StandsFirst.expression?_keyword (h : registry.StandsFirst keyword) (tags : Tags) :
    (Grammar.ofVocabulary registry tags).expression? (keyword ++ ' ' :: input) =
      (subjectAtom? input).map (.typed keyword) := by
  obtain ⟨hnotBlank, gap, hgap, htrim⟩ := exists_trim_keyword h.tight hblank
  have hzeroary : ∀ w ∈ registry.zeroary, ¬ (keyword ++ [' ']).map fold <+: w.map fold :=
    fun w hw => h.unextended w (hdrawn.mem_types_of_mem_zeroary hw)
  rw [Grammar.expression?_eq_ofFound registry tags hnotBlank, htrim,
    Pattern.find?_single_eq_none_of_unextended hzeroary,
    Pattern.find?_portion_of_unextended h.unextended h.tight h.known hgap (isTight_trim hblank),
    subjectAtom?_of_not_blank hblank]
  simp only [Expression.ofFound, h.tight.trim_eq, Option.map_some]

/-- **A tag that stands first takes the text behind it**, whatever the text says. -/
theorem TagStandsFirst.expression?_tag (h : registry.TagStandsFirst tags keyword) :
    (Grammar.ofVocabulary registry tags).expression? (keyword ++ ' ' :: input) =
      (subjectAtom? input).map (.tagged keyword) := by
  obtain ⟨hnotBlank, gap, hgap, htrim⟩ := exists_trim_keyword h.tight hblank
  have htypes : ∀ w ∈ registry.types, ¬ (keyword ++ [' ']).map fold <+: w.map fold :=
    fun w hw => h.unextended w (List.mem_append_left _ hw)
  have htags : ∀ w ∈ tags.words, ¬ (keyword ++ [' ']).map fold <+: w.map fold :=
    fun w hw => h.unextended w (List.mem_append_right _ hw)
  have hzeroary : ∀ w ∈ registry.zeroary, ¬ (keyword ++ [' ']).map fold <+: w.map fold :=
    fun w hw => htypes w (hdrawn.mem_types_of_mem_zeroary hw)
  rw [Grammar.expression?_eq_ofFound registry tags hnotBlank, htrim,
    Pattern.find?_single_eq_none_of_unextended hzeroary,
    Pattern.find?_portion_eq_none_of_unled htypes h.unled,
    Pattern.find?_portion_of_unextended htags h.tight h.known hgap (isTight_trim hblank),
    subjectAtom?_of_not_blank hblank]
  simp only [Expression.ofFound, h.tight.trim_eq, Option.map_some]

end Registry

/-! ## The names of the built-in type operators -/

section Builtin

variable {registry : Registry} (hdrawn : registry.DrawnFrom .builtin) (kind : TypeOperator)

include hdrawn

theorem standsFirst_name : registry.StandsFirst kind.name := by
  have hwords : ∀ w ∈ Dictionary.builtin.types.words,
      ((kind.name ++ [' ']).map fold).isPrefixOf (w.map fold) = false := by
    cases kind <;> decide +kernel
  refine ⟨?_, ?_, fun w hw => ?_⟩
  · rw [← isNameAtom_iff]
    cases kind <;> decide
  · rw [hdrawn.types]
    cases kind <;> decide +kernel
  · rw [hdrawn.types] at hw
    rw [← List.isPrefixOf_iff_prefix, hwords w hw]
    simp

theorem typeOperator?_name : registry.typeOperator? kind.name = some kind := by
  rw [hdrawn.typeOperator?_eq]
  cases kind <;> decide +kernel

end Builtin

end LineageSearch
