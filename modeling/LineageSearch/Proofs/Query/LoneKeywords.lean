import LineageSearch.Proofs.Query.Readings
import LineageSearch.Proofs.Query.UsableKeywords
import LineageSearch.Vocabulary.Builtin

/-!
# Keywords that stand alone

A text that is a keyword and nothing else has no subject, so one expects it to be read as a lone
keyword, or else as the name that it spells: `panda` is a name.  Mostly it is.  But a portion only
asks for something behind its keyword, and a shorter keyword may find that in the longer one:
`yawning` is read as the tag `yawn` with the subject `ing`, although longer keywords are tried
first.

The text is read as a name exactly if no keyword of a type and no tag is the beginning of it
(`Grammar.expression?_lone_text`).  Among the built-in keywords this fails for two, `yawning` and
`climbing` (`shadowed_builtin_iff`).

## Strategy

The last letter of a tight text is no blank.  So if a keyword leads the text and is shorter, there
is something behind it, and the keyword can be used; if it is not shorter, there is nothing behind
it.  Which keywords can be used is all that portions know of a text.
-/

namespace LineageSearch

open Text

/-! ## Keywords in front of others -/

/-- Whether a keyword is the beginning of a longer text, whatever their case. -/
structure Shadows (keyword text : Text) : Prop where
  notEmpty : keyword ≠ []
  shorter : keyword.length < text.length
  leads : keyword.map fold <+: text.map fold

instance (keyword text : Text) : Decidable (Shadows keyword text) :=
  decidable_of_iff (keyword ≠ [] ∧ keyword.length < text.length ∧
      keyword.map fold <+: text.map fold)
    ⟨fun ⟨hne, hlt, hleads⟩ => ⟨hne, hlt, hleads⟩, fun h => ⟨h.notEmpty, h.shorter, h.leads⟩⟩

section Shadows

variable {keyword text : Text}

/-- The keywords that can be used for a tight text are those that stand in front of it. -/
theorem usable_iff_shadows (htight : IsTight text) :
    Usable text keyword ↔ Shadows keyword text := by
  constructor
  · intro husable
    refine ⟨husable.notEmpty, ?_, ?_⟩
    · by_contra hlonger
      have hgoesOn := husable.goesOn
      rw [List.drop_of_length_le (Nat.not_lt.mp hlonger)] at hgoesOn
      cases hgoesOn
    · rw [husable.leads, List.map_take]
      exact List.take_prefix _ _
  · intro hshadows
    refine ⟨hshadows.notEmpty, ?_, htight.drop_not_blank hshadows.shorter⟩
    have hleads := List.prefix_iff_eq_take.mp hshadows.leads
    rw [List.length_map] at hleads
    rw [List.map_take]
    exact hleads

end Shadows

/-! ## How they are read -/

namespace Grammar

variable {words : List Text} {text before after : Text}

theorem find?_portion_lone_eq_none_iff (htight : IsTight text) :
    (Pattern.ofKeywords .portion words).find? text = none ↔ ∀ k ∈ words, ¬ Shadows k text := by
  rw [← Option.not_isSome_iff_eq_none, Pattern.isSome_find?_portion_iff]
  simp only [usable_iff_shadows htight, not_exists, not_and]

theorem exists_find?_portion_lone (htight : IsTight text) (h : ∃ k ∈ words, Shadows k text) :
    ∃ found, (Pattern.ofKeywords .portion words).find? text = some found := by
  obtain ⟨k, hk, hshadows⟩ := h
  rw [← Option.isSome_iff_exists, Pattern.isSome_find?_portion_iff]
  exact ⟨k, hk, (usable_iff_shadows htight).mpr hshadows⟩

/-- Blanks around a tight text are of no account. -/
theorem expression?_between (registry : Registry) (tags : Tags) (htight : IsTight text)
    (hbefore : isBlankText before = true) (hafter : isBlankText after = true) :
    (ofVocabulary registry tags).expression? (before ++ text ++ after) =
      some (.ofFound text ((Pattern.ofKeywords .single registry.zeroary).find? text)
        ((Pattern.ofKeywords .portion registry.types).find? text)
        ((Pattern.ofKeywords .portion tags.words).find? text)) := by
  obtain ⟨first, hfirst, hstart⟩ := htight.1
  have hblank : isBlankText (before ++ text ++ after) = false := by
    rw [isBlankText_append, isBlankText_append, isBlankText_eq_false_of_head hfirst hstart,
      Bool.and_false, Bool.false_and]
  rw [expression?_eq_ofFound registry tags hblank, htight.trim_between hbefore hafter]

/-- **How a text is read that stands alone.**  It is a lone keyword if it is one up to case, and
otherwise the name that it spells, unless a type keyword or a tag is the beginning of it.  If one
is, the longest such type keyword or, without any, the longest such tag has the rest of the text as
its subject. -/
theorem expression?_lone_text (registry : Registry) (tags : Tags) (htight : IsTight text)
    (hbefore : isBlankText before = true) (hafter : isBlankText after = true) :
    let read := (ofVocabulary registry tags).expression? (before ++ text ++ after)
    ((∃ z ∈ registry.zeroary, sameFolded z text = true) → read = some (.zeroary text)) ∧
    ((¬ ∃ z ∈ registry.zeroary, sameFolded z text = true) →
      (read = some (.bare (.ofText text)) ↔
        ∀ k ∈ registry.types ++ tags.words, ¬ Shadows k text) ∧
      ((∃ k ∈ registry.types, Shadows k text) →
        ∃ found : Found, found.IsLongest registry.types text ∧
          read = some (.typed (trim found.keyword) (.ofText found.rest))) ∧
      ((∀ k ∈ registry.types, ¬ Shadows k text) → (∃ k ∈ tags.words, Shadows k text) →
        ∃ found : Found, found.IsLongest tags.words text ∧
          read = some (.tagged (trim found.keyword) (.ofText found.rest)))) := by
  intro read
  have hread : read = _ := expression?_between registry tags htight hbefore hafter
  rw [hread]
  constructor
  · rintro ⟨z, hz, hfolded⟩
    have hne : z ≠ [] := by
      rintro rfl
      exact htight.ne_nil (List.length_eq_zero_iff.mp (length_eq_of_sameFolded hfolded).symm)
    rw [Pattern.find?_single_eq_some_iff.mpr ⟨rfl, z, hz, hne, hfolded⟩]
    rfl
  · intro hzeroary
    have hlone : (Pattern.ofKeywords .single registry.zeroary).find? text = none := by
      rw [Option.eq_none_iff_forall_ne_some]
      intro found hfound
      obtain ⟨-, z, hz, -, hfolded⟩ := Pattern.find?_single_eq_some_iff.mp hfound
      exact hzeroary ⟨z, hz, hfolded⟩
    rw [hlone]
    refine ⟨?_, ?_, ?_⟩
    · rw [Option.some_inj, Expression.ofFound_eq_bare_iff, find?_portion_lone_eq_none_iff htight,
        find?_portion_lone_eq_none_iff htight, List.forall_mem_append]
      simp only [true_and, and_true]
    · intro htypes
      obtain ⟨found, hfound⟩ := exists_find?_portion_lone htight htypes
      rw [hfound]
      exact ⟨found, Pattern.isLongest_of_find?_portion hfound, rfl⟩
    · intro htypes htags
      obtain ⟨found, hfound⟩ := exists_find?_portion_lone htight htags
      rw [(find?_portion_lone_eq_none_iff htight).mpr htypes, hfound]
      exact ⟨found, Pattern.isLongest_of_find?_portion hfound, rfl⟩

/-- The built-in `yawning` is no lone keyword, and the built-in `yawn` is its beginning. -/
theorem expression?_lone_text_yawning : ∃ (registry : Registry) (found : Found),
    Registry.ofDictionary .builtin false = .ok registry ∧
      "yawning".toList ∈ Tags.builtin.words ∧
      found.IsLongest Tags.builtin.words "yawning".toList ∧
      (ofVocabulary registry Tags.builtin).expression? " yawning ".toList =
        some (.tagged (trim found.keyword) (.ofText found.rest)) ∧
      (ofVocabulary registry Tags.builtin).expression? " yawning ".toList =
        some (.tagged "yawn".toList (.name "ing".toList)) := by
  have hcomputed : (Registry.ofDictionary .builtin false).toOption.map (fun registry =>
      ((ofVocabulary registry Tags.builtin).expression? " yawning ".toList,
        decide (∃ z ∈ registry.zeroary, sameFolded z "yawning".toList = true),
        decide (∀ k ∈ registry.types, ¬ Shadows k "yawning".toList))) =
      some (some (.tagged "yawn".toList (.name "ing".toList)), false, true) := by decide +kernel
  cases hregistry : Registry.ofDictionary .builtin false with
  | error reason => simp [hregistry, Except.toOption] at hcomputed
  | ok registry =>
    simp only [hregistry, Except.toOption, Option.map_some, Option.some_inj, Prod.mk.injEq,
      decide_eq_true_eq, decide_eq_false_iff_not] at hcomputed
    obtain ⟨hread, hzeroary, htypes⟩ := hcomputed
    have htight : IsTight "yawning".toList := isNameAtom_iff.mp (by decide)
    have hblank : isBlankText [' '] = true := by decide
    have hlone := expression?_lone_text registry Tags.builtin htight hblank hblank
    obtain ⟨found, hlongest, htagged⟩ := (hlone.2 hzeroary).2.2 htypes (by decide +kernel)
    exact ⟨registry, found, rfl, by decide +kernel, hlongest, htagged, hread⟩

end Grammar

/-- The built-in keywords that have another one as their beginning. -/
theorem shadowed_builtin_iff :
    ∀ w ∈ Dictionary.builtin.types.words ++ Tags.builtin.words,
      (∃ k ∈ Dictionary.builtin.types.words ++ Tags.builtin.words, Shadows k w) ↔
        w ∈ ["yawning".toList, "climbing".toList] := by
  decide +kernel

end LineageSearch
