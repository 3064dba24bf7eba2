import LineageSearch.Proofs.Query.Readings
import LineageSearch.Proofs.Vocabulary.Indexes

/-!
# Keywords that a text does not mention

A vocabulary may be extended without harm to the texts in which none of the new words occurs: they
are read as before, wherever the new words were put (`expression?_eq_of_inserted`).  Operators
other than those of types are no keywords at all, so changing them changes no reading.

## Strategy

The longest keyword that leads a text does not depend on how the keywords are ordered, and a keyword
that leads the text occurs in it.  So a pattern finds the same with two lists of words that have the
same words among those that occur in the text (`AgreeOn`), and a text is read by what three patterns
find in it.  That a text is plain for one vocabulary and not for the other makes no difference, as
the short cut for plain texts changes no answer.
-/

namespace LineageSearch

open Text

/-! ## Words that occur in a text -/

/-- Whether a word occurs somewhere in a text, whatever their case. -/
def Text.Mentions (t w : Text) : Prop := w.map fold <:+: t.map fold

instance (t w : Text) : Decidable (Mentions t w) :=
  inferInstanceAs (Decidable (w.map fold <:+: t.map fold))

/-- Whether two lists have the same words among those that occur in a text.  Empty words are
disregarded. -/
def AgreeOn (t : Text) (first second : List Text) : Prop :=
  ∀ w, w ≠ [] → Mentions t w → (w ∈ first ↔ w ∈ second)

theorem AgreeOn.refl {t : Text} {words : List Text} : AgreeOn t words words :=
  fun _ _ _ => Iff.rfl

theorem AgreeOn.symm {t : Text} {first second : List Text} (h : AgreeOn t first second) :
    AgreeOn t second first :=
  fun w hne hw => (h w hne hw).symm

/-- Whether a list of words is another one into which extra words were put, anywhere. -/
inductive Inserted : (old extra new : List Text) → Prop
  | nil : Inserted [] [] []
  | kept (w : Text) {old extra new : List Text} :
      Inserted old extra new → Inserted (w :: old) extra (w :: new)
  | added (w : Text) {old extra new : List Text} :
      Inserted old extra new → Inserted old (w :: extra) (w :: new)

theorem Inserted.mem_iff {old extra new : List Text} (h : Inserted old extra new) {w : Text} :
    w ∈ new ↔ w ∈ old ∨ w ∈ extra := by
  induction h with
  | nil => simp
  | kept other _ ih => rw [List.mem_cons, List.mem_cons, ih, or_assoc]
  | added other _ ih => rw [List.mem_cons, List.mem_cons, ih, or_left_comm]

theorem Inserted.agreeOn {old extra new : List Text} {t : Text} (h : Inserted old extra new)
    (hextra : ∀ w ∈ extra, w ≠ [] → ¬ Mentions t w) : AgreeOn t old new := by
  intro w hne hw
  rw [h.mem_iff]
  exact (or_iff_left fun hmem => hextra w hmem hne hw).symm

/-! ## What patterns of such words find -/

namespace Pattern

variable {t : Text} {first second : List Text} {found : Found}

theorem find?_portion_of_agreeOn (h : AgreeOn t first second)
    (hfound : (ofKeywords .portion first).find? t = some found) :
    (ofKeywords .portion second).find? t = some found := by
  obtain ⟨keyword, hkeyword, hne, hlead, hlongest⟩ := find?_portion_eq_some_iff.mp hfound
  have hmem : keyword ∈ second :=
    (h keyword hne (occurs_of_leadingKeyword? hlead)).mp hkeyword
  refine find?_portion_eq_some_iff.mpr ⟨keyword, hmem, hne, hlead, fun w hw hlt => ?_⟩
  rw [Option.eq_none_iff_forall_ne_some]
  intro other hother
  -- a longer keyword that leads the text occurs in it, so the first list has it, too
  have hwne : w ≠ [] := by
    rintro rfl
    exact absurd hlt (Nat.not_lt_zero _)
  have hfirst : w ∈ first := (h w hwne (occurs_of_leadingKeyword? hother)).mpr hw
  rw [hlongest w hfirst hlt] at hother
  cases hother

theorem find?_single_of_agreeOn (h : AgreeOn t first second)
    (hfound : (ofKeywords .single first).find? t = some found) :
    (ofKeywords .single second).find? t = some found := by
  obtain ⟨rfl, w, hw, hne, hfolded⟩ := find?_single_eq_some_iff.mp hfound
  have hmem : w ∈ second := (h w hne (occurs_of_sameFolded hfolded)).mp hw
  exact find?_single_eq_some_iff.mpr ⟨rfl, w, hmem, hne, hfolded⟩

theorem find?_portion_eq_of_agreeOn (h : AgreeOn t first second) :
    (ofKeywords .portion first).find? t = (ofKeywords .portion second).find? t :=
  Option.ext fun _ => ⟨find?_portion_of_agreeOn h, find?_portion_of_agreeOn h.symm⟩

theorem find?_single_eq_of_agreeOn (h : AgreeOn t first second) :
    (ofKeywords .single first).find? t = (ofKeywords .single second).find? t :=
  Option.ext fun _ => ⟨find?_single_of_agreeOn h, find?_single_of_agreeOn h.symm⟩

end Pattern

/-! ## How such vocabularies read the text -/

namespace Grammar

/-- **A text is read by the keywords that occur in it.** -/
theorem expression?_eq_of_agreeOn {registry other : Registry} {tags otherTags : Tags}
    {input : Text} (htypes : AgreeOn (trim input) registry.types other.types)
    (hzeroary : AgreeOn (trim input) registry.zeroary other.zeroary)
    (htags : AgreeOn (trim input) tags.words otherTags.words) :
    (ofVocabulary registry tags).expression? input =
      (ofVocabulary other otherTags).expression? input := by
  by_cases hblank : isBlankText input = true
  · rw [expression?_eq_none_iff.mpr hblank, expression?_eq_none_iff.mpr hblank]
  · rw [Bool.not_eq_true] at hblank
    rw [expression?_eq_ofFound registry tags hblank, expression?_eq_ofFound other otherTags hblank,
      Pattern.find?_single_eq_of_agreeOn hzeroary, Pattern.find?_portion_eq_of_agreeOn htypes,
      Pattern.find?_portion_eq_of_agreeOn htags]

/-- **Keywords that do not occur in a text change nothing about how it is read.**  A vocabulary
whose words are those of another one, with extra words put anywhere among them, reads every text
without extra words as the other one does.  If the two have the same type operators and tags, they
read every text alike, whatever their other operators are. -/
theorem expression?_eq_of_inserted {dictionary extended : Dictionary} {tags extendedTags : Tags}
    {strict extendedStrict : Bool} {registry other : Registry}
    (hregistry : Registry.ofDictionary dictionary strict = .ok registry)
    (hother : Registry.ofDictionary extended extendedStrict = .ok other) :
    (∀ extraTypes extraZeroary extraTags input,
      Inserted dictionary.types.words extraTypes extended.types.words →
      Inserted dictionary.zeroaryWords extraZeroary extended.zeroaryWords →
      Inserted tags.words extraTags extendedTags.words →
      (∀ w ∈ extraTypes ++ extraZeroary ++ extraTags, w ≠ [] → ¬ Mentions (trim input) w) →
        (ofVocabulary registry tags).expression? input =
          (ofVocabulary other extendedTags).expression? input) ∧
    (dictionary.types = extended.types → tags = extendedTags →
      ∀ input, (ofVocabulary registry tags).expression? input =
        (ofVocabulary other extendedTags).expression? input) := by
  have hdrawn := Registry.drawnFrom_of_ofDictionary hregistry
  have hdrawnOther := Registry.drawnFrom_of_ofDictionary hother
  constructor
  · intro extraTypes extraZeroary extraTags input htypes hzeroary htags hextra
    simp only [List.mem_append] at hextra
    apply expression?_eq_of_agreeOn
    · rw [hdrawn.types, hdrawnOther.types]
      exact htypes.agreeOn fun w hw => hextra w (Or.inl (Or.inl hw))
    · rw [hdrawn.zeroary, hdrawnOther.zeroary]
      exact hzeroary.agreeOn fun w hw => hextra w (Or.inl (Or.inr hw))
    · exact htags.agreeOn fun w hw => hextra w (Or.inr hw)
  · rintro htypes rfl input
    apply expression?_eq_of_agreeOn
    · rw [hdrawn.types, hdrawnOther.types, htypes]
      exact AgreeOn.refl
    · rw [hdrawn.zeroary, hdrawnOther.zeroary, Dictionary.zeroaryWords, htypes]
      exact AgreeOn.refl
    · exact AgreeOn.refl

/-- A longer type keyword, a lone keyword and a tag are put in front of `panda`.  The text has
`red` in it, and none of the three. -/
theorem expression?_eq_of_inserted_red_panda :
    let words (forms : List String) : Keywords := .ofWords (forms.map String.toList)
    let dictionary : Dictionary :=
      { types := { entries := [("panda".toList, words ["panda"])] } }
    let extended : Dictionary := { types := { entries :=
      [("baby".toList, words ["cub"]), ("panda".toList, words ["red panda", "panda"])] } }
    let tags : Tags := { entries := [("red".toList, words ["in red,"])] }
    let input := "panda in red".toList
    ∃ registry other, Registry.ofDictionary dictionary false = .ok registry ∧
      Registry.ofDictionary extended false = .ok other ∧
      (ofVocabulary other tags).expression? input =
        some (.typed "panda".toList (.name "in red".toList)) ∧
      (ofVocabulary registry .empty).expression? input =
        (ofVocabulary other tags).expression? input := by
  intro words dictionary extended tags input
  have hread : (Registry.ofDictionary extended false).toOption.map
      (fun other => (ofVocabulary other tags).expression? input) =
      some (some (.typed "panda".toList (.name "in red".toList))) := by
    decide +kernel
  have htypes : Inserted dictionary.types.words ["cub".toList, "red panda".toList]
      extended.types.words := .added _ (.added _ (.kept _ .nil))
  have hzeroary : Inserted dictionary.zeroaryWords ["cub".toList] extended.zeroaryWords :=
    .added _ .nil
  have htags : Inserted Vocabulary.empty.words ["in red,".toList] tags.words := .added _ .nil
  obtain ⟨registry, hregistry⟩ : ∃ registry,
      Registry.ofDictionary dictionary false = .ok registry := ⟨_, rfl⟩
  cases hother : Registry.ofDictionary extended false with
  | error reason => simp [hother, Except.toOption] at hread
  | ok other =>
    simp only [hother, Except.toOption, Option.map_some, Option.some_inj] at hread
    exact ⟨registry, other, hregistry, rfl, hread,
      (expression?_eq_of_inserted hregistry hother).1 _ _ _ input htypes hzeroary htags
        (by decide +kernel)⟩

end Grammar

end LineageSearch
