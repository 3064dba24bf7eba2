import LineageSearch.Proofs.Query.Matches
import LineageSearch.Query.Expression

/-!
# Texts without keywords

A text in which no keyword occurs is read as a bare subject at once, without a look at the
other alternatives.  This file proves that the short cut changes no answer: reading by
priority alone gives the same expression (`expression?_eq_expressionByPriority?`).

Tags, type operators and lone keywords are looked for in three lists of words, and the
short cut looks for the words of all three anywhere in the text.  A word that leads the
text, or is the whole of it, occurs in it, so where the short cut is taken no other
alternative fits.
-/

namespace LineageSearch.Grammar

/-- A search text read by the priority of the alternatives alone. -/
def expressionByPriority? (grammar : Grammar) (input : Text) : Option Expression :=
  let text := Text.trim input
  if text.isEmpty then none else Alternative.priority.findSome? (grammar.readAs? text)

section Plain

variable {registry : Registry} {tags : Tags} {text : Text}

theorem not_occurs_of_plain
    (hplain : (ofVocabulary registry tags).plain.accepts text = true) {w : Text}
    (hw : w ∈ tags.words ∨ w ∈ registry.types ∨ w ∈ registry.zeroary) (hne : w ≠ []) :
    ¬ w.map fold <:+: text.map fold := by
  refine Pattern.accepts_none_iff.mp hplain w ?_ hne
  simpa [or_assoc] using hw

theorem term?_portion_eq_none {words : List Text}
    (h : ∀ w ∈ words, w ≠ [] → ¬ w.map fold <:+: text.map fold) :
    term? (.ofKeywords .portion words) text = none := by
  rw [term?, Option.map_eq_none_iff, Option.eq_none_iff_forall_ne_some]
  intro found hfound
  obtain ⟨w, hw, hne, hlead⟩ := Pattern.exists_of_find?_portion hfound
  exact h w hw hne (occurs_of_leadingKeyword? hlead)

theorem term?_single_eq_none {words : List Text}
    (h : ∀ w ∈ words, w ≠ [] → ¬ w.map fold <:+: text.map fold) :
    term? (.ofKeywords .single words) text = none := by
  rw [term?, Option.map_eq_none_iff, Option.eq_none_iff_forall_ne_some]
  intro found hfound
  obtain ⟨-, w, hw, hne, hfolded⟩ := Pattern.find?_single_eq_some_iff.mp hfound
  exact h w hw hne (occurs_of_sameFolded hfolded)

/-- A plain text fits no alternative but the last. -/
theorem readAs?_of_plain
    (hplain : (ofVocabulary registry tags).plain.accepts text = true) :
    Alternative.priority.findSome? ((ofVocabulary registry tags).readAs? text) =
      (subjectAtom? text).map .bare := by
  have hzeroary : term? (ofVocabulary registry tags).zeroaryTerm text = none :=
    term?_single_eq_none fun w hw => not_occurs_of_plain hplain (Or.inr (Or.inr hw))
  have htype : term? (ofVocabulary registry tags).typeTerm text = none :=
    term?_portion_eq_none fun w hw => not_occurs_of_plain hplain (Or.inr (Or.inl hw))
  have htag : term? (ofVocabulary registry tags).tagTerm text = none :=
    term?_portion_eq_none fun w hw => not_occurs_of_plain hplain (Or.inl hw)
  simp only [Alternative.priority, List.findSome?_cons, readAs?, hzeroary, htype, htag,
    Option.map_none, Option.bind_none, List.findSome?_nil]
  cases (subjectAtom? text).map Expression.bare <;> rfl

/-- A text that is not blank is read by the priority of the alternatives. -/
theorem expression?_of_not_blank {input : Text} (hblank : Text.isBlankText input = false) :
    (ofVocabulary registry tags).expression? input =
      Alternative.priority.findSome? ((ofVocabulary registry tags).readAs? (Text.trim input)) := by
  have hne : ¬ (Text.trim input).isEmpty = true := by
    simpa using (Text.isTight_trim hblank).ne_nil
  dsimp only [expression?]
  rw [if_neg hne]
  split
  · next hplain => rw [readAs?_of_plain hplain]
  · rfl

end Plain

/-- **The short cut for plain texts changes no answer.** -/
theorem expression?_eq_expressionByPriority? (registry : Registry) (tags : Tags)
    (input : Text) :
    (ofVocabulary registry tags).expression? input =
      (ofVocabulary registry tags).expressionByPriority? input := by
  dsimp only [expression?, expressionByPriority?]
  split
  · rfl
  · split
    · next hplain => rw [readAs?_of_plain hplain]
    · rfl

end LineageSearch.Grammar
