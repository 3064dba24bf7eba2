import LineageSearch.Proofs.Query.Backtracking
import LineageSearch.Proofs.Query.Lossless
import LineageSearch.Proofs.Query.UnmentionedKeywords

/-!
# A portion finds the longest keyword that can be used

A keyword can be used for a text if it leads the text, whatever the case of its letters, and not
only blanks stand behind it (`Usable`).  A portion finds something exactly if one of its keywords
can be used, and it finds the longest of these (`Pattern.find?_portion_longest_usable`).  The order
in which it was given its keywords makes no difference, nor does it matter how often.

The length of a keyword is counted in characters, but what a portion takes of a text is counted in
bytes: letters that fold alike may differ in their width.
-/

namespace LineageSearch

open Text

/-! ## Usable keywords -/

/-- Whether a keyword leads a text with something other than blanks behind it. -/
structure Usable (text keyword : Text) : Prop where
  notEmpty : keyword ≠ []
  leads : keyword.map fold = (text.take keyword.length).map fold
  goesOn : isBlankText (text.drop keyword.length) = false

section Usable

variable {text keyword : Text} {found : Found}

theorem Usable.length_take (h : Usable text keyword) :
    (text.take keyword.length).length = keyword.length := by
  have hlength := congrArg List.length h.leads
  rw [List.length_map, List.length_map] at hlength
  exact hlength.symm

/-- What is found of a keyword that can be used. -/
theorem Usable.leadingKeyword?_eq (h : Usable text keyword) :
    leadingKeyword? text keyword = some
      ⟨text.take keyword.length, (text.drop keyword.length).takeWhile isBlank,
        (text.drop keyword.length).dropWhile isBlank⟩ := by
  have hfolded : sameFolded keyword (text.take keyword.length) = true := sameFolded_iff.mpr h.leads
  dsimp only [leadingKeyword?]
  rw [hfolded, h.goesOn]
  rfl

theorem usable_of_leadingKeyword? (hne : keyword ≠ [])
    (h : leadingKeyword? text keyword = some found) : Usable text keyword := by
  dsimp only [leadingKeyword?] at h
  split at h
  · next htest =>
    obtain ⟨hfolded, hgoesOn⟩ := Bool.and_eq_true_iff.mp htest
    rw [Bool.not_eq_true'] at hgoesOn
    exact ⟨hne, sameFolded_iff.mp hfolded, hgoesOn⟩
  · cases h

theorem leadingKeyword?_eq_none_iff (hne : keyword ≠ []) :
    leadingKeyword? text keyword = none ↔ ¬ Usable text keyword := by
  constructor
  · intro hnone husable
    rw [husable.leadingKeyword?_eq] at hnone
    cases hnone
  · intro hunusable
    rw [Option.eq_none_iff_forall_ne_some]
    intro found hfound
    exact hunusable (usable_of_leadingKeyword? hne hfound)

end Usable

/-! ## The longest of them -/

/-- Whether a text falls apart at the longest of the keywords that can be used for it: the keyword
as written, all blanks behind it, and a rest that begins with something else. -/
structure Found.IsLongest (found : Found) (keywords : List Text) (text : Text) : Prop where
  usable : ∃ w ∈ keywords, Usable text w ∧ found.keyword = text.take w.length
  longest : ∀ w ∈ keywords, Usable text w → w.length ≤ found.keyword.length
  gap : found.gap = (text.drop found.keyword.length).takeWhile isBlank
  consumed : found.consumed = byteLength found.keyword + byteLength found.gap
  within : found.consumed < byteLength text
  cut : Grammar.IsCutBefore found.consumed text found.rest
  next : ∃ c ∈ found.rest.head?, isBlank c = false

namespace Pattern

variable {keywords others : List Text} {text : Text} {found : Found}

theorem isSome_find?_portion_iff :
    ((ofKeywords .portion keywords).find? text).isSome = true ↔ ∃ w ∈ keywords, Usable text w := by
  rw [Option.isSome_iff_ne_none, ne_eq, find?_portion_eq_none_iff]
  constructor
  · intro hsome
    by_contra hunusable
    refine hsome fun w hw hne => (leadingKeyword?_eq_none_iff hne).mpr fun husable => ?_
    exact hunusable ⟨w, hw, husable⟩
  · rintro ⟨w, hw, husable⟩ hnone
    have hlead := hnone w hw husable.notEmpty
    rw [husable.leadingKeyword?_eq] at hlead
    cases hlead

theorem isLongest_of_find?_portion (h : (ofKeywords .portion keywords).find? text = some found) :
    found.IsLongest keywords text := by
  obtain ⟨keyword, hkeyword, hne, hlead, hlongest⟩ := find?_portion_eq_some_iff.mp h
  have husable := usable_of_leadingKeyword? hne hlead
  obtain ⟨hsplit, -, -, c, hhead, hc⟩ := leadingKeyword?_eq_some_iff.mp hlead
  have hfound := Option.some_inj.mp (hlead.symm.trans husable.leadingKeyword?_eq)
  have hpiece : found.keyword = text.take keyword.length := by rw [hfound]
  have hlength : found.keyword.length = keyword.length := by rw [hpiece, husable.length_take]
  refine ⟨⟨keyword, hkeyword, husable, hpiece⟩, ?_, ?_, byteLength_append _ _, ?_,
    Grammar.isCutBefore_of_split hsplit, ⟨c, hhead, hc⟩⟩
  · intro w hw hw'
    rw [hlength]
    by_contra hlt
    exact (leadingKeyword?_eq_none_iff hw'.notEmpty).mp (hlongest w hw (by omega)) hw'
  · rw [hlength, hfound]
  · -- the rest is a character at least, which is a byte at least
    obtain ⟨behind, hrest⟩ := List.head?_eq_some_iff.mp hhead
    have hwidth : 0 < c.utf8Size := c.utf8Size_pos
    have hbytes : byteLength found.rest = c.utf8Size + byteLength behind := by rw [hrest]; rfl
    simp only [hsplit, Found.consumed, byteLength_append, hbytes]
    omega

/-- **A portion finds the longest keyword that can be used**, and so does its regular expression.
It finds nothing exactly if no keyword can be used, and the order and repetition of the keywords
make no difference. -/
theorem find?_portion_longest_usable (keywords : List Text) (text : Text) :
    let portion := ofKeywords .portion keywords
    portion.find? text = search? .portion keywords text ∧
      portion.accepts text = isMatch .portion keywords text ∧
      ((portion.find? text).isSome = true ↔ ∃ w ∈ keywords, Usable text w) ∧
      (portion.accepts text = true ↔ ∃ w ∈ keywords, Usable text w) ∧
      (∀ found, portion.find? text = some found → found.IsLongest keywords text) ∧
      ∀ others, (∀ w, w ∈ others ↔ w ∈ keywords) →
        (ofKeywords .portion others).find? text = portion.find? text ∧
          (ofKeywords .portion others).accepts text = portion.accepts text := by
  intro portion
  refine ⟨find?_eq_search? .portion keywords text, accepts_eq_isMatch .portion keywords text,
    isSome_find?_portion_iff, isSome_find?_portion_iff, fun _ => isLongest_of_find?_portion, ?_⟩
  intro others hsame
  have hfind : (ofKeywords .portion others).find? text = portion.find? text :=
    find?_portion_eq_of_agreeOn fun w _ _ => hsame w
  exact ⟨hfind, by rw [accepts, accepts, hfind]⟩

/-- The longer of two keywords is found, unless nothing stands behind it. -/
theorem find?_portion_longest_usable_born_before :
    (∃ found, (ofKeywords .portion ["born".toList, "born before".toList]).find?
        "Born  before".toList = some found ∧
      found.IsLongest ["born".toList, "born before".toList] "Born  before".toList) ∧
    (∃ found, (ofKeywords .portion ["born".toList, "born before".toList]).find?
        "BORN BEFORE 2012".toList = some found ∧
      found.keyword = "BORN BEFORE".toList ∧ found.consumed = 12 ∧
      found.IsLongest ["born".toList, "born before".toList] "BORN BEFORE 2012".toList) := by
  constructor
  · exact ⟨⟨"Born".toList, [' ', ' '], "before".toList⟩, by decide +kernel,
      (find?_portion_longest_usable _ _).2.2.2.2.1 _ (by decide +kernel)⟩
  · exact ⟨⟨"BORN BEFORE".toList, [' '], "2012".toList⟩, by decide +kernel, rfl, by decide +kernel,
      (find?_portion_longest_usable _ _).2.2.2.2.1 _ (by decide +kernel)⟩

end Pattern

end LineageSearch
