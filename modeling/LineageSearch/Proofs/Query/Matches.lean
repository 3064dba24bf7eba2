import LineageSearch.Proofs.Text.CaseFolding
import LineageSearch.Query.Pattern
import Mathlib.Data.List.Infix

/-!
# What a pattern finds

A pattern is built from a list of keywords, of which it keeps those that are not empty,
the longest first.  Here its three kinds are described by the keywords they were built
from, so that no later proof has to open `Pattern.find?`.

* `leadingKeyword?_eq_some_iff`: a keyword leads a text when the text is the keyword up to
  case, then blanks, then something that does not begin with a blank.
* `find?_portion_eq_some_iff`, `find?_single_eq_some_iff`, `accepts_none_iff`: what a portion, a
  single and a none say about the text.

A keyword that leads a text or is the whole of it also occurs in it
(`occurs_of_leadingKeyword?`, `occurs_of_sameFolded`), which ties the first two kinds to
the third.
-/

namespace LineageSearch

/-! ## Contiguous pieces -/

theorem Text.occursIn_iff_isInfix {piece t : Text} :
    Text.occursIn piece t = true ↔ piece <:+: t := by
  induction t with
  | nil => simp [Text.occursIn]
  | cons c rest ih =>
    rw [Text.occursIn, Bool.or_eq_true, List.isPrefixOf_iff_prefix, ih, List.infix_cons_iff]

/-! ## A leading keyword -/

/-- How a text falls apart at a keyword that leads it. -/
theorem leadingKeyword?_eq_some_iff {text keyword : Text} {found : Found} :
    leadingKeyword? text keyword = some found ↔
      text = found.keyword ++ found.gap ++ found.rest ∧
        Text.sameFolded keyword found.keyword = true ∧
        Text.isBlankText found.gap = true ∧ ∃ c ∈ found.rest.head?, isBlank c = false := by
  dsimp only [leadingKeyword?]
  constructor
  · intro hfound
    split at hfound
    · next htest =>
      obtain ⟨hfolded, hblank⟩ := Bool.and_eq_true_iff.mp htest
      obtain rfl := Option.some_inj.mp hfound
      refine ⟨?_, hfolded, Text.isBlankText_takeWhile _, ?_⟩
      · rw [List.append_assoc, List.takeWhile_append_dropWhile, List.take_append_drop]
      · -- the rest is not empty, for something other than blanks stands behind the keyword
        obtain ⟨c, rest, hrest⟩ : ∃ c rest,
            (text.drop keyword.length).dropWhile isBlank = c :: rest := by
          refine List.exists_cons_of_ne_nil fun hnil => ?_
          rw [List.dropWhile_eq_nil_iff] at hnil
          rw [Text.isBlankText, List.all_eq_true.mpr hnil] at hblank
          simp at hblank
        refine ⟨c, by rw [hrest]; rfl, ?_⟩
        exact Text.not_isBlank_of_mem_head?_dropWhile (by rw [hrest]; rfl)
    · simp at hfound
  · obtain ⟨piece, gap, rest⟩ := found
    rintro ⟨rfl, hfolded, hgap, c, hhead, hc⟩
    have hlength : keyword.length = piece.length := Text.length_eq_of_sameFolded hfolded
    obtain ⟨tail, rfl⟩ : ∃ tail, rest = c :: tail := List.head?_eq_some_iff.mp hhead
    have hgapAll : ∀ a ∈ gap, isBlank a = true := List.all_eq_true.mp hgap
    have htake : (piece ++ gap ++ c :: tail).take keyword.length = piece := by
      rw [hlength, List.append_assoc, List.take_left]
    have hdrop : (piece ++ gap ++ c :: tail).drop keyword.length = gap ++ c :: tail := by
      rw [hlength, List.append_assoc, List.drop_left]
    simp only [htake, hdrop]
    rw [if_pos (by simp [hfolded, Text.isBlankText, hc]), List.takeWhile_append_of_pos hgapAll,
      List.dropWhile_append_of_pos hgapAll]
    simp [hc]

theorem prefix_of_leadingKeyword? {text keyword : Text} {found : Found}
    (h : leadingKeyword? text keyword = some found) :
    keyword.map fold <+: text.map fold := by
  obtain ⟨htext, hfolded, -, -⟩ := leadingKeyword?_eq_some_iff.mp h
  rw [Text.sameFolded_iff.mp hfolded, htext, List.append_assoc, List.map_append]
  exact List.prefix_append _ _

theorem occurs_of_leadingKeyword? {text keyword : Text} {found : Found}
    (h : leadingKeyword? text keyword = some found) :
    keyword.map fold <:+: text.map fold :=
  (prefix_of_leadingKeyword? h).isInfix

theorem occurs_of_sameFolded {text keyword : Text}
    (h : Text.sameFolded keyword text = true) : keyword.map fold <:+: text.map fold := by
  rw [Text.sameFolded_iff.mp h]

/-- How a text falls apart depends on the length of the keyword only. -/
theorem leadingKeyword?_unique {text first second : Text} {found other : Found}
    (hlength : first.length = second.length) (hfirst : leadingKeyword? text first = some found)
    (hsecond : leadingKeyword? text second = some other) : found = other := by
  dsimp only [leadingKeyword?] at hfirst hsecond
  split at hfirst
  · split at hsecond
    · rw [← Option.some_inj, ← hfirst, ← hsecond, hlength]
    · cases hsecond
  · cases hfirst

/-! ## The longest keyword first -/

theorem pairwise_insertLongest (keyword : Text) {keywords : List Text}
    (h : keywords.Pairwise fun first second => second.length ≤ first.length) :
    (insertLongest keyword keywords).Pairwise fun first second =>
      second.length ≤ first.length := by
  induction keywords with
  | nil => simp [insertLongest]
  | cons first rest ih =>
    obtain ⟨hfirst, hrest⟩ := List.pairwise_cons.mp h
    rw [insertLongest]
    split
    · next hle =>
      refine List.pairwise_cons.mpr ⟨fun other hother => ?_, h⟩
      rcases List.mem_cons.mp hother with rfl | hother
      · exact hle
      · exact (hfirst other hother).trans hle
    · next hlt =>
      refine List.pairwise_cons.mpr ⟨fun other hother => ?_, ih hrest⟩
      rcases mem_insertLongest.mp hother with rfl | hother
      · omega
      · exact hfirst other hother

theorem pairwise_longestFirst (keywords : List Text) :
    (longestFirst keywords).Pairwise fun first second => second.length ≤ first.length := by
  induction keywords with
  | nil => exact List.Pairwise.nil
  | cons keyword rest ih => exact pairwise_insertLongest keyword ih

/-- The first keyword that leads a text is the longest one that does, if longer ones stand in front
of shorter ones. -/
theorem exists_longest_of_findSome? {text : Text} {keywords : List Text} {found : Found}
    (hsorted : keywords.Pairwise fun first second => ∀ found other,
      leadingKeyword? text first = some found → leadingKeyword? text second = some other →
        second.length ≤ first.length)
    (h : keywords.findSome? (leadingKeyword? text) = some found) :
    ∃ keyword ∈ keywords, leadingKeyword? text keyword = some found ∧
      ∀ w ∈ keywords, keyword.length < w.length → leadingKeyword? text w = none := by
  obtain ⟨before, keyword, after, rfl, hlead, hbefore⟩ := List.findSome?_eq_some_iff.mp h
  refine ⟨keyword, by simp, hlead, fun w hw hlt => ?_⟩
  rw [List.pairwise_append, List.pairwise_cons] at hsorted
  rw [List.mem_append, List.mem_cons] at hw
  rcases hw with hw | rfl | hw
  · exact hbefore w hw
  · exact absurd hlt (Nat.lt_irrefl _)
  · -- it stands behind the one that was found, so it is not longer
    rw [Option.eq_none_iff_forall_ne_some]
    intro other hother
    exact absurd (hsorted.2.1.1 w hw found other hlead hother) (Nat.not_le.mpr hlt)

namespace Pattern

/-! ## The three kinds -/

theorem mem_keywords_ofKeywords {kind : PatternKind} {keywords : List Text} {w : Text} :
    w ∈ (ofKeywords kind keywords).keywords ↔ w ∈ keywords ∧ w ≠ [] := by
  simp [ofKeywords]

theorem find?_portion_eq_none_iff {keywords : List Text} {text : Text} :
    (ofKeywords .portion keywords).find? text = none ↔
      ∀ w ∈ keywords, w ≠ [] → leadingKeyword? text w = none := by
  show (ofKeywords .portion keywords).keywords.findSome? (leadingKeyword? text) = none ↔ _
  simp only [List.findSome?_eq_none_iff, mem_keywords_ofKeywords, and_imp]

theorem exists_of_find?_portion {keywords : List Text} {text : Text} {found : Found}
    (h : (ofKeywords .portion keywords).find? text = some found) :
    ∃ w ∈ keywords, w ≠ [] ∧ leadingKeyword? text w = some found := by
  obtain ⟨w, hw, hfound⟩ := List.exists_of_findSome?_eq_some h
  obtain ⟨hmem, hne⟩ := mem_keywords_ofKeywords.mp hw
  exact ⟨w, hmem, hne, hfound⟩

/-- What a portion finds is a keyword that leads the text, and no longer one does. -/
theorem exists_longest_of_find?_portion {keywords : List Text} {text : Text} {found : Found}
    (h : (ofKeywords .portion keywords).find? text = some found) :
    ∃ keyword ∈ keywords, keyword ≠ [] ∧ leadingKeyword? text keyword = some found ∧
      ∀ w ∈ keywords, keyword.length < w.length → leadingKeyword? text w = none := by
  have hsorted : (ofKeywords .portion keywords).keywords.Pairwise fun first second =>
      second.length ≤ first.length := pairwise_longestFirst _
  have hsome : (ofKeywords .portion keywords).keywords.findSome? (leadingKeyword? text) =
      some found := h
  obtain ⟨keyword, hmem, hlead, hlongest⟩ :=
    exists_longest_of_findSome? (hsorted.imp fun hle _ _ _ _ => hle) hsome
  obtain ⟨hkeyword, hne⟩ := mem_keywords_ofKeywords.mp hmem
  refine ⟨keyword, hkeyword, hne, hlead, fun w hw hlt => ?_⟩
  refine hlongest w (mem_keywords_ofKeywords.mpr ⟨hw, ?_⟩) hlt
  rintro rfl
  exact absurd hlt (Nat.not_lt_zero _)

/-- A portion finds a keyword that leads the text, unless a longer one does. -/
theorem find?_portion_of_longest {keywords : List Text} {text keyword : Text} {found : Found}
    (hkeyword : keyword ∈ keywords) (hne : keyword ≠ [])
    (hlead : leadingKeyword? text keyword = some found)
    (hlongest : ∀ w ∈ keywords, keyword.length < w.length → leadingKeyword? text w = none) :
    (ofKeywords .portion keywords).find? text = some found := by
  cases hsome : (ofKeywords .portion keywords).find? text with
  | none =>
    rw [find?_portion_eq_none_iff.mp hsome keyword hkeyword hne] at hlead
    cases hlead
  | some other =>
    obtain ⟨w, hw, -, hother, hothers⟩ := exists_longest_of_find?_portion hsome
    -- neither of the two is longer, so the text falls apart at the same place
    have hlonger : ¬ w.length < keyword.length := by
      intro hlt
      rw [hothers keyword hkeyword hlt] at hlead
      cases hlead
    have hshorter : ¬ keyword.length < w.length := by
      intro hlt
      rw [hlongest w hw hlt] at hother
      cases hother
    exact congrArg some (leadingKeyword?_unique (by omega) hother hlead)

/-- **A portion finds the longest keyword that leads the text** with something behind it. -/
theorem find?_portion_eq_some_iff {keywords : List Text} {text : Text} {found : Found} :
    (ofKeywords .portion keywords).find? text = some found ↔
      ∃ keyword ∈ keywords, keyword ≠ [] ∧ leadingKeyword? text keyword = some found ∧
        ∀ w ∈ keywords, keyword.length < w.length → leadingKeyword? text w = none := by
  constructor
  · exact exists_longest_of_find?_portion
  · rintro ⟨keyword, hkeyword, hne, hlead, hlongest⟩
    exact find?_portion_of_longest hkeyword hne hlead hlongest

/-- A single finds the whole text, if it is a keyword. -/
theorem find?_single_eq_some_iff {keywords : List Text} {text : Text} {found : Found} :
    (ofKeywords .single keywords).find? text = some found ↔
      found = ⟨text, [], []⟩ ∧ ∃ w ∈ keywords, w ≠ [] ∧ Text.sameFolded w text = true := by
  have hany : ((ofKeywords .single keywords).keywords.any (Text.sameFolded · text)) = true ↔
      ∃ w ∈ keywords, w ≠ [] ∧ Text.sameFolded w text = true := by
    simp only [List.any_eq_true, mem_keywords_ofKeywords, and_assoc]
  rw [← hany]
  show (if (ofKeywords .single keywords).keywords.any (Text.sameFolded · text) then
    some ⟨text, [], []⟩ else none) = some found ↔ _
  split
  · next htest => simp [htest, eq_comm]
  · next htest => simp [htest]

theorem accepts_none_iff {keywords : List Text} {text : Text} :
    (ofKeywords .none keywords).accepts text = true ↔
      ∀ w ∈ keywords, w ≠ [] → ¬ w.map fold <:+: text.map fold := by
  have hany : ((ofKeywords .none keywords).keywords.any fun w =>
      Text.occursIn (w.map fold) (text.map fold)) = true ↔
      ∃ w ∈ keywords, w ≠ [] ∧ w.map fold <:+: text.map fold := by
    simp only [List.any_eq_true, mem_keywords_ofKeywords, and_assoc, Text.occursIn_iff_isInfix]
  have hnone : (∀ w ∈ keywords, w ≠ [] → ¬ w.map fold <:+: text.map fold) ↔
      ¬ ∃ w ∈ keywords, w ≠ [] ∧ w.map fold <:+: text.map fold := by
    simp only [not_exists, not_and]
  rw [hnone, ← hany, accepts]
  show (if (ofKeywords .none keywords).keywords.any (fun w =>
      Text.occursIn (w.map fold) (text.map fold)) then none
    else some (⟨[], [], text⟩ : Found)).isSome = true ↔ _
  split
  · next htest => simp [htest]
  · next htest => simp [htest]

theorem eq_of_find?_none {keywords : List Text} {text : Text} {found : Found}
    (h : (ofKeywords .none keywords).find? text = some found) : found = ⟨[], [], text⟩ := by
  dsimp only [find?, ofKeywords] at h
  split at h
  · simp at h
  · exact (Option.some_inj.mp h).symm

end Pattern

end LineageSearch
